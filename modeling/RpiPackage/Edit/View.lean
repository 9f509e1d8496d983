import RpiPackage.Edit.Normalize

/-!
# The normalized view of a text

The view knows for each of its characters the bytes of the original it came from, as long as
normalizing character by character gives the same text. A match in the view is mapped back to the
original bytes it covers, or to whole lines that are rebuilt from the view.
-/

namespace Edit

open Utf8

/-! ### Characters and their sources -/

structure SourceChar where
  char : Char
  start : Nat
  stop : Nat
  deriving DecidableEq

/-- The characters so far, and the whitespace that the end of the line drops. -/
structure ViewChars where
  chars : List SourceChar
  pending : List SourceChar

def ViewChars.push (v : ViewChars) (n : SourceChar) : ViewChars :=
  if n.char = '\n' then ⟨v.chars ++ [n], []⟩
  else if Rust.isWhitespace n.char then { v with pending := v.pending ++ [n] }
  else ⟨v.chars ++ v.pending ++ [n], []⟩

/-- The normalized characters of the original character at a byte offset. -/
def sourceChars (nf : Nfkc) (start : Nat) (c : Char) : List SourceChar :=
  (nf.expand c).map fun n => ⟨foldQuote n, start, start + c.utf8Size⟩

def viewChars (nf : Nfkc) (start : Nat) : Text → ViewChars → ViewChars
  | [], v => v
  | c :: content, v =>
    viewChars nf (start + c.utf8Size) content ((sourceChars nf start c).foldl ViewChars.push v)

structure NormalizedPosition where
  sourceIndex : Nat
  line : Nat

/-- One position for each byte, and one for the end. -/
def positionsFrom (sourceIndex line : Nat) : Text → List NormalizedPosition
  | [] => [⟨sourceIndex, line⟩]
  | c :: text =>
    List.replicate c.utf8Size ⟨sourceIndex, line⟩ ++
      positionsFrom (sourceIndex + 1) (if c = '\n' then line + 1 else line) text

def lineStartsFrom (byte : Nat) : Text → List Nat
  | [] => []
  | c :: text =>
    if c = '\n' then (byte + 1) :: lineStartsFrom (byte + 1) text
    else lineStartsFrom (byte + c.utf8Size) text

def lineStarts (text : Text) : List Nat := 0 :: lineStartsFrom 0 text

structure NormalizedView where
  text : Text
  sources : Option (List (Nat × Nat))
  positions : List NormalizedPosition
  lineStarts : List Nat
  originalLineStarts : List Nat

namespace NormalizedView

def new (nf : Nfkc) (content : Text) : NormalizedView :=
  let text := normalizeForFuzzyMatch nf content
  let chars := (viewChars nf 0 content ⟨[], []⟩).chars
  { text
    sources := if chars.map (·.char) = text then some (chars.map fun n => (n.start, n.stop)) else none
    positions := positionsFrom 0 0 text
    lineStarts := Edit.lineStarts text
    originalLineStarts := Edit.lineStarts content }

/-! ### Spans of the original -/

structure MappedSpan where
  start : Nat
  stop : Nat
  normalizedStart : Nat
  normalizedStop : Nat

variable (v : NormalizedView)

def positionAt (byte : Nat) : NormalizedPosition := v.positions.getD byte ⟨0, 0⟩

/-- The source of a character of the view. -/
def source (sources : List (Nat × Nat)) (i : Nat) : Nat × Nat := sources.getD i (0, 0)

/-- Neither end of a match lies inside the expansion of one character. -/
def isClean (sources : List (Nat × Nat)) (first last : Nat) : Bool :=
  (first = 0 || (source sources (first - 1)).1 ≠ (source sources first).1) &&
    (last + 1 = sources.length || (source sources (last + 1)).1 ≠ (source sources last).1)

def cleanSpan (start stop : Nat) : Option MappedSpan :=
  v.sources.bind fun sources =>
    let first := (v.positionAt start).sourceIndex
    let last := (v.positionAt stop).sourceIndex - 1
    if isClean sources first last then
      some ⟨(source sources first).1, (source sources last).2, start, stop⟩
    else none

/-- The end of a line, before its newline. -/
def lineStop (starts : List Nat) (length line : Nat) : Nat :=
  match starts[line + 1]? with
  | some next => next - 1
  | none => length

/-- The whole lines of a match. -/
def lineSpan (contentLen start stop : Nat) : MappedSpan :=
  let firstLine := (v.positionAt start).line
  let lastLine := (v.positionAt stop).line
  { start := v.originalLineStarts.getD firstLine 0
    stop := lineStop v.originalLineStarts contentLen lastLine
    normalizedStart := v.lineStarts.getD firstLine 0
    normalizedStop := lineStop v.lineStarts (size v.text) lastLine }

def originalSpan (contentLen start stop : Nat) : MappedSpan :=
  (v.cleanSpan start stop).getD (v.lineSpan contentLen start stop)

def MappedSpan.merge (span previous : MappedSpan) : MappedSpan where
  start := min span.start previous.start
  stop := max span.stop previous.stop
  normalizedStart := min span.normalizedStart previous.normalizedStart
  normalizedStop := max span.normalizedStop previous.normalizedStop

/-- Matches `first` up to `next` (exclusive) share one span. -/
structure SpanGroup where
  span : MappedSpan
  first : Nat
  next : Nat

/-- A span takes in the groups before it that it overlaps, the last one first. -/
def absorb : List SpanGroup → MappedSpan → Nat → List SpanGroup × MappedSpan × Nat
  | [], span, first => ([], span, first)
  | previous :: groups, span, first =>
    if span.start < previous.span.stop then
      absorb groups (span.merge previous.span) previous.first
    else (previous :: groups, span, first)

/-- The groups of some matches, the last one first. -/
def groupsFrom (contentLen : Nat) : List SpanGroup → Nat → List (Nat × Nat) → List SpanGroup
  | groups, _, [] => groups
  | groups, index, (start, stop) :: found =>
    let (rest, span, first) := absorb groups (v.originalSpan contentLen start stop) index
    groupsFrom contentLen (⟨span, first, index + 1⟩ :: rest) (index + 1) found

def groups (contentLen : Nat) (found : List (Nat × Nat)) : List SpanGroup :=
  (v.groupsFrom contentLen [] 0 found).reverse

end NormalizedView

structure Replacement where
  start : Nat
  stop : Nat
  text : Text
  deriving DecidableEq

namespace NormalizedView

variable (v : NormalizedView)

/-- The text from the cursor up to an offset, with the matches in between replaced. -/
def rebuild (newText : Text) (stop : Nat) : Nat → List (Nat × Nat) → Text
  | cursor, [] => slice v.text cursor stop
  | cursor, (first, last) :: found =>
    slice v.text cursor first ++ newText ++ rebuild newText stop last found

def replacement (found : List (Nat × Nat)) (newText : Text) (group : SpanGroup) : Replacement where
  start := group.span.start
  stop := group.span.stop
  text := v.rebuild newText group.span.normalizedStop group.span.normalizedStart
    ((found.take group.next).drop group.first)

def originalReplacements (contentLen : Nat) (found : List (Nat × Nat)) (newText : Text) :
    List Replacement :=
  (v.groups contentLen found).map (v.replacement found newText)

end NormalizedView

end Edit
