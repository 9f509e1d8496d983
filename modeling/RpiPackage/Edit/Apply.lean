import Mathlib.Algebra.GroupWithZero.Nat
import RpiPackage.Edit.Report
import RpiPackage.Edit.View

/-!
# Applying edits

Every edit is matched against the original content. The edits are applied all or none: the failures
of all edits are collected, and only when there are none the matched bytes are replaced in one pass.
-/

namespace Edit

open Utf8 Rust

structure EditRequest where
  oldText : Text
  newText : Text
  replaceAll : Bool

structure AppliedEdits where
  baseContent : Text
  newContent : Text
  replacements : Nat
  notes : List String
  warnings : List String

/-- A resolved edit: what it matched, the bytes this covers in the original, and the new text. -/
structure Plan where
  index : Nat
  needle : Text
  spans : List Replacement
  newText : Text
  matchCount : Nat
  normalizedMatch : Bool

/-! ### Occurrences -/

/-- The spans from an offset on, where `rest` starts. A step is made for each occurrence. -/
def spansFrom (needle : Text) : Nat → Nat → Text → List (Nat × Nat)
  | 0, _, _ => []
  | fuel + 1, start, rest =>
    match find needle rest with
    | none => []
    | some i =>
      (start + i, start + i + size needle) ::
        spansFrom needle fuel (start + i + size needle) (dropBytes (i + size needle) rest)

def findAllSpans (content needle : Text) : List (Nat × Nat) :=
  if needle.isEmpty then [] else spansFrom needle (content.length + 1) 0 content

/-- 1-based line of a byte offset. -/
def lineOf (text : Text) (offset : Nat) : Nat := (takeBytes offset text).count '\n' + 1

/-! ### Resolving an edit -/

/-- An edit with its texts normalized to `\n`. -/
structure NormalizedEdit where
  index : Nat
  old : Text
  new : Text
  replaceAll : Bool

def normalizeEdits (edits : List EditRequest) : List NormalizedEdit :=
  edits.zipIdx.map fun (e, index) =>
    ⟨index, normalizeToLf e.oldText, normalizeToLf e.newText, e.replaceAll⟩

def validate (path : String) (e : NormalizedEdit) : Option Failure :=
  if e.old = [] then some ⟨e.index, .invalid, emptyOldText path e.index⟩
  else if e.old = e.new then some ⟨e.index, .invalid, noOp path e.index⟩
  else none

/-- Whether an edit that is not rejected matches only after normalization. -/
def probe (nf : Nfkc) (path : String) (content : Text) (e : NormalizedEdit) : Option Bool :=
  match validate path e with
  | some _ => none
  | none => some (fuzzyFindText nf content e.old).usedFuzzyMatch

/-- The view is built when an edit needs it. -/
def viewFor (nf : Nfkc) (path : String) (content : Text) (edits : List NormalizedEdit) :
    Option NormalizedView :=
  if (edits.map (probe nf path content)).contains (some true) then some (.new nf content) else none

/-- The text that an edit matched and the text that was searched. -/
def matched (nf : Nfkc) (content old : Text) : Option NormalizedView → Option (Text × Text)
  | none => some (old, content)
  | some view =>
    let found := fuzzyFindText nf view.text old
    if found.found then some (slice view.text found.index (found.index + found.matchLength), view.text)
    else none

/-- The original bytes of some matches, and their new text. -/
def replacementsFor (content : Text) (view : Option NormalizedView) (found : List (Nat × Nat))
    (new : Text) : List Replacement :=
  match view with
  | some view => view.originalReplacements (size content) found new
  | none => found.map fun span => ⟨span.1, span.2, new⟩

/-- 1-based line of a match. -/
def matchLine (content : Text) (view : Option NormalizedView) (start : Nat) : Nat :=
  match view with
  | some view => (view.positionAt start).line + 1
  | none => lineOf content start

/-- The plan for the occurrences of a text. -/
def planFor (notFound : Nat → Text → String) (path : String) (content : Text)
    (view : Option NormalizedView) (e : NormalizedEdit) (normalizedMatch : Bool) (needle : Text)
    (found : List (Nat × Nat)) : Except Failure Plan :=
  if found = [] then .error ⟨e.index, .notFound, notFound e.index e.old⟩
  else if e.replaceAll = false ∧ 1 < found.length then
    .error ⟨e.index, .invalid, duplicate path e.index found.length
      (found.map fun span => matchLine content view span.1)⟩
  else if (replacementsFor content view found e.new).all fun span =>
      slice content span.start span.stop = span.text then
    .error ⟨e.index, .invalid, noOp path e.index⟩
  else
    .ok
      { index := e.index
        needle
        spans := replacementsFor content view found e.new
        newText := e.new
        matchCount := found.length
        normalizedMatch }

/-- The plan of an edit, or why it fails. The parameter `notFound` is the report of a text that is
not found. -/
def resolve (nf : Nfkc) (notFound : Nat → Text → String) (path : String) (content : Text)
    (view : Option NormalizedView) (e : NormalizedEdit) (normalizedMatch : Bool) :
    Except Failure Plan :=
  let normalizedView := view.filter fun _ => normalizedMatch
  match matched nf content e.old normalizedView with
  | none => .error ⟨e.index, .notFound, notFound e.index e.old⟩
  | some (needle, searched) =>
    planFor notFound path content normalizedView e normalizedMatch needle
      (findAllSpans searched needle)

/-! ### Overlaps -/

/-- A span of a plan, by the position of the plan. -/
structure PlanSpan where
  plan : Nat
  index : Nat
  start : Nat
  stop : Nat

def planSpans (plans : List Plan) : List PlanSpan :=
  plans.zipIdx.flatMap fun (plan, i) =>
    plan.spans.map fun span => ⟨i, plan.index, span.start, span.stop⟩

/-- The first two neighbouring spans of different plans that overlap. -/
def firstOverlap : List PlanSpan → Option (PlanSpan × PlanSpan)
  | a :: b :: spans =>
    if a.plan = b.plan || a.stop ≤ b.start then firstOverlap (b :: spans) else some (a, b)
  | _ => none

def PlanSpan.lines (content : Text) (span : PlanSpan) : EditLines :=
  ⟨span.index, lineOf content span.start, lineOf content (span.stop - 1)⟩

def overlapFailure (path : String) (content : Text) (plans : List Plan) : Option Failure :=
  (firstOverlap ((planSpans plans).insertionSort fun a b => a.start ≤ b.start)).map fun (a, b) =>
    ⟨min a.index b.index, .invalid, overlap path (a.lines content) (b.lines content)⟩

/-! ### Splicing -/

def spliceFailure : ApplyFailure :=
  ⟨.invalid, "error: invalid replacement spans: overlapping, unordered, or out of bounds"⟩

/-- The text from a cursor on, with the replacements. Invalid spans are rejected. -/
def spliceFrom (base : Text) : Nat → List Replacement → Except ApplyFailure Text
  | cursor, [] => .ok (dropBytes cursor base)
  | cursor, r :: replacements =>
    match get? base cursor r.start, get? base r.start r.stop with
    | some gap, some _ => do
      let rest ← spliceFrom base r.stop replacements
      .ok (gap ++ r.text ++ rest)
    | _, _ => .error spliceFailure

def splice (base : Text) (replacements : List Replacement) : Except ApplyFailure Text :=
  spliceFrom base 0 replacements

/-! ### Notes and warnings -/

def spanLineRange (content : Text) (spans : List Replacement) : Nat × Nat :=
  let start := (spans.head?.map (·.start)).getD 0
  let stop := (spans.getLast?.map (·.stop)).getD 0
  (lineOf content start, lineOf content (stop - 1))

def note (content : Text) (plan : Plan) : String :=
  let (startLine, endLine) := spanLineRange content plan.spans
  "note: edits[" ++ toString plan.index ++
    "] matched after normalizing trailing whitespace/quotes (" ++ linesPhrase startLine endLine ++ ")"

/-- Braces, parentheses and brackets. -/
def brackets : List (Char × Char) :=
  [(Char.ofNat 0x7B, Char.ofNat 0x7D), ('(', ')'), ('[', ']')]

/-- Opening less closing ones. -/
def bracketBalance (text : Text) (bracket : Char × Char) : Int :=
  (text.count bracket.1 : Int) - text.count bracket.2

/-- The lines of the new content that every span covers, by the position of the plan. -/
def newLineRanges (base : Text) : Nat → Nat → Int → List (Nat × Replacement) → List (Nat × Int × Int)
  | _, _, _, [] => []
  | cursor, baseLine, lineDelta, (plan, span) :: spans =>
    let baseLine := baseLine + (slice base cursor span.start).count '\n'
    let startLine := baseLine + lineDelta
    let newLines : Int := span.text.count '\n'
    let oldLines : Int := (slice base span.start span.stop).count '\n'
    (plan, startLine, startLine + newLines) ::
      newLineRanges base span.start baseLine (lineDelta + (newLines - oldLines)) spans

def signed (delta : Int) : String := if 0 < delta then "+" ++ toString delta else toString delta

def rangesPhrase : List (Nat × Int × Int) → String
  | [] => "no lines"
  | [(_, first, last)] => linesPhrase first.toNat last.toNat
  | (_, first, last) :: ranges =>
    linesPhrase first.toNat last.toNat ++ ", and " ++ toString ranges.length ++ " more"

def braceWarnings (base : Text) (plans : List Plan) : List String :=
  let spans := plans.zipIdx.flatMap fun (plan, i) => plan.spans.map fun span => (i, span)
  let ranges := newLineRanges base 0 1 0 (spans.insertionSort fun a b => a.2.start ≤ b.2.start)
  plans.zipIdx.flatMap fun (plan, i) =>
    brackets.filterMap fun bracket =>
      let delta := plan.matchCount *
        (bracketBalance plan.newText bracket - bracketBalance plan.needle bracket)
      if delta = 0 then none
      else
        some ("warning: edits[" ++ toString plan.index ++ "] changes brace balance by " ++
          signed delta ++ " '" ++ String.ofList [if 0 < delta then bracket.1 else bracket.2] ++
          "' (" ++ rangesPhrase (ranges.filter (·.1 = i)) ++ ")")

/-! ### All edits -/

/-- What becomes of an edit that is not rejected. -/
def outcome (nf : Nfkc) (notFound : Nat → Text → String) (path : String) (content : Text)
    (view : Option NormalizedView) (e : NormalizedEdit) : Option (Except Failure Plan) :=
  (probe nf path content e).map (resolve nf notFound path content view e)

def outcomes (nf : Nfkc) (notFound : Nat → Text → String) (path : String) (content : Text)
    (edits : List NormalizedEdit) : List (Except Failure Plan) :=
  edits.filterMap (outcome nf notFound path content (viewFor nf path content edits))

def failed : Except Failure Plan → Option Failure
  | .ok _ => none
  | .error failure => some failure

def plansOf (nf : Nfkc) (notFound : Nat → Text → String) (path : String) (content : Text)
    (edits : List NormalizedEdit) : List Plan :=
  (outcomes nf notFound path content edits).filterMap Except.toOption

/-- The rejected edits, the edits that do not resolve, and two edits that overlap. -/
def failuresOf (nf : Nfkc) (notFound : Nat → Text → String) (path : String) (content : Text)
    (edits : List NormalizedEdit) : List Failure :=
  edits.filterMap (validate path) ++
    (outcomes nf notFound path content edits).filterMap failed ++
    (overlapFailure path content (plansOf nf notFound path content edits)).toList

def applyEdits (nf : Nfkc) (notFound : Nat → Text → String) (content : Text)
    (edits : List EditRequest) (path : String) : Except ApplyFailure AppliedEdits :=
  let normalized := normalizeEdits edits
  let plans := plansOf nf notFound path content normalized
  let failures := failuresOf nf notFound path content normalized
  if !failures.isEmpty then .error (.new failures)
  else do
    let newContent ← splice content
      ((plans.flatMap (·.spans)).insertionSort fun a b => a.start ≤ b.start)
    if content = newContent then .error (.new [⟨0, .invalid, noOp path 0⟩])
    else
      .ok
        { baseContent := content
          newContent
          replacements := (plans.map (·.matchCount)).sum
          notes := (plans.filter (·.normalizedMatch)).map (note content)
          warnings := braceWarnings content plans }

end Edit
