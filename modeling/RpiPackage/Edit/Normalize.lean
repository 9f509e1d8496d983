import RpiPackage.Edit.Text
import RpiPackage.Lib.Utf8

/-!
# Normalized texts

A text that does not occur literally is looked for after normalization of both sides: NFKC, no
trailing whitespace, plain quotes, dashes and spaces. NFKC itself comes from outside.
-/

namespace Edit

open Utf8

/-- NFKC of one character and of a whole text. -/
structure Nfkc where
  expand : Char → Text
  all : Text → Text

/-- NFKC leaves ASCII texts as they are. -/
def asciiNfkc : Nfkc := ⟨fun c => [c], id⟩

/-- `\r\n` and lone `\r` become `\n`. -/
def normalizeToLf : Text → Text
  | [] => []
  | '\r' :: '\n' :: t => '\n' :: normalizeToLf t
  | '\r' :: t => '\n' :: normalizeToLf t
  | c :: t => c :: normalizeToLf t

/-- `str::trim_end`. -/
def trimEnd (line : Text) : Text := line.rdropWhile Rust.isWhitespace

def quotes : List Nat := [0x2018, 0x2019, 0x201A, 0x201B]
def doubleQuotes : List Nat := [0x201C, 0x201D, 0x201E, 0x201F]
def dashes : List Nat := [0x2010, 0x2011, 0x2012, 0x2013, 0x2014, 0x2015, 0x2212]
def spaces : List Nat :=
  [0x00A0, 0x2002, 0x2003, 0x2004, 0x2005, 0x2006, 0x2007, 0x2008, 0x2009, 0x200A, 0x202F, 0x205F,
    0x3000]

/-- Plain quotes and dashes. -/
def foldQuote (c : Char) : Char :=
  if c.toNat ∈ quotes then Char.ofNat 0x27
  else if c.toNat ∈ doubleQuotes then Char.ofNat 0x22
  else if c.toNat ∈ dashes then '-'
  else c

/-- Plain quotes, dashes and spaces. -/
def foldChar (c : Char) : Char := if c.toNat ∈ spaces then ' ' else foldQuote c

def normalizeForFuzzyMatch (nf : Nfkc) (text : Text) : Text :=
  (List.intercalate ['\n'] ((splitLines (nf.all text)).map trimEnd)).map foldChar

structure FuzzyMatchResult where
  found : Bool
  index : Nat
  matchLength : Nat
  usedFuzzyMatch : Bool
  contentForReplacement : Text

/-- The exact text first, then the normalized one. A failed search has the index `usize::MAX`. -/
def fuzzyFindText (nf : Nfkc) (content oldText : Text) : FuzzyMatchResult :=
  match find oldText content with
  | some i => ⟨true, i, size oldText, false, content⟩
  | none =>
    let fuzzyContent := normalizeForFuzzyMatch nf content
    let fuzzyOld := normalizeForFuzzyMatch nf oldText
    match find fuzzyOld fuzzyContent with
    | some i => ⟨true, i, size fuzzyOld, true, fuzzyContent⟩
    | none => ⟨false, 2 ^ 64 - 1, 0, false, content⟩

end Edit
