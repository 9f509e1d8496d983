import Mathlib.Data.Nat.Digits.Defs
import RpiPackage.Edit.Text

/-!
# The display diff

A list of line operations is printed with line numbers and a few lines of context. Two counters
follow the lines of the old and of the new text. Every operation drops a blank line at its end, and
from there on the counters stay behind.
-/

namespace Edit

/-! ### Operations on lines -/

inductive DiffTag where
  | equal
  | delete
  | insert
  | replace
  deriving DecidableEq

/-- An operation with its range of old lines and its range of new lines. -/
structure DiffOp where
  tag : DiffTag
  oldStart : Nat
  oldEnd : Nat
  newStart : Nat
  newEnd : Nat

def lineSlice (lines : List Text) (first last : Nat) : List Text := (lines.take last).drop first

namespace DiffOp

def isAdded (op : DiffOp) : Bool := op.tag = .insert || op.tag = .replace

def isRemoved (op : DiffOp) : Bool := op.tag = .delete || op.tag = .replace

def isChange (op : DiffOp) : Bool := op.isAdded || op.isRemoved

def oldLines (old : List Text) (op : DiffOp) : List Text := lineSlice old op.oldStart op.oldEnd

def newLines (new : List Text) (op : DiffOp) : List Text := lineSlice new op.newStart op.newEnd

/-- What an operation says about the lines it is for. -/
def Sound (old new : List Text) (op : DiffOp) : Prop :=
  match op.tag with
  | .equal => op.oldLines old = op.newLines new
  | .delete => op.newEnd = op.newStart
  | .insert => op.oldEnd = op.oldStart
  | .replace => True

end DiffOp

/-- The operations turn the old lines from `i` on into the new lines from `j` on: they follow one
another without a gap up to the end of both. -/
inductive Turns (old new : List Text) : Nat → Nat → List DiffOp → Prop where
  | nil : Turns old new old.length new.length []
  | cons {op : DiffOp} {ops : List DiffOp} : op.oldStart ≤ op.oldEnd → op.newStart ≤ op.newEnd →
      op.Sound old new → Turns old new op.oldEnd op.newEnd ops →
      Turns old new op.oldStart op.newStart (op :: ops)

/-! ### The printed lines -/

inductive DiffLine where
  | removed (number : Nat) (line : Text)
  | added (number : Nat) (line : Text)
  | context (number : Nat) (line : Text)
  | skipped
  deriving DecidableEq

/-- `{:>width$}`. -/
def padLeft (width : Nat) (text : Text) : Text :=
  List.replicate (width - text.length) ' ' ++ text

def DiffLine.render (width : Nat) : DiffLine → Text
  | .removed n line => '-' :: (padLeft width (Nat.toDigits 10 n) ++ ' ' :: line)
  | .added n line => '+' :: (padLeft width (Nat.toDigits 10 n) ++ ' ' :: line)
  | .context n line => ' ' :: (padLeft width (Nat.toDigits 10 n) ++ ' ' :: line)
  | .skipped => ' ' :: (padLeft width [] ++ ' ' :: "...".toList)

structure DiffState where
  out : List DiffLine
  oldLineNum : Nat
  newLineNum : Nat
  lastWasChange : Bool
  firstChangedLine : Option Nat

/-- A block without the empty line at its end. -/
def popEmpty (raw : List Text) : List Text :=
  if raw.getLast? = some [] then raw.dropLast else raw

/-- Lines that are printed with the numbers from `n` on. -/
def numbered (print : Nat → Text → DiffLine) (n : Nat) (lines : List Text) : List DiffLine :=
  (lines.zipIdx n).map fun entry => print entry.2 entry.1

namespace DiffState

def start : DiffState := ⟨[], 1, 1, false, none⟩

def remove (s : DiffState) (lines : List Text) : DiffState :=
  { s with out := s.out ++ numbered .removed s.oldLineNum lines,
           oldLineNum := s.oldLineNum + lines.length }

def add (s : DiffState) (lines : List Text) : DiffState :=
  { s with out := s.out ++ numbered .added s.newLineNum lines,
           newLineNum := s.newLineNum + lines.length }

def context (s : DiffState) (lines : List Text) : DiffState :=
  { s with out := s.out ++ numbered .context s.oldLineNum lines,
           oldLineNum := s.oldLineNum + lines.length, newLineNum := s.newLineNum + lines.length }

def advance (s : DiffState) (n : Nat) : DiffState :=
  { s with oldLineNum := s.oldLineNum + n, newLineNum := s.newLineNum + n }

def skip (s : DiffState) (n : Nat) : DiffState :=
  ({ s with out := s.out ++ [.skipped] } : DiffState).advance n

/-- `if skipped > 0`. -/
def skipAny (s : DiffState) (skipped : Nat) : DiffState := if 0 < skipped then s.skip skipped else s

def change (s : DiffState) (old new : List Text) (op : DiffOp) : DiffState :=
  let s := { s with firstChangedLine := s.firstChangedLine.or (some s.newLineNum) }
  let s := if op.isRemoved then s.remove (popEmpty (op.oldLines old)) else s
  let s := if op.isAdded then s.add (popEmpty (op.newLines new)) else s
  { s with lastWasChange := true }

/-- The lines that two texts share, with the context of the changes before and after them. -/
def keep (s : DiffState) (raw : List Text) (contextLines : Nat) (nextIsChange : Bool) : DiffState :=
  let s :=
    if s.lastWasChange && nextIsChange then
      if raw.length ≤ contextLines * 2 then s.context raw
      else
        let leading := raw.take contextLines
        let trailing := raw.drop (raw.length - contextLines)
        ((s.context leading).skip (raw.length - leading.length - trailing.length)).context trailing
    else if s.lastWasChange then
      let shown := if raw.length ≤ contextLines then raw else raw.take contextLines
      (s.context shown).skipAny (raw.length - shown.length)
    else if nextIsChange then
      let skipped := raw.length - contextLines
      (s.skipAny skipped).context (raw.drop skipped)
    else s.advance raw.length
  { s with lastWasChange := false }

def step (old new : List Text) (contextLines : Nat) (nextIsChange : Bool) (s : DiffState)
    (op : DiffOp) : DiffState :=
  if op.isChange then s.change old new op
  else s.keep (popEmpty (op.oldLines old)) contextLines nextIsChange

def loop (old new : List Text) (contextLines : Nat) : List DiffOp → DiffState → DiffState
  | [], s => s
  | op :: ops, s =>
    loop old new contextLines ops (s.step old new contextLines (ops.head?.any (·.isChange)) op)

end DiffState

structure DiffResult where
  diff : Text
  firstChangedLine : Option Nat

/-- The printed lines of two texts and a list of operations that turns one into the other. -/
def diffState (oldContent newContent : Text) (contextLines : Nat) (ops : List DiffOp) : DiffState :=
  DiffState.loop (splitLines oldContent) (splitLines newContent) contextLines ops DiffState.start

def generateDiffString (oldContent newContent : Text) (contextLines : Nat) (ops : List DiffOp) :
    DiffResult :=
  let maxLineNum := max (splitLines oldContent).length (splitLines newContent).length
  let width := (Nat.toDigits 10 maxLineNum).length
  let s := diffState oldContent newContent contextLines ops
  ⟨List.intercalate ['\n'] (s.out.map (·.render width)), s.firstChangedLine⟩

end Edit
