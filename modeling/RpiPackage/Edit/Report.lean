import Mathlib.Data.List.Sort
import RpiPackage.Edit.Text

/-!
# Failure reports

Every failing edit is reported with its index. What is said about a text that is not found comes
from the search for similar regions.
-/

namespace Edit

inductive FailureCode where
  | notFound
  | invalid
  deriving DecidableEq, Repr

structure Failure where
  index : Nat
  code : FailureCode
  message : String
  deriving DecidableEq, Repr

structure ApplyFailure where
  code : FailureCode
  message : String
  deriving DecidableEq, Repr

/-- `line 12` or `lines 12-15`. -/
def linesPhrase (startLine endLine : Nat) : String :=
  if endLine ≤ startLine then "line " ++ toString startLine
  else "lines " ++ toString startLine ++ "-" ++ toString endLine

def maxListedLines : Nat := 8

/-- Neighbouring occurrences on one line are counted together. -/
def countLine : List (Nat × Nat) → Nat → List (Nat × Nat)
  | [], line => [(line, 1)]
  | (last, count) :: lines, line =>
    if last = line then (last, count + 1) :: lines else (line, 1) :: (last, count) :: lines

def linesList (positions : List Nat) : String :=
  let lines := (positions.foldl countLine []).reverse
  let shown := (lines.take maxListedLines).map fun entry =>
    if entry.2 = 1 then toString entry.1
    else toString entry.1 ++ " (" ++ toString entry.2 ++ " times)"
  match shown with
  | [] => "no lines"
  | first :: rest =>
    let out := if rest = [] then "line " ++ first else "lines " ++ ", ".intercalate (first :: rest)
    if shown.length < lines.length then
      out ++ " (and " ++ toString (lines.length - shown.length) ++ " more lines)"
    else out

def emptyOldText (path : String) (index : Nat) : String :=
  "error: edits[" ++ toString index ++ "].oldText is empty in " ++ path ++
    " - provide the exact text to replace"

def noOp (path : String) (index : Nat) : String :=
  "error: edits[" ++ toString index ++ "].oldText and newText are identical in " ++ path ++
    " - this edit would change nothing"

def duplicate (path : String) (index count : Nat) (positions : List Nat) : String :=
  "error: edits[" ++ toString index ++ "].oldText occurs " ++ toString count ++ " times in " ++
    path ++ " (" ++ linesList positions ++ ")\n  help: include the surrounding lines that " ++
    "distinguish the intended occurrence, or set replaceAll: true to change every occurrence"

/-- An edit with its first and last line. -/
structure EditLines where
  index : Nat
  startLine : Nat
  endLine : Nat

def EditLines.phrase (e : EditLines) : String :=
  "edits[" ++ toString e.index ++ "] (" ++ linesPhrase e.startLine e.endLine ++ ")"

def overlap (path : String) (a b : EditLines) : String :=
  "error: " ++ a.phrase ++ " and " ++ b.phrase ++ " overlap in " ++ path ++
    "\n  help: merge them into one edit, or make each oldText target a disjoint region"

/-- All reports, ordered by the index of the edit. -/
def join (failures : List Failure) : String :=
  "\n\n".intercalate ((failures.insertionSort fun a b => a.index ≤ b.index).map (·.message))

def ApplyFailure.new (failures : List Failure) : ApplyFailure where
  code := if failures.any (·.code = .notFound) then .notFound else .invalid
  message := join failures

end Edit
