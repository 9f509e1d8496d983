import RpiPackage.Timings.Record
import RpiPackage.Lib.FrameStack
import RpiPackage.Lib.Lines

/-!
# Timing queries

A query advances the scan of a transcript by a bounded amount of work and answers from what the
scan has recorded so far. Scans are cached between queries under the id of their session. The
parser of a line, and what the file system answers, are parameters.
-/

namespace Timings

open Json Service Result

def byteBudget : Nat := 4 * 1024 * 1024
def recordBudget : Nat := 4096
def maxLine : Nat := 32 * 1024 * 1024
def maxHeader : Nat := 64 * 1024
def maxSessions : Nat := 16

def newline : UInt8 := 10

structure RunTimingsQuery where
  entryIds : List String
  cursor : Option String

def RunTimingsQuery.validate (query : RunTimingsQuery) : Except ServiceError Unit :=
  if 400 < query.entryIds.length
      ∨ (∃ id ∈ query.entryIds, id = "" ∨ 256 < id.utf8ByteSize)
      ∨ Rust.hasDuplicate id query.entryIds = true
      ∨ (∃ cursor ∈ query.cursor, 128 < cursor.utf8ByteSize) then
    .error (failure .invalidInput ("entryIds must contain at most 400 unique, nonempty IDs of at "
      ++ "most 256 bytes; cursor at most 128 bytes"))
  else .ok ()

structure RunTimingsPage where
  timings : List RunTiming
  complete : Bool
  cursor : Option String
  scannedBytes : Nat
  totalBytes : Nat

structure Identity where
  created : Option Nat
  dev : UInt64
  ino : UInt64
  deriving DecidableEq

structure Scan extends Lanes where
  generation : String
  identity : Identity
  modified : Option Nat
  length : Nat
  offset : Nat
  pending : List UInt8
  anchor : List UInt8
  header : Bool

structure RunTimingCache where
  scans : List (String × Scan)

def conflict : ServiceError :=
  failure .conflict "run timing generation changed; discard timings and retry without cursor"

def ioError (error : String) : ServiceError :=
  failure .unavailable ("run timings unavailable: " ++ error)

structure Metadata where
  isFile : Bool
  identity : Identity
  modified : Option Nat
  len : Nat

/-- What a query meets in the file system, its errors included. -/
structure Attempt where
  /-- The transcript of a session that is not cached, and the name of its scan. -/
  discovered : Except ServiceError (Metadata × String)
  /-- The open file, once it is known to lie under the session root. -/
  opened : Except ServiceError Metadata
  /-- How many bytes each read makes available. -/
  available : Nat → Except ServiceError Nat
  /-- The file after the reads. -/
  after : Except ServiceError Metadata

section Parser

-- `serde_json::from_slice`
variable (parse : List UInt8 → Option Value)

def validateHeader (file : List UInt8) (id : String) : Except ServiceError Unit := do
  let line := Lines.takeLine newline (file.take (maxHeader + 1))
  failIf (maxHeader < line.length ∨ line.getLast? ≠ some newline)
    (failure .unavailable "invalid or oversized native header")
  let value ← okOr (parse line) (failure .unavailable "invalid native header")
  checkHeader value id

def Scan.consume (scan : Scan) (taken : List UInt8) : Scan :=
  { scan with pending := scan.pending ++ taken, offset := scan.offset + taken.length }

/-- The pending line is complete: it is the header or the next record. -/
def Scan.finishLine (scan : Scan) (id : String) : Except ServiceError Scan := do
  let value ← okOr (parse scan.pending) (failure .unavailable "invalid native JSONL record")
  if scan.header then
    let lanes ← scan.record value
    return { scan with toLanes := lanes, pending := [] }
  else
    checkHeader value id
    return { scan with header := true, pending := [] }

/-- The reads of one query, up to a length the file had before. Each of them takes at least one
byte, so there are at most `fuel` of them when that many bytes are left. -/
def Scan.readLines (id : String) (file : List UInt8) (total : Nat)
    (available : Nat → Except ServiceError Nat) :
    (fuel bytes records : Nat) → Scan → Except ServiceError Scan
  | 0, _, _, scan => .ok scan
  | fuel + 1, bytes, records, scan =>
    if scan.offset < total ∧ bytes < byteBudget ∧ records < recordBudget then do
      let length ← available scan.offset
      let buffer := (file.drop scan.offset).take length
      failIf (buffer = []) conflict
      let chunk := buffer.take (min (byteBudget - bytes) (total - scan.offset))
      let taken := Lines.takeLine newline chunk
      failIf ((if scan.header then maxLine else maxHeader) < scan.pending.length + taken.length)
        (limit "native JSONL line exceeds supported bound")
      let scan := scan.consume taken
      if scan.pending.getLast? = some newline then
        let scan ← scan.finishLine parse id
        scan.readLines id file total available fuel (bytes + taken.length) (records + 1)
      else scan.readLines id file total available fuel (bytes + taken.length) records
    else .ok scan

/-- The bytes before the offset still are what the scan has read there. -/
def Scan.checkAnchor (scan : Scan) (file : List UInt8) : Except ServiceError Unit :=
  if scan.anchor = [] then .ok ()
  else do
    let anchor ← okOr (FrameStack.readAt file (scan.offset - scan.anchor.length) scan.anchor.length)
      (ioError "failed to fill whole buffer")
    failIf (anchor ≠ scan.anchor) conflict

def Scan.revalidateHeader (scan : Scan) (id : String) (file : List UInt8) :
    Except ServiceError Unit :=
  if scan.header then validateHeader parse file id else .ok ()

/-- One query of a scan whose cursor matches. -/
def Scan.advance (scan : Scan) (id : String) (file : List UInt8) (query : RunTimingsQuery)
    (attempt : Attempt) : Except ServiceError (RunTimingsPage × Scan) := do
  let m ← attempt.opened
  failIf (m.isFile = false ∨ m.identity ≠ scan.identity ∨ m.len < scan.length
    ∨ (m.len = scan.length ∧ m.modified ≠ scan.modified)) conflict
  scan.checkAnchor file
  scan.revalidateHeader parse id file
  let scan ← scan.readLines parse id file m.len attempt.available (m.len - scan.offset) 0 0
  let size := min scan.offset 4096
  let anchor ← okOr (FrameStack.readAt file (scan.offset - size) size)
    (ioError "failed to fill whole buffer")
  let after ← attempt.after
  failIf (after.identity ≠ scan.identity ∨ after.len < m.len) conflict
  let scan := { scan with anchor, modified := m.modified, length := m.len }
  return ({
    timings := scan.timings.filter fun t => query.entryIds.contains t.finalEntryId
    complete := scan.header && scan.offset == m.len && scan.pending.isEmpty
    cursor := some scan.generation
    scannedBytes := scan.offset
    totalBytes := m.len }, scan)

def Scan.start (m : Metadata) (generation : String) : Scan where
  toLanes := Lanes.empty
  generation
  identity := m.identity
  modified := m.modified
  length := m.len
  offset := 0
  pending := []
  anchor := []
  header := false

/-- The cached scan of a session, and the other scans. -/
def RunTimingCache.remove (cache : RunTimingCache) (id : String) :
    Option (Scan × RunTimingCache) :=
  match cache.scans.findIdx? fun p => p.1 == id with
  | none => none
  | some index => (cache.scans[index]?).map fun p => (p.2, ⟨cache.scans.eraseIdx index⟩)

/-- The newest scans are kept. -/
def RunTimingCache.store (cache : RunTimingCache) (id : String) (scan : Scan) : RunTimingCache :=
  let scans := cache.scans ++ [(id, scan)]
  ⟨scans.drop (scans.length - maxSessions)⟩

/-- The scan a query advances, and what is cached while it does. A query that is refused here
leaves the cache alone. -/
def RunTimingCache.takeScan (cache : RunTimingCache) (id : String) (query : RunTimingsQuery)
    (attempt : Attempt) : Except ServiceError (Scan × RunTimingCache) := do
  query.validate
  match cache.remove id with
  | some (scan, cache) =>
    failIf (∃ cursor ∈ query.cursor, cursor ≠ scan.generation) conflict
    return (scan, cache)
  | none =>
    failIf (query.cursor.isSome = true) conflict
    let (m, generation) ← attempt.discovered
    return (Scan.start m generation, cache)

/-- A query that fails loses the scan it has taken from the cache. -/
def RunTimingCache.query (cache : RunTimingCache) (id : String) (file : List UInt8)
    (query : RunTimingsQuery) (attempt : Attempt) :
    Except ServiceError RunTimingsPage × RunTimingCache :=
  match cache.takeScan id query attempt with
  | .error error => (.error error, cache)
  | .ok (scan, rest) =>
    match scan.advance parse id file query attempt with
    | .error error => (.error error, rest)
    | .ok (page, scan) => (.ok page, rest.store id scan)

end Parser

end Timings
