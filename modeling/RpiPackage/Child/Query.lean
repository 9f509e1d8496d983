import RpiPackage.Lib.Result
import RpiPackage.Lib.Rust
import RpiPackage.Reply

/-!
# Child queries

The bounded pages of a native host about the children of a tool program: summaries of the children,
the phases of one child, and the chunks of the body of one phase. A query is checked before it is
sent and the page it brings back before it is used. UUIDs, base64 and SHA-256 are parameters.
-/

namespace Child

open Json Result Service

def maxResponseBytes : Nat := 131072
def chunkBytes : Nat := 32768
def maxChunks : Nat := 1024

inductive Direction where
  | oldestFirst
  | newestFirst
  deriving DecidableEq, Repr

structure ChildCursor where
  sessionId : String
  lane : String
  leafId : String
  direction : Direction
  childId : Option String
  afterEntryId : String
  afterSeq : UInt64
  deriving DecidableEq, Repr

structure ChildPageQuery where
  leafId : Option String
  cursor : Option ChildCursor
  direction : Direction
  limit : Nat
  maxBytes : Nat

structure ChildPhaseQuery where
  childId : String
  leafId : Option String
  cursor : Option ChildCursor
  direction : Direction
  limit : Nat
  maxBytes : Nat

structure ChildOrigin where
  runId : String
  assistantEntryId : String
  toolIndex : UInt32
  deriving DecidableEq, Repr

inductive ChildOriginVerification where
  | nativeCheckpoint
  | forkCopy
  deriving DecidableEq, Repr

structure ChildSummary where
  version : UInt8
  childId : String
  seq : UInt64
  origin : ChildOrigin
  originVerification : ChildOriginVerification
  rootCallId : String
  rootToolName : String
  toolName : String
  ordinal : UInt32
  parentChildId : Option String
  deriving DecidableEq, Repr

inductive ChildPhaseKind where
  | requested
  | prepared
  | update
  | final
  | closed
  deriving DecidableEq, Repr

inductive BodyKind where
  | requested
  | prepared
  | update
  | final
  deriving DecidableEq, Repr

structure BodyDescriptor where
  descriptorId : String
  version : UInt8
  bodyId : String
  childId : String
  kind : BodyKind
  codec : String
  encoding : String
  byteLength : Nat
  chunkBytes : Nat
  chunks : Nat
  sha256 : String
  deriving DecidableEq, Repr

structure ChildPhase where
  entryId : String
  seq : UInt64
  version : UInt8
  childId : String
  index : UInt64
  phase : ChildPhaseKind
  descriptor : Option BodyDescriptor
  isError : Option Bool
  cancelled : Option Bool
  failed : Option Bool
  interrupted : Option Bool
  deriving DecidableEq, Repr

structure ChildPage where
  leafId : Option String
  children : List ChildSummary
  nextCursor : Option ChildCursor
  scanExhausted : Bool

structure ChildPhasePage where
  leafId : String
  childId : String
  phases : List ChildPhase
  nextCursor : Option ChildCursor
  scanned : Nat
  scanExhausted : Bool

structure BodyCursor where
  sessionId : String
  lane : String
  leafId : String
  descriptorId : String
  nextIndex : Nat

structure ChildBodyCursor where
  direction : Direction
  childId : String
  phaseEntryId : String
  body : BodyCursor

structure ChildBodyQuery where
  childId : String
  phaseEntryId : String
  descriptorId : String
  leafId : Option String
  cursor : Option ChildBodyCursor
  limit : Nat
  maxBytes : Nat

structure BodyPageChunk where
  index : Nat
  byteOffset : Nat
  byteLength : Nat
  data : String
  sha256 : String

structure BodyPage where
  descriptor : BodyDescriptor
  leafId : String
  byteOffset : Nat
  byteLength : Nat
  totalBytes : Nat
  chunks : List BodyPageChunk
  nextCursor : Option BodyCursor

structure ChildBodyPage where
  childId : String
  phaseEntryId : String
  body : BodyPage
  nextCursor : Option ChildBodyCursor

/-! ### Checks of texts -/

def invalid : ServiceError := failure .invalidInput "invalid bounded native child query"

def malformed : ServiceError :=
  failure .hostUnavailable "native host returned an invalid bounded child page"

def ensure (condition : Bool) : Except ServiceError Unit :=
  if condition then .ok () else .error malformed

lemma ensure_eq_ok {condition : Bool} {u : Unit} :
    ensure condition = .ok u ↔ condition = true := by
  cases condition <;> simp [ensure]

def validId (s : String) : Bool :=
  s != "" && decide (s.utf8ByteSize ≤ 512) && !s.toList.any Rust.isControl

/-- Lower-case hexadecimal. -/
def hash (s : String) : Bool :=
  s.utf8ByteSize == 64 && s.toList.all fun c => ('0' ≤ c && c ≤ '9') || ('a' ≤ c && c ≤ 'f')

def ordered (direction : Direction) (before after : UInt64) : Bool :=
  match direction with
  | .oldestFirst => decide (before < after)
  | .newestFirst => decide (after < before)

def pinned (leaf : Option String) (cursor : Option ChildCursor) : Option String :=
  leaf.or (cursor.map ChildCursor.leafId)

def leafMatches (leaf expected : Option String) : Bool :=
  leaf.all validId && expected.all fun s => leaf == some s

def queryBase (id : String) (limit bytes maxCount maxBytes : Nat) (leaf : Option String) :
    Except ServiceError Unit :=
  failIf (validId id = false ∨ ¬(1 ≤ limit ∧ limit ≤ maxCount) ∨ ¬(1 ≤ bytes ∧ bytes ≤ maxBytes) ∨
    leaf.any (fun s => !validId s) = true) invalid

section Uuid

variable (uuid4 : String → Bool)

def nativeId (s idPrefix : String) : Bool := (Rust.stripPrefix s idPrefix).any uuid4

def queryCursor (id : String) (leaf : Option String) (dir : Direction) (child : Option String)
    (cursor : Option ChildCursor) : Except ServiceError Unit :=
  match cursor with
  | none => .ok ()
  | some c =>
    failIf (¬([c.sessionId, c.lane, c.leafId, c.afterEntryId].all validId = true) ∨
      c.sessionId ≠ id ∨ c.direction ≠ dir ∨ c.childId ≠ child ∨
      leaf.any (fun s => s != c.leafId) = true ∨
      ¬(nativeId uuid4 c.afterEntryId (if child.isSome then "tpphase-" else "tpchild-") = true))
      invalid

/-- The cursor a page continues with. -/
def nextCursor (id leaf : String) (dir : Direction) (child : Option String)
    (previous : Option ChildCursor) (next : ChildCursor) : Except ServiceError Unit := do
  (queryCursor uuid4 id (some leaf) dir child (some next)).mapError fun _ => malformed
  match previous with
  | none => .ok ()
  | some prev =>
    ensure (prev.lane == next.lane && ordered dir prev.afterSeq next.afterSeq &&
      prev.afterEntryId != next.afterEntryId)

def divCeil (n m : Nat) : Nat := (n + m - 1) / m

def descriptor (d : BodyDescriptor) (child : String) : Except ServiceError Unit :=
  ensure (d.version == 1 && uuid4 d.bodyId && d.descriptorId == s!"tpbody-{d.bodyId}-commit" &&
    nativeId uuid4 child "tpchild-" && d.childId == child && d.codec == "native-json-v1" &&
    d.encoding == "base64" && d.chunkBytes == chunkBytes &&
    decide (1 ≤ d.byteLength ∧ d.byteLength ≤ chunkBytes * maxChunks) &&
    decide (1 ≤ d.chunks ∧ d.chunks ≤ maxChunks) && d.chunks == divCeil d.byteLength chunkBytes &&
    hash d.sha256)

/-! ### Summaries -/

def summary (s : ChildSummary) : Except ServiceError Unit :=
  ensure (s.version == 1 && nativeId uuid4 s.childId "tpchild-" &&
    [s.origin.runId, s.origin.assistantEntryId, s.rootCallId, s.rootToolName, s.toolName].all
      validId &&
    s.parentChildId.all fun p => nativeId uuid4 p "tpchild-" && p != s.childId)

/-- The summaries of a page, after the ids and the last number before them. -/
def validateChildren (q : ChildPageQuery) (ids : List String) (lastSeq : Option UInt64) :
    List ChildSummary → Except ServiceError Unit
  | [] => .ok ()
  | s :: children => do
    summary uuid4 s
    ensure (!ids.contains s.childId && lastSeq.all (fun seq => ordered q.direction seq s.seq) &&
      q.cursor.all fun c => c.afterEntryId != s.childId)
    validateChildren q (s.childId :: ids) (some s.seq) children

/-- A parent that is on the page comes before its child. -/
def validateParent (children : List ChildSummary) (s : ChildSummary) : Except ServiceError Unit :=
  match children.find? fun v => some v.childId == s.parentChildId with
  | none => .ok ()
  | some parent =>
    ensure (decide (parent.seq < s.seq) && parent.origin.runId == s.origin.runId &&
      parent.origin.assistantEntryId == s.origin.assistantEntryId &&
      parent.origin.toolIndex == s.origin.toolIndex && parent.rootCallId == s.rootCallId &&
      parent.rootToolName == s.rootToolName)

def validateSummaries (id : String) (q : ChildPageQuery) (p : ChildPage) :
    Except ServiceError Unit := do
  ensure (decide (p.children.length ≤ q.limit) &&
    (!p.scanExhausted || decide (p.children.length < q.limit)) &&
    decide (p.children.length ≤ 32) && leafMatches p.leafId (pinned q.leafId q.cursor) &&
    (p.children.isEmpty || p.leafId.isSome) && p.scanExhausted == p.nextCursor.isNone &&
    (p.scanExhausted || !p.children.isEmpty))
  validateChildren uuid4 q [] (q.cursor.map ChildCursor.afterSeq) p.children
  p.children.forM (validateParent p.children)
  match p.nextCursor with
  | none => .ok ()
  | some c =>
    let leaf ← okOr p.leafId malformed
    nextCursor uuid4 id leaf q.direction none q.cursor c
    let last ← okOr p.children.getLast? malformed
    ensure (c.afterEntryId == last.childId && c.afterSeq == last.seq)

/-- `child_summaries_owned`, given the page the host sends back. -/
def childSummaries (id : String) (q : ChildPageQuery) (p : ChildPage) :
    Except ServiceError ChildPage := do
  queryBase id q.limit q.maxBytes 32 maxResponseBytes q.leafId
  queryCursor uuid4 id q.leafId q.direction none q.cursor
  validateSummaries uuid4 id q p
  return p

/-! ### Phases -/

def bodyKind : ChildPhaseKind → Option BodyKind
  | .requested => some .requested
  | .prepared => some .prepared
  | .update => some .update
  | .final => some .final
  | .closed => none

def phase (p : ChildPhase) (child : String) : Except ServiceError Unit := do
  let closed := p.phase == .closed
  let finalPhase := p.phase == .final
  ensure (p.version == 1 && p.childId == child && nativeId uuid4 p.entryId "tpphase-" &&
    (p.phase == .requested) == (p.index == 0) && p.failed.isSome == closed &&
    p.interrupted.isSome == closed && p.isError.isSome == finalPhase &&
    p.cancelled.isSome == finalPhase && p.descriptor.isNone == closed)
  match p.descriptor with
  | none => .ok ()
  | some d =>
    descriptor uuid4 d child
    ensure (bodyKind p.phase == some d.kind)

/-- The phases of a page, after the ids, the last number and the last index before them. -/
def validatePhaseList (q : ChildPhaseQuery) (ids : List String) (lastSeq lastIndex : Option UInt64) :
    List ChildPhase → Except ServiceError Unit
  | [] => .ok ()
  | v :: phases => do
    phase uuid4 v q.childId
    ensure (!ids.contains v.entryId && q.cursor.all (fun c => c.afterEntryId != v.entryId) &&
      lastSeq.all (fun seq => ordered q.direction seq v.seq) &&
      lastIndex.all fun index => ordered q.direction index v.index)
    validatePhaseList q (v.entryId :: ids) (some v.seq) (some v.index) phases

/-- A cursor is at the last candidate that was scanned, which may be of another child. -/
def validateScan (q : ChildPhaseQuery) (p : ChildPhasePage) (c : ChildCursor) :
    Except ServiceError Unit := do
  match p.phases.getLast? with
  | none => .ok ()
  | some last =>
    ensure ((c.afterSeq == last.seq && c.afterEntryId == last.entryId) ||
      (decide (p.phases.length < p.scanned) && ordered q.direction last.seq c.afterSeq))
  if p.scanned = p.phases.length then
    let last ← okOr p.phases.getLast? malformed
    ensure (c.afterSeq == last.seq && c.afterEntryId == last.entryId)
  ensure (p.phases.all fun v => v.entryId != c.afterEntryId || v.seq == c.afterSeq)

def validatePhases (id : String) (q : ChildPhaseQuery) (p : ChildPhasePage) :
    Except ServiceError Unit := do
  ensure (p.childId == q.childId && validId p.leafId &&
    leafMatches (some p.leafId) (pinned q.leafId q.cursor) &&
    decide (p.phases.length ≤ q.limit) && decide (p.phases.length ≤ 32) &&
    decide (p.scanned ≤ 128) && decide (p.phases.length ≤ p.scanned) &&
    p.scanExhausted == p.nextCursor.isNone && (p.scanExhausted || decide (0 < p.scanned)) &&
    (!p.scanExhausted || decide (p.scanned < 128)))
  validatePhaseList uuid4 q [] (q.cursor.map ChildCursor.afterSeq) none p.phases
  match p.nextCursor with
  | none => .ok ()
  | some c =>
    nextCursor uuid4 id p.leafId q.direction (some q.childId) q.cursor c
    validateScan q p c

/-- `child_phases_owned`, given the page the host sends back. -/
def childPhases (id : String) (q : ChildPhaseQuery) (p : ChildPhasePage) :
    Except ServiceError ChildPhasePage := do
  queryBase id q.limit q.maxBytes 32 maxResponseBytes q.leafId
  failIf (nativeId uuid4 q.childId "tpchild-" = false) invalid
  queryCursor uuid4 id q.leafId q.direction (some q.childId) q.cursor
  validatePhases uuid4 id q p
  return p

/-! ### Bodies -/

def bodyCursor (id : String) (leaf : Option String) (child phase descriptor : String)
    (c : ChildBodyCursor) : Bool :=
  [c.body.sessionId, c.body.lane, c.body.leafId, c.body.descriptorId].all validId &&
    c.direction == .oldestFirst && c.childId == child && c.phaseEntryId == phase &&
    c.body.sessionId == id && c.body.descriptorId == descriptor &&
    leaf.all (fun s => s == c.body.leafId) && decide (c.body.nextIndex < maxChunks)

/-- The bytes of a chunk of a body. -/
def chunkLength (d : BodyDescriptor) (index : Nat) : Nat :=
  min (d.byteLength - index * chunkBytes) chunkBytes

section Encoding

variable (decode : String → Option (List UInt8)) (encode : List UInt8 → String)
  (sha256 : List UInt8 → String)

/-- The chunks of a page from an index on, after the bytes before them; the result is the bytes
with those of the chunks. -/
def validateChunks (q : ChildBodyQuery) (d : BodyDescriptor) (index length : Nat) :
    List BodyPageChunk → Except ServiceError Nat
  | [] => .ok length
  | c :: chunks => do
    ensure (decide (index < d.chunks))
    let expected := chunkLength d index
    ensure (decide (length + expected ≤ q.maxBytes) && decide (length + expected ≤ 65536))
    ensure (c.index == index && c.byteOffset == index * chunkBytes && c.byteLength == expected &&
      hash c.sha256 && c.data.utf8ByteSize == divCeil expected 3 * 4)
    let bytes ← okOr (decode c.data) malformed
    ensure (bytes.length == expected && encode bytes == c.data && sha256 bytes == c.sha256)
    validateChunks q d (index + 1) (length + expected) chunks

def ChildBodyQuery.start (q : ChildBodyQuery) : Nat :=
  (q.cursor.map fun c => c.body.nextIndex).getD 0

def validateBody (id : String) (q : ChildBodyQuery) (p : ChildBodyPage) :
    Except ServiceError Unit := do
  let b := p.body
  let d := b.descriptor
  let leaf := q.leafId.or (q.cursor.map fun c => c.body.leafId)
  descriptor uuid4 d q.childId
  ensure (p.childId == q.childId && p.phaseEntryId == q.phaseEntryId &&
    d.descriptorId == q.descriptorId && validId b.leafId && leafMatches (some b.leafId) leaf &&
    b.nextCursor.isNone && b.totalBytes == d.byteLength && !b.chunks.isEmpty &&
    decide (b.chunks.length ≤ q.limit) && decide (b.chunks.length ≤ 8) &&
    decide (b.byteLength ≤ q.maxBytes) && decide (b.byteLength ≤ 65536))
  ensure (decide (q.start < d.chunks) && b.byteOffset == q.start * chunkBytes)
  let length ← validateChunks decode encode sha256 q d q.start 0 b.chunks
  ensure (length == b.byteLength)
  let next := q.start + b.chunks.length
  ensure (p.nextCursor.isSome == decide (next < d.chunks))
  match p.nextCursor with
  | none => .ok ()
  | some c =>
    ensure (bodyCursor id (some b.leafId) q.childId q.phaseEntryId q.descriptorId c &&
      c.body.nextIndex == next && q.cursor.all fun prev => prev.body.lane == c.body.lane)

/-- `child_body_owned`, given the page the host sends back. -/
def childBody (id : String) (q : ChildBodyQuery) (p : ChildBodyPage) :
    Except ServiceError ChildBodyPage := do
  queryBase id q.limit q.maxBytes 8 65536 q.leafId
  failIf (nativeId uuid4 q.childId "tpchild-" = false ∨
    nativeId uuid4 q.phaseEntryId "tpphase-" = false ∨ validId q.descriptorId = false ∨
    q.cursor.any (fun c =>
      !bodyCursor id q.leafId q.childId q.phaseEntryId q.descriptorId c) = true) invalid
  validateBody uuid4 decode encode sha256 id q p
  return p

end Encoding

end Uuid

end Child
