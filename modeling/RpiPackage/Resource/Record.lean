import RpiPackage.Lib.Rust
import RpiPackage.Lib.Serde

/-!
# Resource records

The exact native resources of a session: the selection that is in force, the ledger of the
operations that asked for others, and the native observations that confirmed them. A record is
valid when its ledger is a chain of expectations and results.
-/

namespace Resource

open Json Result Serde

def maxConfigBytes : Nat := 64 * 1024
def maxStateBytes : Nat := 256 * 1024
def maxOperations : Nat := 64
def recordCap : Nat := 2 * 1024 * 1024

/-! ### Selections -/

inductive ResourceScope where
  | project
  | global
  deriving DecidableEq, Repr

structure MainPackage where
  name : String
  scope : Option ResourceScope
  instructions : List String
  deriving DecidableEq, Repr

inductive ResourceTools where
  | default
  | only (names : List String)
  | none
  deriving DecidableEq, Repr

structure ResourceSelection where
  version : UInt32
  mainPackage : Option MainPackage
  skills : List String
  extensions : List String
  instructions : List String
  tools : ResourceTools
  deriving DecidableEq, Repr

structure NativeBinding where
  revision : UInt64
  fingerprint : Option String
  operationId : Option String
  deriving DecidableEq, Repr

structure ExpectedBinding where
  revision : UInt64
  fingerprint : Option String
  deriving DecidableEq, Repr

def strings (names : List String) : Value := .array (names.map .string)

def number32 (n : UInt32) : Value := number n.toUInt64

def u32 : Decoder UInt32
  | _, .number (.posInt n) =>
    if n.toNat < 2 ^ 32 then .ok n.toUInt32
    else .error ("invalid value: integer `" ++ toString n ++ "`, expected u32")
  | _, .number (.negInt n) => .error ("invalid value: integer `" ++ toString n ++ "`, expected u32")
  | _, v => .error (invalidType v "u32")

def ResourceScope.name : ResourceScope → String
  | .project => "project"
  | .global => "global"

def ResourceScope.decode : Decoder ResourceScope :=
  unitEnum [("project", .project), ("global", .global)]

def MainPackage.encode (p : MainPackage) : Value :=
  .object (("name", .string p.name) ::
    (skipNone "scope" (fun s : ResourceScope => .string s.name) p.scope ++
      [("instructions", strings p.instructions)]))

def MainPackage.decode : Decoder MainPackage := fun src v => do
  let f ← structFields ["name", "scope", "instructions"] true v
  return {
    name := ← f.required src "name" string
    scope := ← f.defaulted src "scope" none (option ResourceScope.decode)
    instructions := ← f.defaulted src "instructions" [] (vec string) }

def ResourceTools.encode : ResourceTools → Value
  | .default => .object [("mode", .string "default")]
  | .only names => .object [("mode", .string "only"), ("names", strings names)]
  | .none => .object [("mode", .string "none")]

/-- The tools are internally tagged, so what follows the tag is read through buffered content. -/
def ResourceTools.decode : Decoder ResourceTools := fun _ v => do
  let (mode, body) ← tagged "mode" v
  match mode with
  | "default" =>
    let _ ← structFields [] true body
    return .default
  | "only" =>
    let f ← structFields ["names"] true body
    return .only (← f.required .content "names" (vec string))
  | "none" =>
    let _ ← structFields [] true body
    return .none
  | mode => throw ("unknown variant `" ++ mode ++ "`")

def ResourceSelection.encode (s : ResourceSelection) : Value :=
  .object (("version", number32 s.version) ::
    (skipNone "main_package" MainPackage.encode s.mainPackage ++
      [("skills", strings s.skills), ("extensions", strings s.extensions),
        ("instructions", strings s.instructions), ("tools", s.tools.encode)]))

def ResourceSelection.decode : Decoder ResourceSelection := fun src v => do
  let f ← structFields ["version", "main_package", "skills", "extensions", "instructions", "tools"]
    true v
  return {
    version := ← f.required src "version" u32
    mainPackage := ← f.defaulted src "main_package" none (option MainPackage.decode)
    skills := ← f.defaulted src "skills" [] (vec string)
    extensions := ← f.defaulted src "extensions" [] (vec string)
    instructions := ← f.defaulted src "instructions" [] (vec string)
    tools := ← f.required src "tools" ResourceTools.decode }

def NativeBinding.encode (b : NativeBinding) : Value :=
  .object ([("revision", number b.revision), ("fingerprint", nullable .string b.fingerprint)] ++
    skipNone "operationId" .string b.operationId)

def NativeBinding.decode : Decoder NativeBinding := fun src v => do
  let f ← structFields ["revision", "fingerprint", "operationId"] true v
  return {
    revision := ← f.required src "revision" u64
    fingerprint := ← f.optional src "fingerprint" string
    operationId := ← f.defaulted src "operationId" none (option string) }

def ExpectedBinding.encode (b : ExpectedBinding) : Value :=
  .object [("revision", number b.revision), ("fingerprint", nullable .string b.fingerprint)]

/-! ### Operations -/

structure ResourceTransition where
  version : UInt32
  operationId : String
  expected : ExpectedBinding
  target : ResourceSelection
  deriving DecidableEq, Repr

structure ApplyResourcesRequest where
  expectedRevision : UInt64
  operationId : String
  target : ResourceSelection
  supersedesOperationId : Option String
  deriving DecidableEq, Repr

inductive ResourceOperationStatus where
  | pending
  | blocked
  | applied
  | superseded
  deriving DecidableEq, Repr

structure ResourceSessionSettings where
  model : Option String
  provider : Option String
  thinking : Option String
  permissionGate : Bool
  bypass : Bool
  deriving DecidableEq, Repr

def ResourceSessionSettings.default : ResourceSessionSettings := ⟨none, none, none, false, false⟩

structure ResourceSettingsCapture where
  settings : ResourceSessionSettings
  capturedAtMs : UInt64
  hostId : String
  deriving DecidableEq, Repr

/-- What a native host says of its resources; everything else is read from the body. -/
structure ResourceObservation where
  generation : String
  sessionId : String
  binding : NativeBinding
  body : Value

structure ResourceOperation where
  request : ApplyResourcesRequest
  transition : ResourceTransition
  restoreSettings : Option ResourceSessionSettings
  status : ResourceOperationStatus
  resultRevision : Option UInt64
  observation : Option ResourceObservation
  error : Option String

structure ResourceConfiguration where
  selection : ResourceSelection
  revision : UInt64
  settings : ResourceSessionSettings
  currentSettings : Option ResourceSettingsCapture
  observation : Option ResourceObservation
  operations : List ResourceOperation

def ResourceTransition.encode (t : ResourceTransition) : Value :=
  .object [("version", number32 t.version), ("operation_id", .string t.operationId),
    ("expected", t.expected.encode), ("target", t.target.encode)]

def ApplyResourcesRequest.encode (r : ApplyResourcesRequest) : Value :=
  .object ([("expected_revision", number r.expectedRevision),
    ("operation_id", .string r.operationId), ("target", r.target.encode)] ++
    skipNone "supersedes_operation_id" .string r.supersedesOperationId)

def ResourceOperationStatus.name : ResourceOperationStatus → String
  | .pending => "pending"
  | .blocked => "blocked"
  | .applied => "applied"
  | .superseded => "superseded"

def ResourceSessionSettings.encode (s : ResourceSessionSettings) : Value :=
  .object [("model", nullable .string s.model), ("provider", nullable .string s.provider),
    ("thinking", nullable .string s.thinking), ("permission_gate", .bool s.permissionGate),
    ("bypass", .bool s.bypass)]

def ResourceSettingsCapture.encode (c : ResourceSettingsCapture) : Value :=
  .object [("settings", c.settings.encode), ("captured_at_ms", number c.capturedAtMs),
    ("host_id", .string c.hostId)]

def ResourceObservation.encode (o : ResourceObservation) : Value :=
  .object [("generation", .string o.generation), ("session_id", .string o.sessionId),
    ("binding", o.binding.encode), ("body", o.body)]

def ResourceOperation.encode (op : ResourceOperation) : Value :=
  .object [("request", op.request.encode), ("transition", op.transition.encode),
    ("restore_settings", nullable ResourceSessionSettings.encode op.restoreSettings),
    ("status", .string op.status.name), ("result_revision", nullable number op.resultRevision),
    ("observation", nullable ResourceObservation.encode op.observation),
    ("error", nullable .string op.error)]

def ResourceConfiguration.encode (r : ResourceConfiguration) : Value :=
  .object [("selection", r.selection.encode), ("revision", number r.revision),
    ("settings", r.settings.encode),
    ("current_settings", nullable ResourceSettingsCapture.encode r.currentSettings),
    ("observation", nullable ResourceObservation.encode r.observation),
    ("operations", .array (r.operations.map ResourceOperation.encode))]

/-! ### Errors -/

inductive ResourceErrorKind where
  | invalidInput
  | unsupported
  | conflict
  | limitExceeded
  | unavailable
  | storage
  deriving DecidableEq, Repr

structure ResourceError where
  kind : ResourceErrorKind
  message : String
  deriving DecidableEq, Repr

namespace ResourceError

def unavailable (message : String) : ResourceError := ⟨.unavailable, message⟩

def conflict (message : String) : ResourceError := ⟨.conflict, message⟩

end ResourceError

open ResourceError

/-! ### Checks of the parts -/

def validateOperationId (id : String) : Except ResourceError Unit :=
  failIf (id = "" ∨ 128 < id.utf8ByteSize ∨
      ¬(id.toList.all (fun c => c.isAlphanum || c == '.' || c == '_' || c == '-') = true))
    ⟨.invalidInput, "invalid resource operation ID"⟩

def ResourceSelection.validate (s : ResourceSelection) : Except ResourceError Unit := do
  failIf (s.version ≠ 1) ⟨.unsupported, "unsupported exact resource version"⟩
  failIf (maxConfigBytes < s.encode.compactSize) ⟨.limitExceeded, "resource selection exceeds 64 KiB"⟩

def ApplyResourcesRequest.validate (r : ApplyResourcesRequest) : Except ResourceError Unit := do
  validateOperationId r.operationId
  r.target.validate
  match r.supersedesOperationId with
  | some prior =>
    validateOperationId prior
    failIf (prior = r.operationId) ⟨.invalidInput, "a new operation ID is required to supersede"⟩
  | none => .ok ()
  failIf (r.expectedRevision.toNat = 2 ^ 64 - 1)
    (conflict "application resource revision overflow")

/-- A digest in lower-case hexadecimal. -/
def digest (s : String) : Bool :=
  s.utf8ByteSize == 64 && s.toList.all fun c => ('0' ≤ c && c ≤ '9') || ('a' ≤ c && c ≤ 'f')

def ExpectedBinding.validate (b : ExpectedBinding) : Except ResourceError Unit :=
  failIf ((b.revision = 0 ∧ b.fingerprint.isSome = true) ∨
      (b.revision ≠ 0 ∧ b.fingerprint.any digest = false))
    (conflict "invalid expected native binding")

namespace ResourceObservation

def parse (body : Value) : Except ResourceError ResourceObservation := do
  failIf (maxStateBytes < body.compactSize) ⟨.limitExceeded, "resource state exceeds 256 KiB"⟩
  failIf ((body.index "version").asI64 ≠ some 1) ⟨.unsupported, "unsupported resource observation"⟩
  let short (s : String) : Bool := s != "" && decide (s.utf8ByteSize ≤ 256)
  let generation ← okOr ((body.index "hostId").asStr.filter short)
    (unavailable "missing native generation")
  let sessionId ← okOr ((body.index "sessionId").asStr.filter short)
    (unavailable "missing native session ID")
  let binding ← (NativeBinding.decode .value (body.index "binding")).mapError fun _ =>
    unavailable "invalid native resource binding"
  failIf (binding.revision = 0 ∨ binding.fingerprint.any digest = false)
    (unavailable "invalid exact native fingerprint")
  ["loadedSkills", "loadedExtensions", "registeredTools", "modelEffectiveTools"].forM fun field =>
    failIf ((body.index field).asArray = none) (unavailable ("missing native " ++ field))
  return { generation, sessionId, binding, body }

/-- A package of the project is the same with and without its scope. -/
def normalize (s : ResourceSelection) : ResourceSelection :=
  { s with mainPackage := s.mainPackage.map fun p =>
      if p.scope = some .project then { p with scope := none } else p }

def verify (o : ResourceObservation) (id : String) (selection : ResourceSelection) :
    Except ResourceError Unit := do
  let actual ← (ResourceSelection.decode .value (o.body.index "selection")).mapError fun _ =>
    unavailable "invalid observed declaration"
  failIf (o.sessionId ≠ id ∨ normalize actual ≠ normalize selection)
    (conflict "native loaded selection/session differs")
  let effective ← okOr (o.body.index "modelEffectiveTools").asArray
    (unavailable "invalid effective tools")
  match selection.tools with
  | .none => failIf (effective.isEmpty = false) (conflict "native widened exact none tools")
  | .only names =>
    let same := match effective.mapM Value.asStr with
      | some actual => actual.all names.contains && names.all actual.contains
      | none => false
    failIf (same = false ∨ effective.length ≠ names.length)
      (conflict "native effective tools differ from exact only selection")
  | .default => .ok ()

def validateRecord (o : ResourceObservation) : Except ResourceError Unit := do
  let parsed ← parse o.body
  failIf (o.generation ≠ parsed.generation ∨ o.binding ≠ parsed.binding ∨
    o.sessionId ≠ parsed.sessionId) (conflict "corrupt native observation association")

def expected (o : ResourceObservation) : ExpectedBinding :=
  ⟨o.binding.revision, o.binding.fingerprint⟩

end ResourceObservation

def ResourceSettingsCapture.check (c : ResourceSettingsCapture) : Except ResourceError Unit :=
  failIf (c.hostId = "" ∨ 256 < c.hostId.utf8ByteSize ∨ c.hostId.toList.any Rust.isControl = true)
    (conflict "invalid owned settings capture identity")

def ResourceSessionSettings.check (s : ResourceSessionSettings) : Except ResourceError Unit :=
  ([s.model, s.provider, s.thinking].filterMap id).forM fun value =>
    failIf (value = "" ∨ 4096 < value.utf8ByteSize ∨ value.toList.any Rust.isControl = true)
      (conflict "invalid persisted resource session settings")

/-! ### The ledger -/

/-- What the loop over the operations carries along. -/
structure LedgerScan where
  revision : UInt64
  ids : List String
  blocked : Bool
  nativeExpected : Option ExpectedBinding

/-- How an operation is associated with the one before it. -/
def checkSupersedes (prior : Option ResourceOperation) (op : ResourceOperation) :
    Except ResourceError Unit :=
  match op.request.supersedesOperationId with
  | some id =>
    failIf (prior.all (fun p => p.status != .superseded || p.request.operationId != id) = true)
      (conflict "invalid explicit resource supersede association")
  | none =>
    failIf (prior.any (fun p => p.status == .superseded) = true)
      (conflict "superseded operation lost its replacement identity")

def checkOperation (s : LedgerScan) (prior next : Option ResourceOperation)
    (op : ResourceOperation) : Except ResourceError LedgerScan := do
  op.request.validate
  op.transition.expected.validate
  failIf (s.blocked = true ∨ op.request.expectedRevision ≠ s.revision ∨
      op.request.operationId ∈ s.ids ∨ op.transition.operationId ≠ op.request.operationId ∨
      op.transition.target ≠ op.request.target ∨ op.transition.version ≠ 1)
    (conflict "corrupt resource operation identity/revision")
  failIf (op.error.any (fun e => decide (1024 < e.length)) = true)
    (conflict "oversized resource operation diagnostic")
  failIf (s.nativeExpected.any (fun expected => expected != op.transition.expected) = true)
    (conflict "resource ledger native CAS chain changed")
  checkSupersedes prior op
  let s := { s with
    ids := op.request.operationId :: s.ids
    nativeExpected := some op.transition.expected }
  match op.status with
  | .applied =>
    let revision ← okOr (Rust.checkedSucc s.revision) (conflict "application revision overflow")
    let observation ← okOr op.observation (conflict "applied operation lacks observation")
    observation.validateRecord
    observation.verify observation.sessionId op.request.target
    failIf (op.resultRevision ≠ some revision ∨ op.error.isSome = true ∨
        observation.binding.operationId ≠ some op.request.operationId ∨
        Rust.checkedSucc op.transition.expected.revision ≠ some observation.binding.revision)
      (conflict "corrupt applied native operation association")
    return { s with revision, nativeExpected := some observation.expected }
  | .superseded =>
    let next ← okOr next (conflict "terminal superseded operation lacks replacement")
    failIf (op.resultRevision.isSome = true ∨ op.observation.isSome = true ∨
        next.request.supersedesOperationId ≠ some op.request.operationId ∨
        next.transition.expected ≠ op.transition.expected ∨
        next.request.expectedRevision ≠ op.request.expectedRevision)
      (conflict "supersede changed native/application expectation or claimed success")
    return s
  | .pending | .blocked =>
    failIf (op.resultRevision.isSome = true ∨ op.observation.isSome = true)
      (conflict "unverified resource operation claims a result")
    return { s with blocked := true }

def checkOperations (s : LedgerScan) (prior : Option ResourceOperation) :
    List ResourceOperation → Except ResourceError LedgerScan
  | [] => .ok s
  | op :: ops => do
    let s ← checkOperation s prior ops.head? op
    checkOperations s (some op) ops

namespace ResourceConfiguration

/-- The binding that the first operation of a ledger without results expects. -/
def original (r : ResourceConfiguration) : Except ResourceError ExpectedBinding :=
  match r.observation with
  | some observation => .ok observation.expected
  | none =>
    if r.revision = 0 then .ok ⟨0, none⟩
    else .error (conflict "configured resource intent has no original native observation")

/-- The record is that of its last result, or else still the one its first operation expects. -/
def checkCurrent (r : ResourceConfiguration) : Except ResourceError Unit :=
  match r.operations.reverse.find? fun op => op.status == .applied with
  | some last =>
    failIf (r.selection ≠ last.request.target ∨
        r.observation.map ResourceObservation.binding ≠
          last.observation.map ResourceObservation.binding)
      (conflict "current resource record differs from applied binding")
  | none =>
    match r.operations with
    | first :: _ => do
      let original ← r.original
      failIf (first.transition.expected ≠ original)
        (conflict "resource intent changed its original native binding")
    | [] => .ok ()

def settingsOf (r : ResourceConfiguration) : List ResourceSessionSettings :=
  r.settings :: (r.currentSettings.toList.map ResourceSettingsCapture.settings ++
    r.operations.filterMap ResourceOperation.restoreSettings)

def checkObservation (r : ResourceConfiguration) : Except ResourceError Unit :=
  match r.observation with
  | some observation => do
    observation.validateRecord
    observation.verify observation.sessionId r.selection
  | none => .ok ()

def validate (r : ResourceConfiguration) : Except ResourceError Unit := do
  r.selection.validate
  failIf (maxOperations < r.operations.length ∨ recordCap < r.encode.compactSize)
    ⟨.limitExceeded, "resource record limit exceeded"⟩
  r.currentSettings.toList.forM ResourceSettingsCapture.check
  r.settingsOf.forM ResourceSessionSettings.check
  r.checkObservation
  let revision := (r.operations.head?.map fun op => op.request.expectedRevision).getD 1
  failIf (1 < revision) (conflict "resource ledger lost initial identities")
  let s ← checkOperations ⟨revision, [], false, none⟩ none r.operations
  failIf (r.revision ≠ s.revision) (conflict "corrupt application resource revision")
  r.checkCurrent

/-- Every observation of a record. -/
def observations (r : ResourceConfiguration) : List ResourceObservation :=
  r.observation.toList ++ r.operations.filterMap ResourceOperation.observation

def validateSession (r : ResourceConfiguration) (id : String) : Except ResourceError Unit := do
  r.validate
  r.observations.forM fun observation =>
    failIf (observation.sessionId ≠ id)
      (conflict "resource record belongs to a different native session")

def blocked (r : ResourceConfiguration) : Bool :=
  r.operations.any fun op => op.status == .pending || op.status == .blocked

end ResourceConfiguration

end Resource
