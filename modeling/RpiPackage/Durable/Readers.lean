import RpiPackage.Durable.Core

/-!
# The two readers of the journal

Both readers select the same records and replay them to the same state. They part in one place:
an enum can be written as an object with the variant as its one key, a string cannot, so a record
whose kind is such an object is sound for the one and malformed for the other.
-/

namespace Durable

open Json Serde AnchoredLog

/-! ### The kind of a record -/

def JournalRecord.withKind {κ κ' : Type} (record : JournalRecord κ) (kind : κ') :
    JournalRecord κ' :=
  ⟨record.format, record.version, kind, record.baseRevision, record.revision, record.baseEntryId,
    record.state, record.changes⟩

/-- Decoding a record is decoding it with its kind left as it was written, and then the kind. -/
lemma JournalRecord.decode_eq_ok {κ : Type} {kind : Decoder κ} {src : Source} {v : Value}
    {record : JournalRecord κ} :
    JournalRecord.decode kind src v = .ok record ↔ ∃ raw : JournalRecord Value,
      JournalRecord.decode (fun _ v => .ok v) src v = .ok raw ∧
        kind src raw.kind = .ok record.kind ∧ record = raw.withKind record.kind := by
  simp only [JournalRecord.decode, Result.bind_eq_ok, Result.pure_eq_ok, Except.ok.injEq]
  constructor
  · rintro ⟨f, hf, format, h₁, version, h₂, k, h₃, baseRevision, h₄, revision, h₅, baseEntryId, h₆,
      state, h₇, changes, h₈, rfl⟩
    obtain ⟨v, hv, hk⟩ := (f.required_eq_ok src "kind").mp h₃
    have hraw := (f.required_eq_ok src "kind" (d := fun _ v => .ok v)).mpr ⟨v, hv, rfl⟩
    exact ⟨_, ⟨f, hf, format, h₁, version, h₂, v, hraw, baseRevision, h₄, revision, h₅,
      baseEntryId, h₆, state, h₇, changes, h₈, rfl⟩, hk, rfl⟩
  · rintro ⟨raw, ⟨f, hf, format, h₁, version, h₂, v, h₃, baseRevision, h₄, revision, h₅,
      baseEntryId, h₆, state, h₇, changes, h₈, rfl⟩, hk, heq⟩
    obtain ⟨v', hv, hv'⟩ := (f.required_eq_ok src "kind").mp h₃
    obtain rfl := Except.ok.inj hv'
    have hkind := (f.required_eq_ok src "kind").mpr ⟨v', hv, hk⟩
    exact ⟨f, hf, format, h₁, version, h₂, record.kind, hkind, baseRevision, h₄, revision, h₅,
      baseEntryId, h₆, state, h₇, changes, h₈, heq.symm⟩

/-- The kind of a payload that decodes up to its kind. -/
def kindValue (data : Value) : Option Value :=
  match JournalRecord.decode (fun _ v => .ok v) .value data with
  | .ok record => some record.kind
  | .error _ => none

def writesKindAsObject (data : Value) : Bool :=
  match kindValue data with
  | some (.object _) => true
  | _ => false

lemma JournalKind.decode_eq_ok {src : Source} {v : Value} {kind : JournalKind}
    (hv : ∀ fields, v ≠ .object fields) :
    JournalKind.decode src v = .ok kind ↔ v = .string kind.name := by
  constructor
  · intro h
    cases v with
    | string s =>
      by_cases hs : s = "snapshot"
      · rw [hs] at h ⊢
        rw [← Except.ok.inj h]
        rfl
      · by_cases hd : s = "delta"
        · rw [hd] at h ⊢
          rw [← Except.ok.inj h]
          rfl
        · simp [JournalKind.decode, unitEnum, List.lookup_cons, beq_eq_false_iff_ne.mpr hs,
            beq_eq_false_iff_ne.mpr hd] at h
    | object fields => exact absurd rfl (hv fields)
    | null | bool | number | array => cases h
  · rintro rfl
    exact JournalKind.decode_name src kind

/-! ### Sound records -/

namespace Core

lemma checkKind_eq_ok {record : JournalRecord String} :
    checkKind record = .ok () ↔ ∃ kind : JournalKind, record.kind = kind.name ∧
      (kind = .snapshot → record.changes = none ∧
        ∃ state, record.state = some state ∧ state.revision = record.revision ∧ state.Valid) ∧
      (kind = .delta → record.state = none ∧ ∃ changes, record.changes = some changes ∧
        changes ≠ []) := by
  unfold checkKind
  split
  · rename_i hkind
    rw [hkind]
    constructor
    · intro h
      refine ⟨.snapshot, rfl, fun _ => ?_, nofun⟩
      revert h
      unfold checkSnapshot
      cases record.state <;> cases record.changes <;> simp [validateState_eq_ok]
    · rintro ⟨kind, hname, h, -⟩
      cases kind with
      | delta => exact absurd hname (by decide)
      | snapshot =>
        obtain ⟨hchanges, state, hstate, hrevision, hvalid⟩ := h rfl
        simp [checkSnapshot, hchanges, hstate, hrevision, validateState_eq_ok.mpr hvalid]
  · rename_i hkind
    rw [hkind]
    constructor
    · intro h
      refine ⟨.delta, rfl, nofun, fun _ => ?_⟩
      revert h
      unfold checkDelta
      cases record.state <;> cases record.changes <;> simp
    · rintro ⟨kind, hname, -, h⟩
      cases kind with
      | snapshot => exact absurd hname (by decide)
      | delta =>
        obtain ⟨hstate, changes, hchanges, hne⟩ := h rfl
        simp [checkDelta, hstate, hchanges, hne]
  · rename_i hsnapshot hdelta
    constructor
    · nofun
    · rintro ⟨kind, hname, -⟩
      cases kind with
      | snapshot => exact absurd hname hsnapshot
      | delta => exact absurd hname hdelta

lemma parseRecord_eq_ok {entryId : String} {data : Value} {branch : BranchRecord String} :
    parseRecord entryId data = .ok branch ↔
      JournalRecord.decode string .value data = .ok branch.record ∧
        (∃ kind : JournalKind, branch.record.kind = kind.name ∧
          (branch.record.withKind kind).WellFormed) ∧ branch.entryId = entryId := by
  simp only [parseRecord, Result.bind_eq_ok, Result.mapError_eq_ok, Result.throw_eq_error,
    Result.error_bind, Result.ite_error_eq_ok, Bool.not_eq_true, UInt64.not_lt]
  constructor
  · rintro ⟨record, hdecode, hformat, hforward, ⟨⟩, hkind, h⟩
    obtain rfl := Except.ok.inj h
    obtain ⟨kind, hname, hsnapshot, hdelta⟩ := checkKind_eq_ok.mp hkind
    exact ⟨hdecode, ⟨kind, hname, ⟨hformat, hforward, hsnapshot, hdelta⟩⟩, rfl⟩
  · rintro ⟨hdecode, ⟨kind, hname, hformat, hforward, hsnapshot, hdelta⟩, rfl⟩
    exact ⟨_, hdecode, hformat, hforward, (), checkKind_eq_ok.mpr ⟨kind, hname, hsnapshot, hdelta⟩,
      rfl⟩

end Core

/-! ### The records of the two readers -/

/-- A record of `rpi-durable` as `rpi-durable-core` holds it. -/
def BranchRecord.named (branch : BranchRecord JournalKind) : BranchRecord String :=
  ⟨branch.record.withKind branch.record.kind.name, branch.entryId⟩

/-- The core reader accepts the records whose kind is not written as an object. -/
lemma core_parseRecord_eq_ok {entryId : String} {data : Value} {branch : BranchRecord String} :
    Core.parseRecord entryId data = .ok branch ↔ ∃ b, parseRecord entryId data = .ok b ∧
      branch = b.named ∧ writesKindAsObject data = false := by
  rw [Core.parseRecord_eq_ok]
  constructor
  · rintro ⟨hdecode, ⟨kind, hname, hsound⟩, hid⟩
    obtain ⟨raw, hraw, hstring, heq⟩ := JournalRecord.decode_eq_ok.mp hdecode
    rw [string_eq_ok, hname] at hstring
    have hkind : JournalKind.decode .value raw.kind = .ok kind := by
      rw [hstring]
      exact JournalKind.decode_name .value kind
    have hrecord : branch.record.withKind kind = raw.withKind kind := by
      rw [heq]
      rfl
    refine ⟨⟨raw.withKind kind, entryId⟩, parseRecord_eq_ok.mpr ⟨?_, hrecord ▸ hsound, rfl⟩, ?_, ?_⟩
    · exact JournalRecord.decode_eq_ok.mpr ⟨raw, hraw, hkind, rfl⟩
    · rw [hname] at heq
      rw [BranchRecord.named, ← hid]
      exact congrArg (fun r => (⟨r, branch.entryId⟩ : BranchRecord String)) heq
    · simp [writesKindAsObject, kindValue, hraw, hstring]
  · rintro ⟨b, hb, rfl, hobject⟩
    obtain ⟨hdecode, hsound, hid⟩ := parseRecord_eq_ok.mp hb
    obtain ⟨raw, hraw, hkind, heq⟩ := JournalRecord.decode_eq_ok.mp hdecode
    have hnot : ∀ fields, raw.kind ≠ .object fields := by
      intro fields hfields
      simp [writesKindAsObject, kindValue, hraw, hfields] at hobject
    rw [JournalKind.decode_eq_ok hnot] at hkind
    refine ⟨JournalRecord.decode_eq_ok.mpr ⟨raw, hraw, string_eq_ok.mpr hkind, ?_⟩,
      ⟨b.record.kind, rfl, hsound⟩, hid⟩
    rw [BranchRecord.named, heq]
    rfl

/-! ### The replays -/

/-- Which validation the interpreter of changes runs makes no difference to what it accepts. -/
lemma foldlM_applyChange_eq_ok {changes : List JournalChange} {state next : DurableState} :
    changes.foldlM Core.applyChange state = .ok next ↔ changes.foldlM applyChange state = .ok next := by
  induction changes generalizing state with
  | nil => simp
  | cons change changes ih =>
    have hone : ∀ mid, Core.applyChange state change = .ok mid ↔
        applyChange state change = .ok mid := by
      intro mid
      simp only [Core.applyChange, applyChange, applyChangeWith, Result.bind_eq_ok,
        Result.exists_punit, Core.validateState_eq_ok, validateState_eq_ok]
    simp only [List.foldlM_cons, Result.bind_eq_ok, hone, ih]

lemma DurableState.valid_withRevision {state : DurableState} {revision : UInt64} :
    ({ state with revision } : DurableState).Valid ↔ state.Valid :=
  ⟨fun h => ⟨h.workflow, h.run, h.queue⟩, fun h => ⟨h.workflow, h.run, h.queue⟩⟩

/-- The two steps demand the same, and arrive at the same state and anchor. -/
lemma core_replayDelta_eq_ok {r r' : DurableState × String} {branch : BranchRecord String} :
    Core.replayDelta r branch = .ok r' ↔ branch.record.baseRevision = r.1.revision ∧
      branch.record.baseEntryId = some r.2 ∧
      branch.record.revision.toNat = r.1.revision.toNat + 1 ∧
      ∃ changes next, branch.record.changes = some changes ∧
        changes.foldlM applyChange r.1 = .ok next ∧ next.Valid ∧
        r' = ({ next with revision := branch.record.revision }, branch.entryId) := by
  simp only [Core.replayDelta, Result.throw_eq_error, Result.error_bind, Result.ite_error_eq_ok,
    Bool.or_eq_true, decide_eq_true_eq, not_or, ne_eq, not_not, ← Rust.checkedSucc_eq_some]
  cases hsucc : Rust.checkedSucc r.1.revision with
  | none => simp
  | some revision =>
    cases hchanges : branch.record.changes with
    | none => simp
    | some changes =>
      simp only [Result.ite_error_eq_ok, not_not, Result.bind_eq_ok, Option.some.injEq,
        foldlM_applyChange_eq_ok, Result.exists_punit, Core.validateState_eq_ok,
        DurableState.valid_withRevision]
      constructor
      · rintro ⟨⟨h₁, h₂⟩, h₃, next, hfold, hvalid, h⟩
        exact ⟨h₁, h₂, h₃.symm, changes, next, rfl, hfold, hvalid, (Except.ok.inj h).symm⟩
      · rintro ⟨h₁, h₂, h₃, _, next, rfl, hfold, hvalid, rfl⟩
        exact ⟨⟨h₁, h₂⟩, h₃.symm, next, hfold, hvalid, rfl⟩

lemma core_replayDelta_named {branch : BranchRecord JournalKind} (hsound : branch.record.WellFormed)
    (hkind : branch.record.kind = .delta) {state state' : DurableState} {anchor anchor' : String}
    {n : UInt64} :
    Core.replayDelta (state, anchor) branch.named = .ok (state', anchor') ↔
      ∃ n', replayDelta ⟨state, some anchor, n⟩ branch = .ok ⟨state', some anchor', n'⟩ := by
  obtain ⟨hnone, changes, hchanges, hne⟩ := hsound.delta hkind
  have hstate := recordState_delta hkind hnone hchanges hne state
  simp only [core_replayDelta_eq_ok, replayDelta_eq_ok, BranchRecord.named,
    JournalRecord.withKind, hkind, hchanges, true_and, applyRecord_eq_ok, hsound.format, hstate,
    Result.map_eq_ok]
  constructor
  · rintro ⟨h₁, h₂, h₃, _, next, ⟨⟩, hfold, hvalid, heq⟩
    obtain ⟨rfl, rfl⟩ := Prod.mk.inj heq
    exact ⟨_, h₁, h₂, h₃, _, ⟨⟨next, hfold, rfl⟩, rfl, DurableState.valid_withRevision.mpr hvalid⟩,
      rfl⟩
  · rintro ⟨n', h₁, h₂, h₃, restored, ⟨⟨next, hfold, rfl⟩, -, hvalid⟩, heq⟩
    obtain ⟨rfl, hid, -⟩ := Replay.mk.inj heq
    obtain rfl := Option.some.inj hid
    exact ⟨h₁, h₂, h₃, changes, next, rfl, hfold, DurableState.valid_withRevision.mp hvalid, rfl⟩

/-- A suffix of sound deltas, by induction on it. -/
lemma core_foldlM_named {rest : List (BranchRecord JournalKind)}
    (hrest : ∀ b ∈ rest, b.record.WellFormed ∧ b.record.kind = .delta) {state final : DurableState}
    {anchor : String} (n : UInt64) :
    (∃ anchor', (rest.map BranchRecord.named).foldlM Core.replayDelta (state, anchor) =
        .ok (final, anchor')) ↔
      ∃ r, rest.foldlM replayDelta ⟨state, some anchor, n⟩ = .ok r ∧ r.restored = final := by
  induction rest generalizing state anchor n with
  | nil => simp
  | cons b rest ih =>
    obtain ⟨hsound, hkind⟩ := hrest b List.mem_cons_self
    have hrest' := fun b' hb' => hrest b' (List.mem_cons_of_mem b hb')
    simp only [List.map_cons, List.foldlM_cons, Result.bind_eq_ok]
    constructor
    · rintro ⟨anchor', ⟨state₁, anchor₁⟩, hstep, hfold⟩
      obtain ⟨n', hstep⟩ := (core_replayDelta_named hsound hkind (n := n)).mp hstep
      obtain ⟨r, hr, hfinal⟩ := (ih hrest' n').mp ⟨anchor', hfold⟩
      exact ⟨r, ⟨_, hstep, hr⟩, hfinal⟩
    · rintro ⟨r, ⟨mid, hstep, hfold⟩, hfinal⟩
      obtain ⟨-, -, -, -, restored, -, rfl⟩ := replayDelta_eq_ok.mp hstep
      have hstep' := (core_replayDelta_named hsound hkind).mpr ⟨_, hstep⟩
      obtain ⟨anchor', hfold'⟩ := (ih hrest' _).mpr ⟨r, hfold, hfinal⟩
      exact ⟨anchor', _, hstep', hfold'⟩

/-! ### The readings -/

/-- Sound records after a snapshot that are no snapshots themselves. -/
lemma delta_of_not_snapshot {b : BranchRecord JournalKind} (h : isSnapshot b = false) :
    b.record.kind = .delta := by
  unfold isSnapshot at h
  cases hkind : b.record.kind with
  | snapshot => simp [hkind] at h
  | delta => rfl

lemma isSnapshot_named (b : BranchRecord JournalKind) : Core.isSnapshot b.named = isSnapshot b := by
  cases hkind : b.record.kind <;>
    simp [Core.isSnapshot, isSnapshot, BranchRecord.named, JournalRecord.withKind, hkind,
      JournalKind.name]

/-- From a sound snapshot on, the two replays agree. -/
lemma core_replayRecords_named {base : BranchRecord JournalKind}
    {suffix : List (BranchRecord JournalKind)} (hbase : base.record.WellFormed)
    (hkind : base.record.kind = .snapshot)
    (hsuffix : ∀ b ∈ suffix, b.record.WellFormed ∧ b.record.kind = .delta) {state : DurableState} :
    Core.replayRecords ((base :: suffix).map BranchRecord.named) = .ok (some state) ↔
      ∃ journalMeta, replayRecords (base :: suffix) = .ok (state, journalMeta) := by
  obtain ⟨hchanges, start, hstart, hrevision, hvalid⟩ := hbase.snapshot hkind
  have happly : applyRecord DurableState.default base.record = .ok start :=
    applyRecord_eq_ok.mpr
      ⟨hbase.format, recordState_snapshot hkind hstart hchanges _, hrevision, hvalid⟩
  have hname : (base :: suffix).map BranchRecord.named =
      base.named :: suffix.map BranchRecord.named := rfl
  have hkind' : base.named.record.kind = "snapshot" := by
    simp [BranchRecord.named, JournalRecord.withKind, hkind, JournalKind.name]
  have hstart' : base.named.record.state = some start := hstart
  have hcore : Core.replayRecords ((base :: suffix).map BranchRecord.named) = .ok (some state) ↔
      ∃ anchor, (suffix.map BranchRecord.named).foldlM Core.replayDelta (start, base.entryId) =
        .ok (state, anchor) := by
    simp only [hname, Core.replayRecords, hkind', hstart', ne_eq, not_true_eq_false, if_false,
      Result.bind_eq_ok, Except.ok.injEq, Option.some.injEq, Prod.exists]
    constructor
    · rintro ⟨_, anchor, h, rfl⟩
      exact ⟨anchor, h⟩
    · rintro ⟨anchor, h⟩
      exact ⟨state, anchor, h, rfl⟩
  rw [hcore, core_foldlM_named hsuffix 0]
  simp only [replayRecords, replayBase, hkind, ne_eq, not_true_eq_false, if_false, happly,
    Result.ok_bind, validateState_eq_ok.mpr hvalid, List.drop_succ_cons, List.drop_zero,
    Result.bind_eq_ok, Except.ok.injEq, Prod.mk.injEq]
  constructor
  · rintro ⟨r, hr, rfl⟩
    exact ⟨_, r, hr, rfl, rfl⟩
  · rintro ⟨_, r, hr, rfl, -⟩
    exact ⟨r, hr, rfl⟩

/-- Without a snapshot nothing but the empty journal is read. -/
lemma replayRecords_no_snapshot {records : List (BranchRecord JournalKind)}
    (hnone : ∀ b ∈ records, isSnapshot b = false) {r : DurableState × JournalMeta}
    (h : replayRecords records = .ok r) : records = [] := by
  cases records with
  | nil => rfl
  | cons b records =>
    have hkind := delta_of_not_snapshot (hnone b List.mem_cons_self)
    simp [replayRecords, replayBase, hkind] at h

lemma core_replayRecords_no_snapshot {records : List (BranchRecord String)}
    (hnone : ∀ b ∈ records, Core.isSnapshot b = false) {r : Option DurableState}
    (h : Core.replayRecords records = .ok r) : records = [] := by
  cases records with
  | nil => rfl
  | cons b records =>
    have hkind := hnone b List.mem_cons_self
    simp only [Core.isSnapshot, beq_eq_false_iff_ne] at hkind
    simp [Core.replayRecords, hkind] at h

lemma core_replayRecords_some {base : BranchRecord String} {rest : List (BranchRecord String)}
    {r : Option DurableState} (h : Core.replayRecords (base :: rest) = .ok r) :
    ∃ state, r = some state := by
  rw [Core.replayRecords, Result.ite_error_eq_ok] at h
  obtain ⟨-, h⟩ := h
  split at h
  · cases h
  · obtain ⟨r', -, h⟩ := Result.bind_eq_ok.mp h
    exact ⟨_, (Except.ok.inj h).symm⟩

/-- Payloads that the core reader parses, one by one. -/
lemma map_core_parseRecord {payloads : List (String × Value)}
    {records : List (BranchRecord String)} :
    payloads.map (fun p => Core.parseRecord p.1 p.2) = records.map .ok ↔
      ∃ bs : List (BranchRecord JournalKind),
        payloads.map (fun p => parseRecord p.1 p.2) = bs.map .ok ∧
        records = bs.map BranchRecord.named ∧ ∀ p ∈ payloads, writesKindAsObject p.2 = false := by
  induction payloads generalizing records with
  | nil =>
    constructor
    · intro h
      obtain rfl := List.map_eq_nil_iff.mp h.symm
      exact ⟨[], rfl, rfl, nofun⟩
    · rintro ⟨bs, hbs, rfl, -⟩
      obtain rfl := List.map_eq_nil_iff.mp hbs.symm
      rfl
  | cons p payloads ih =>
    rw [List.map_cons, List.map_cons]
    constructor
    · intro h
      obtain ⟨c, records', rfl, hc, hrest⟩ := List.map_eq_cons_iff.mp h.symm
      obtain ⟨b, hb, rfl, hobject⟩ := core_parseRecord_eq_ok.mp hc.symm
      obtain ⟨bs, hbs, rfl, hall⟩ := ih.mp hrest.symm
      exact ⟨b :: bs, by rw [hb, hbs]; rfl, rfl, List.forall_mem_cons.mpr ⟨hobject, hall⟩⟩
    · rintro ⟨bs, hbs, rfl, hall⟩
      obtain ⟨hobject, hall⟩ := List.forall_mem_cons.mp hall
      obtain ⟨b, bs', rfl, hb, hrest⟩ := List.map_eq_cons_iff.mp hbs.symm
      rw [core_parseRecord_eq_ok.mpr ⟨b, hb.symm, rfl, hobject⟩,
        ih.mpr ⟨bs', hrest.symm, rfl, hall⟩]
      rfl

/-- A sound snapshot among some payloads. -/
def holdsSnapshot (p : String × Value) : Prop :=
  ∃ b, parseRecord p.1 p.2 = .ok b ∧ isSnapshot b = true

/-- The payloads whose kind is an object may only lie before the newest snapshot. -/
def ObjectsSuperseded (payloads : List (String × Value)) : Prop :=
  ∀ before p after, payloads = before ++ p :: after → writesKindAsObject p.2 = true →
    ∃ q ∈ after, holdsSnapshot q

lemma objectsSuperseded_of_split {before after : List (String × Value)} {p : String × Value}
    (hp : holdsSnapshot p) (hobject : writesKindAsObject p.2 = false)
    (hafter : ∀ q ∈ after, writesKindAsObject q.2 = false) :
    ObjectsSuperseded (before ++ p :: after) := by
  intro before' q after' heq hq
  rcases List.append_eq_append_iff.mp heq with ⟨mid, -, heq⟩ | ⟨mid, -, heq⟩
  · have hmem : q ∈ p :: after := heq ▸ List.mem_append_right _ List.mem_cons_self
    rcases List.mem_cons.mp hmem with rfl | hmem
    · simp [hq] at hobject
    · simp [hafter q hmem] at hq
  · cases mid with
    | nil =>
      obtain ⟨rfl, -⟩ := List.cons.inj heq
      simp [hq] at hobject
    | cons q' mid =>
      obtain ⟨-, rfl⟩ := List.cons.inj heq
      exact ⟨p, by simp, hp⟩

lemma ObjectsSuperseded.not_object {before after : List (String × Value)} {p : String × Value}
    (h : ObjectsSuperseded (before ++ p :: after)) (hafter : ∀ q ∈ after, ¬holdsSnapshot q) :
    ∀ q ∈ p :: after, writesKindAsObject q.2 = false := by
  intro q hq
  by_contra hobject
  rw [Bool.not_eq_false] at hobject
  obtain ⟨l, r, heq⟩ := List.append_of_mem hq
  obtain ⟨s, hs, hsnapshot⟩ := h (before ++ l) q r (by rw [heq, List.append_assoc]) hobject
  have hmem : s ∈ after := by
    cases l with
    | nil =>
      obtain ⟨-, rfl⟩ := List.cons.inj heq
      exact hs
    | cons _ l =>
      obtain ⟨-, rfl⟩ := List.cons.inj heq
      exact List.mem_append_right _ (List.mem_cons_of_mem _ hs)
  exact hafter s hmem hsnapshot

/-- A list of records that `map`s to the parse of some payloads holds their parses. -/
lemma exists_parse_of_mem {payloads : List (String × Value)} {bs : List (BranchRecord JournalKind)}
    (h : payloads.map (fun p => parseRecord p.1 p.2) = bs.map .ok) :
    (∀ p ∈ payloads, ∃ b ∈ bs, parseRecord p.1 p.2 = .ok b) ∧
      ∀ b ∈ bs, ∃ p ∈ payloads, parseRecord p.1 p.2 = .ok b := by
  constructor
  · intro p hp
    have hmem : parseRecord p.1 p.2 ∈ bs.map Except.ok := h ▸ List.mem_map_of_mem hp
    obtain ⟨b, hb, heq⟩ := List.mem_map.mp hmem
    exact ⟨b, hb, heq.symm⟩
  · intro b hb
    have hmem : (.ok b : Except String _) ∈ payloads.map fun p => parseRecord p.1 p.2 :=
      h ▸ List.mem_map_of_mem hb
    exact List.mem_map.mp hmem

lemma wellFormed_of_map_parse {payloads : List (String × Value)}
    {bs : List (BranchRecord JournalKind)}
    (h : payloads.map (fun p => parseRecord p.1 p.2) = bs.map .ok)
    (hbs : ∀ b ∈ bs, isSnapshot b = false) :
    ∀ b ∈ bs, b.record.WellFormed ∧ b.record.kind = .delta := by
  intro b hb
  obtain ⟨p, -, hp⟩ := (exists_parse_of_mem h).2 b hb
  exact ⟨(parseRecord_eq_ok.mp hp).2.1, delta_of_not_snapshot (hbs b hb)⟩

/-- What the core reader makes of some payloads, `rpi-durable` makes of them as well. -/
lemma reads_of_core_reads {payloads : List (String × Value)} {records : List (BranchRecord String)}
    {r : Option DurableState}
    (hselect : select Core.isSnapshot (payloads.map fun p => Core.parseRecord p.1 p.2) =
      .ok records) (hreplay : Core.replayRecords records = .ok r) :
    (∃ records, select isSnapshot (payloads.map fun p => parseRecord p.1 p.2) = .ok records ∧
        ∃ journalMeta, replayRecords records = .ok (r.getD .default, journalMeta)) ∧
      ObjectsSuperseded payloads := by
  rcases (select_eq_ok _).mp hselect with ⟨left, c, suffix, heq, hc, hsuffix, rfl⟩ | ⟨heq, hnone⟩
  · obtain ⟨before, rest, rfl, -, hrest⟩ := List.map_eq_append_iff.mp heq
    obtain ⟨p, after, rfl, hp, hafter⟩ := List.map_eq_cons_iff.mp hrest
    obtain ⟨b, hb, rfl, hobject⟩ := core_parseRecord_eq_ok.mp hp
    obtain ⟨bs, hbs, rfl, hall⟩ := map_core_parseRecord.mp hafter
    rw [isSnapshot_named] at hc
    have hsuffix' : ∀ b ∈ bs, isSnapshot b = false := by
      intro b hb
      rw [← isSnapshot_named]
      exact hsuffix _ (List.mem_map_of_mem hb)
    have hkind : b.record.kind = .snapshot := by simpa [isSnapshot] using hc
    obtain ⟨state, rfl⟩ := core_replayRecords_some hreplay
    obtain ⟨journalMeta, hmeta⟩ := (core_replayRecords_named (parseRecord_eq_ok.mp hb).2.1 hkind
      (wellFormed_of_map_parse hbs hsuffix')).mp hreplay
    refine ⟨⟨b :: bs, (select_eq_ok _).mpr (.inl ?_), journalMeta, hmeta⟩,
      objectsSuperseded_of_split ⟨b, hb, hc⟩ hobject hall⟩
    exact ⟨before.map fun p => parseRecord p.1 p.2, b, bs, by simp [hb, hbs], hc, hsuffix', rfl⟩
  · obtain rfl := core_replayRecords_no_snapshot hnone hreplay
    obtain rfl := List.map_eq_nil_iff.mp heq
    obtain rfl := Except.ok.inj hreplay
    exact ⟨⟨[], rfl, _, rfl⟩, fun before p after h => by simp at h⟩

lemma core_reads_of_reads {payloads : List (String × Value)}
    {records : List (BranchRecord JournalKind)} {state : DurableState} {journalMeta : JournalMeta}
    (hselect : select isSnapshot (payloads.map fun p => parseRecord p.1 p.2) = .ok records)
    (hreplay : replayRecords records = .ok (state, journalMeta))
    (hobjects : ObjectsSuperseded payloads) :
    ∃ records, select Core.isSnapshot (payloads.map fun p => Core.parseRecord p.1 p.2) =
      .ok records ∧ ∃ r, Core.replayRecords records = .ok r ∧ r.getD .default = state := by
  rcases (select_eq_ok _).mp hselect with ⟨left, b, suffix, heq, hb, hsuffix, rfl⟩ | ⟨heq, hnone⟩
  · obtain ⟨before, rest, rfl, -, hrest⟩ := List.map_eq_append_iff.mp heq
    obtain ⟨p, after, rfl, hp, hafter⟩ := List.map_eq_cons_iff.mp hrest
    have hkind : b.record.kind = .snapshot := by simpa [isSnapshot] using hb
    have hnosnapshot : ∀ q ∈ after, ¬holdsSnapshot q := by
      rintro q hq ⟨c, hc, hsnapshot⟩
      obtain ⟨c', hc', hparse⟩ := (exists_parse_of_mem hafter).1 q hq
      obtain rfl := Except.ok.inj (hc.symm.trans hparse)
      simp [hsuffix c hc'] at hsnapshot
    have hstrings := hobjects.not_object hnosnapshot
    have hp' := core_parseRecord_eq_ok.mpr ⟨b, hp, rfl, hstrings p List.mem_cons_self⟩
    have hafter' := map_core_parseRecord.mpr
      ⟨suffix, hafter, rfl, fun q hq => hstrings q (List.mem_cons_of_mem _ hq)⟩
    have hcore := (core_replayRecords_named (parseRecord_eq_ok.mp hp).2.1 hkind
      (wellFormed_of_map_parse hafter hsuffix)).mpr ⟨journalMeta, hreplay⟩
    refine ⟨_, (select_eq_ok _).mpr (.inl ?_), _, hcore, rfl⟩
    refine ⟨before.map fun p => Core.parseRecord p.1 p.2, b.named, suffix.map .named,
      by simp [hp', hafter'], by rw [isSnapshot_named, hb], ?_, rfl⟩
    intro c hc
    obtain ⟨b', hb', rfl⟩ := List.mem_map.mp hc
    rw [isSnapshot_named]
    exact hsuffix b' hb'
  · obtain rfl := replayRecords_no_snapshot hnone hreplay
    obtain rfl := List.map_eq_nil_iff.mp heq
    obtain ⟨rfl, -⟩ := Prod.mk.inj (Except.ok.inj (replayRecords_nil.symm.trans hreplay))
    exact ⟨[], rfl, none, rfl, rfl⟩

/-! ### The readers on the entries of a branch -/

def writesObjectKind (entry : Value) : Bool := (entry.get "data").any writesKindAsObject

/-- An entry that holds a sound snapshot. -/
def snapshotEntry (entry : Value) : Bool :=
  match branchEnvelope entry with
  | .error _ => false
  | .ok (entryId, data) =>
    match parseRecord entryId data with
    | .ok branch => isSnapshot branch
    | .error _ => false

lemma writesObjectKind_eq {entry : Value} {p : String × Value} (h : branchEnvelope entry = .ok p) :
    writesObjectKind entry = writesKindAsObject p.2 := by
  unfold branchEnvelope at h
  rw [Result.ite_error_eq_ok] at h
  obtain ⟨-, h⟩ := h
  split at h
  · cases h
  split at h
  · cases h
  rename_i data hdata
  obtain rfl := Except.ok.inj h
  simp [writesObjectKind, hdata]

lemma snapshotEntry_iff {entry : Value} {p : String × Value} (h : branchEnvelope entry = .ok p) :
    snapshotEntry entry = true ↔ holdsSnapshot p := by
  simp only [snapshotEntry, h, holdsSnapshot]
  cases parseRecord p.1 p.2 <;> simp

lemma objectsSuperseded_iff {entries : List Value} {payloads : List (String × Value)}
    (h : entries.mapM branchEnvelope = .ok payloads) :
    ObjectsSuperseded payloads ↔ ∀ before entry after, entries = before ++ entry :: after →
      writesObjectKind entry = true → ∃ later ∈ after, snapshotEntry later = true := by
  constructor
  · rintro hobjects before entry after rfl hentry
    obtain ⟨ps₁, rest, -, hrest, rfl⟩ := Result.mapM_append_eq_ok.mp h
    obtain ⟨p, ps₂, hp, hps₂, rfl⟩ := Result.mapM_cons_eq_ok.mp hrest
    obtain ⟨q, hq, hsnapshot⟩ := hobjects ps₁ p ps₂ rfl (writesObjectKind_eq hp ▸ hentry)
    obtain ⟨later, hlater, heq⟩ := (Result.mem_of_mapM_eq_ok hps₂).2 q hq
    exact ⟨later, hlater, (snapshotEntry_iff heq).mpr hsnapshot⟩
  · rintro hobjects ps₁ p ps₂ rfl hp
    obtain ⟨before, entry, after, rfl, hentry, hafter⟩ := Result.mapM_eq_ok_append h
    obtain ⟨later, hlater, hsnapshot⟩ :=
      hobjects before entry after rfl (writesObjectKind_eq hentry ▸ hp)
    obtain ⟨q, hq, heq⟩ := (Result.mem_of_mapM_eq_ok hafter).1 later hlater
    exact ⟨q, hq, (snapshotEntry_iff heq).mp hsnapshot⟩

/-- The core reader accepts what `rpi-durable` accepts, with the same state, except where a record
that no later snapshot supersedes writes its kind as an object. -/
theorem tryFromBranch_eq_ok_iff (entries : List Value) (state : DurableState) :
    Core.tryFromBranch entries = .ok state ↔
      (∃ journalMeta, decodeBranch entries = .ok (state, journalMeta)) ∧
      ∀ before entry after, entries = before ++ entry :: after →
        writesObjectKind entry = true → ∃ later ∈ after, snapshotEntry later = true := by
  simp only [Core.tryFromBranch_eq_ok, decodeBranch_eq_ok, parseEntries_eq_ok]
  constructor
  · rintro ⟨log, records, ⟨payloads, hpayloads, rfl⟩, hselect, r, hreplay, rfl⟩
    obtain ⟨⟨records', hselect', journalMeta, hreplay'⟩, hobjects⟩ :=
      reads_of_core_reads hselect hreplay
    exact ⟨⟨journalMeta, _, records', ⟨payloads, hpayloads, rfl⟩, hselect', hreplay'⟩,
      (objectsSuperseded_iff hpayloads).mp hobjects⟩
  · rintro ⟨⟨journalMeta, log, records, ⟨payloads, hpayloads, rfl⟩, hselect, hreplay⟩, hobjects⟩
    obtain ⟨records', hselect', r, hreplay', hstate⟩ :=
      core_reads_of_reads hselect hreplay ((objectsSuperseded_iff hpayloads).mpr hobjects)
    exact ⟨_, records', ⟨payloads, hpayloads, rfl⟩, hselect', r, hreplay', hstate⟩

/-- A snapshot of the default state whose kind is written as an object. -/
def objectKindEntry : Value :=
  .object [("type", .string "custom"), ("id", .string "e1"), ("customType", .string "durable-state"),
    ("data", .object [("format", .string "rpi-durable-journal"), ("version", Serde.number 1),
      ("kind", .object [("snapshot", .null)]), ("baseRevision", Serde.number 0),
      ("revision", Serde.number 0), ("state", .object [])])]

theorem readers_disagree :
    ¬∀ (entries : List Value) (state : DurableState),
      (∃ journalMeta, decodeBranch entries = .ok (state, journalMeta)) ↔
        Core.tryFromBranch entries = .ok state := by
  intro h
  have hdurable : decodeBranch [objectKindEntry] = .ok (.default, ⟨some "e1", 0, false⟩) := rfl
  have hcore := (h [objectKindEntry] .default).mp ⟨_, hdurable⟩
  have herror : ∃ error, Core.tryFromBranch [objectKindEntry] = .error error := ⟨_, rfl⟩
  obtain ⟨error, herror⟩ := herror
  exact nomatch herror.symm.trans hcore

end Durable
