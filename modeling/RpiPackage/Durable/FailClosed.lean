import RpiPackage.Durable.Readers
import Mathlib.Data.List.Nodup

/-!
# Replay is anchored and fails closed

Replay starts at a sound snapshot whatever precedes it, and what follows it must be the exact
chain of deltas: their revisions are consecutive, so no delta can be left out, repeated or moved,
and nothing that does not decode may come in between.
-/

namespace Durable

namespace Core

open Json Serde AnchoredLog

/-- The record an entry holds. -/
def entryRecord (entry : Value) : Except String (BranchRecord String) := do
  let (id, data) ← branchEnvelope entry
  parseRecord id data

def HoldsSnapshot (entry : Value) : Prop :=
  ∃ b, entryRecord entry = .ok b ∧ isSnapshot b = true

def HoldsDelta (entry : Value) : Prop :=
  ∃ b, entryRecord entry = .ok b ∧ isSnapshot b = false

/-- A sound envelope around a payload that does not decode. -/
def HoldsMalformed (entry : Value) : Prop :=
  ∃ id data error, branchEnvelope entry = .ok (id, data) ∧ parseRecord id data = .error error

def Rejected (entries : List Value) : Prop := ∃ error, replayEntries entries = .error error

/-! ### Parsing -/

lemma parseEntries_cons (entry : Value) (entries : List Value) :
    parseEntries parseRecord (entry :: entries) = branchEnvelope entry >>= fun p =>
      (parseRecord p.1 p.2 :: ·) <$> parseEntries parseRecord entries := by
  unfold parseEntries
  rw [List.mapM_cons]
  rcases branchEnvelope entry with e | p
  · rfl
  · rfl

lemma parseEntries_append {before after : List Value}
    {log : List (Except String (BranchRecord String))}
    (h : parseEntries parseRecord before = .ok log) :
    parseEntries parseRecord (before ++ after) =
      (log ++ ·) <$> parseEntries parseRecord after := by
  unfold parseEntries at h ⊢
  rw [List.mapM_append, h]
  rfl

/-- The entries of a chain parse to their records. -/
lemma parseEntries_records {entries : List Value} (h : ∀ e ∈ entries, ∃ b, entryRecord e = .ok b) :
    ∃ bs, parseEntries parseRecord entries = .ok (bs.map .ok) ∧
      List.Forall₂ (fun e b => entryRecord e = .ok b) entries bs := by
  induction entries with
  | nil => exact ⟨[], rfl, .nil⟩
  | cons entry entries ih =>
    obtain ⟨b, hb⟩ := h entry List.mem_cons_self
    obtain ⟨bs, hbs, hforall⟩ := ih fun e he => h e (List.mem_cons_of_mem _ he)
    obtain ⟨⟨id, data⟩, henvelope, hparse⟩ := Result.bind_eq_ok.mp hb
    refine ⟨b :: bs, ?_, .cons hb hforall⟩
    have hparse : parseRecord id data = .ok b := hparse
    rw [parseEntries_cons, henvelope, hbs, Result.ok_bind, hparse]
    rfl

/-! ### The anchor -/

/-- Entries before a sound snapshot change nothing, whatever they hold. -/
lemma replayEntries_cut {before : List Value} {entry : Value}
    (hbefore : ∀ e ∈ before, ∃ p, branchEnvelope e = .ok p) (hentry : HoldsSnapshot entry)
    (after : List Value) :
    replayEntries (before ++ entry :: after) = replayEntries (entry :: after) := by
  obtain ⟨b, hb, hsnapshot⟩ := hentry
  obtain ⟨⟨id, data⟩, henvelope, hparse⟩ := Result.bind_eq_ok.mp hb
  have hlog : ∃ log, parseEntries parseRecord before = .ok log := by
    clear hb
    induction before with
    | nil => exact ⟨[], rfl⟩
    | cons e before ih =>
      obtain ⟨p, hp⟩ := hbefore e List.mem_cons_self
      obtain ⟨log, hlog⟩ := ih fun e he => hbefore e (List.mem_cons_of_mem _ he)
      exact ⟨parseRecord p.1 p.2 :: log, by rw [parseEntries_cons, hp, hlog]; rfl⟩
  obtain ⟨log, hlog⟩ := hlog
  have hcons : parseEntries parseRecord (entry :: after) =
      (.ok b :: ·) <$> parseEntries parseRecord after := by
    have hparse : parseRecord id data = .ok b := hparse
    rw [parseEntries_cons, henvelope, Result.ok_bind, hparse]
  rw [replayEntries_eq, replayEntries_eq, parseEntries_append hlog, hcons]
  rcases parseEntries parseRecord after with e | suffix
  · rfl
  · simp only [Result.map_ok, Result.ok_bind, select_append_of_base isSnapshot hsnapshot]

/-! ### The chain -/

/-- The revision an entry leads to. -/
def revisionOf (entry : Value) : Nat :=
  match entryRecord entry with
  | .ok b => b.record.revision.toNat
  | .error _ => 0

lemma foldlM_revisions {rest : List (BranchRecord String)} {r r' : DurableState × String}
    (h : rest.foldlM replayDelta r = .ok r') :
    rest.map (fun b => b.record.revision.toNat) =
      List.range' (r.1.revision.toNat + 1) rest.length := by
  induction rest generalizing r with
  | nil => rfl
  | cons b rest ih =>
    rw [List.foldlM_cons, Result.bind_eq_ok] at h
    obtain ⟨mid, hmid, h⟩ := h
    obtain ⟨-, -, hrevision, changes, next, -, -, -, rfl⟩ := core_replayDelta_eq_ok.mp hmid
    have hrest := ih h
    dsimp only at hrest
    rw [List.map_cons, List.length_cons, List.range'_succ, hrest, hrevision]

lemma not_snapshot_of_forall₂ {entries : List Value} {bs : List (BranchRecord String)}
    (hforall : List.Forall₂ (fun e b => entryRecord e = .ok b) entries bs)
    (hdeltas : ∀ e ∈ entries, HoldsDelta e) : ∀ b ∈ bs, isSnapshot b = false := by
  induction hforall with
  | nil => simp
  | @cons e b _ _ hb _ ih =>
    obtain ⟨b', hb', hdelta⟩ := hdeltas e List.mem_cons_self
    obtain rfl := Except.ok.inj (hb.symm.trans hb')
    exact List.forall_mem_cons.mpr ⟨hdelta, ih fun e he => hdeltas e (List.mem_cons_of_mem _ he)⟩

/-- A snapshot followed by deltas is replayed in full. -/
lemma replayEntries_deltas {base : Value} {deltas : List Value} {b : BranchRecord String}
    (hbase : entryRecord base = .ok b) (hsnapshot : isSnapshot b = true)
    (hdeltas : ∀ e ∈ deltas, HoldsDelta e) :
    ∃ bs, List.Forall₂ (fun e b => entryRecord e = .ok b) deltas bs ∧
      replayEntries (base :: deltas) = Option.map DurableState.encode <$> replayRecords (b :: bs) := by
  obtain ⟨bs, hparse, hforall⟩ := parseEntries_records fun e he =>
    (hdeltas e he).imp fun _ h => h.1
  refine ⟨bs, hforall, ?_⟩
  obtain ⟨⟨id, data⟩, henvelope, hb⟩ := Result.bind_eq_ok.mp hbase
  have hb : parseRecord id data = .ok b := hb
  have hnone := not_snapshot_of_forall₂ hforall hdeltas
  have hselect : select (ε := String) isSnapshot (.ok b :: bs.map .ok) = .ok (b :: bs) :=
    (select_eq_ok isSnapshot).mpr (.inl ⟨[], b, bs, rfl, hsnapshot, hnone, rfl⟩)
  rw [replayEntries_eq, parseEntries_cons, henvelope, Result.ok_bind, hparse, hb, Result.map_ok,
    Result.ok_bind, hselect, Result.ok_bind]

/-- The revisions of an accepted chain of deltas follow on the snapshot, one by one. -/
lemma revisions_of_accepted {base : Value} {deltas : List Value} {b : BranchRecord String}
    {value : Option Value} (hbase : entryRecord base = .ok b) (hsnapshot : isSnapshot b = true)
    (hdeltas : ∀ e ∈ deltas, HoldsDelta e) (h : replayEntries (base :: deltas) = .ok value) :
    deltas.map revisionOf = List.range' (b.record.revision.toNat + 1) deltas.length := by
  obtain ⟨bs, hforall, hreplay⟩ := replayEntries_deltas hbase hsnapshot hdeltas
  have hmap : deltas.map revisionOf = bs.map fun b => b.record.revision.toNat := by
    rw [← List.forall₂_eq_eq_eq, List.forall₂_map_left_iff, List.forall₂_map_right_iff]
    exact hforall.imp fun e b hb => by simp [revisionOf, hb]
  rw [hreplay, Result.map_eq_ok] at h
  obtain ⟨r, hr, -⟩ := h
  obtain ⟨⟨id, data⟩, -, hb⟩ := Result.bind_eq_ok.mp hbase
  obtain ⟨-, ⟨kind, hkind, hsound⟩, -⟩ := parseRecord_eq_ok.mp hb
  obtain rfl : kind = .snapshot := by
    cases kind with
    | snapshot => rfl
    | delta => simp [isSnapshot, hkind, JournalKind.name] at hsnapshot
  obtain ⟨-, state, hstate, hrevision, -⟩ := hsound.snapshot rfl
  have hstate : b.record.state = some state := hstate
  have hrevision : state.revision = b.record.revision := hrevision
  rw [replayRecords, Result.ite_error_eq_ok, hstate] at hr
  obtain ⟨r', hfold, -⟩ := Result.bind_eq_ok.mp hr.2
  rw [hmap, foldlM_revisions hfold, hforall.length_eq, hrevision]

/-- An accepted chain never leads to one revision twice. -/
lemma revisions_nodup {base : Value} {deltas : List Value} {value : Option Value}
    (hbase : HoldsSnapshot base) (hdeltas : ∀ e ∈ deltas, HoldsDelta e)
    (h : replayEntries (base :: deltas) = .ok value) : (deltas.map revisionOf).Nodup := by
  obtain ⟨b, hb, hsnapshot⟩ := hbase
  rw [revisions_of_accepted hb hsnapshot hdeltas h]
  exact List.nodup_range'

lemma rejected_of_not_ok {entries : List Value} (h : ∀ value, replayEntries entries ≠ .ok value) :
    Rejected entries := by
  rcases heq : replayEntries entries with e | value
  · exact ⟨e, heq⟩
  · exact absurd heq (h value)

/-! ### Damaged chains -/

section Damage

variable {base : Value} {value : Option Value}

/-- Two accepted chains from one snapshot agree where both have a delta. -/
lemma revisionOf_eq_of_accepted {left right right' : List Value} {d d' : Value}
    {value' : Option Value} (hbase : HoldsSnapshot base)
    (hdeltas : ∀ e ∈ left ++ d :: right, HoldsDelta e)
    (h : replayEntries (base :: (left ++ d :: right)) = .ok value)
    (hdeltas' : ∀ e ∈ left ++ d' :: right', HoldsDelta e)
    (h' : replayEntries (base :: (left ++ d' :: right')) = .ok value') :
    revisionOf d = revisionOf d' := by
  obtain ⟨b, hb, hsnapshot⟩ := hbase
  have hget : ∀ {d : Value} {right : List Value} {value : Option Value},
      (∀ e ∈ left ++ d :: right, HoldsDelta e) →
      replayEntries (base :: (left ++ d :: right)) = .ok value →
      revisionOf d = b.record.revision.toNat + 1 + left.length := by
    intro d right value hdeltas h
    have hrevisions := revisions_of_accepted hb hsnapshot hdeltas h
    have hat := congrArg (fun l => l[left.length]?) hrevisions
    simpa using hat
  rw [hget hdeltas h, hget hdeltas' h']

lemma rejected_deletion {left right : List Value} {d : Value} (hbase : HoldsSnapshot base)
    (hdeltas : ∀ e ∈ left ++ d :: right, HoldsDelta e)
    (h : replayEntries (base :: (left ++ d :: right)) = .ok value) (hright : right ≠ []) :
    Rejected (base :: (left ++ right)) := by
  obtain ⟨d', right', rfl⟩ := List.exists_cons_of_ne_nil hright
  refine rejected_of_not_ok fun value' h' => ?_
  have hdeltas' : ∀ e ∈ left ++ d' :: right', HoldsDelta e := by
    intro e he
    refine hdeltas e ?_
    rcases List.mem_append.mp he with he | he
    · exact List.mem_append_left _ he
    · exact List.mem_append_right _ (List.mem_cons_of_mem _ he)
  have heq := revisionOf_eq_of_accepted hbase hdeltas h hdeltas' h'
  have hnodup := revisions_nodup hbase hdeltas h
  rw [List.map_append, List.map_cons, List.nodup_middle] at hnodup
  simp [heq] at hnodup

lemma rejected_duplicate {left right : List Value} {d : Value} (hbase : HoldsSnapshot base)
    (hdeltas : ∀ e ∈ left ++ right, HoldsDelta e) (hd : d ∈ left ++ right) :
    Rejected (base :: (left ++ d :: right)) := by
  refine rejected_of_not_ok fun value' h' => ?_
  have hdeltas' : ∀ e ∈ left ++ d :: right, HoldsDelta e := by
    intro e he
    rcases List.mem_append.mp he with he | he
    · exact hdeltas e (List.mem_append_left _ he)
    · rcases List.mem_cons.mp he with rfl | he
      · exact hdeltas e hd
      · exact hdeltas e (List.mem_append_right _ he)
  have hnodup := revisions_nodup hbase hdeltas' h'
  rw [List.map_append, List.map_cons, List.nodup_middle, ← List.map_append, List.nodup_cons]
    at hnodup
  exact hnodup.1 (List.mem_map_of_mem hd)

lemma rejected_swap {left mid right : List Value} {d d' : Value} (hbase : HoldsSnapshot base)
    (hdeltas : ∀ e ∈ left ++ d :: (mid ++ d' :: right), HoldsDelta e)
    (h : replayEntries (base :: (left ++ d :: (mid ++ d' :: right))) = .ok value) :
    Rejected (base :: (left ++ d' :: (mid ++ d :: right))) := by
  refine rejected_of_not_ok fun value' h' => ?_
  have hdeltas' : ∀ e ∈ left ++ d' :: (mid ++ d :: right), HoldsDelta e := by
    intro e he
    refine hdeltas e ?_
    simp only [List.mem_append, List.mem_cons] at he ⊢
    tauto
  have heq := revisionOf_eq_of_accepted hbase hdeltas h hdeltas' h'
  have hnodup := revisions_nodup hbase hdeltas h
  rw [List.map_append, List.map_cons, List.nodup_middle] at hnodup
  simp [heq] at hnodup

lemma rejected_malformed {left right : List Value} {x : Value} (hbase : HoldsSnapshot base)
    (hdeltas : ∀ e ∈ left ++ right, HoldsDelta e) (hx : HoldsMalformed x) :
    Rejected (base :: (left ++ x :: right)) := by
  obtain ⟨b, hb, hsnapshot⟩ := hbase
  obtain ⟨⟨id, data⟩, henvelope, hb⟩ := Result.bind_eq_ok.mp hb
  have hb : parseRecord id data = .ok b := hb
  obtain ⟨xid, xdata, error, hx, hmalformed⟩ := hx
  have hleft : ∀ e ∈ left, HoldsDelta e := fun e he => hdeltas e (List.mem_append_left _ he)
  have hright : ∀ e ∈ right, HoldsDelta e := fun e he => hdeltas e (List.mem_append_right _ he)
  obtain ⟨ls, hls, hlforall⟩ := parseEntries_records fun e he => (hleft e he).imp fun _ h => h.1
  obtain ⟨rs, hrs, hrforall⟩ := parseEntries_records fun e he => (hright e he).imp fun _ h => h.1
  let suffix : List (Except String (BranchRecord String)) := ls.map .ok ++ .error error :: rs.map .ok
  have hparse : parseEntries parseRecord (base :: (left ++ x :: right)) = .ok (.ok b :: suffix) := by
    rw [parseEntries_cons, henvelope, Result.ok_bind, parseEntries_append hls, parseEntries_cons,
      hx, Result.ok_bind, hrs, hb, hmalformed]
    rfl
  have hnone : newest isSnapshot suffix = none := by
    rw [newest_eq_none]
    intro r hr
    rcases List.mem_append.mp hr with hr | hr
    · exact not_snapshot_of_forall₂ hlforall hleft r (by simpa using hr)
    · exact not_snapshot_of_forall₂ hrforall hright r (by simpa using hr)
  have hnewest : newest isSnapshot (.ok b :: suffix) = some (b, suffix) :=
    (newest_eq_some isSnapshot).mpr ⟨[], rfl, hsnapshot, hnone⟩
  have hmem : .error error ∈ suffix := List.mem_append_right _ List.mem_cons_self
  obtain ⟨error', herror⟩ := sequence_of_mem_error hmem
  refine ⟨error', ?_⟩
  rw [replayEntries_eq, hparse, Result.ok_bind, select, hnewest]
  simp only [herror, Result.map_error, Result.error_bind]

end Damage

/-- Replay does not depend on what precedes a sound snapshot, and after one it accepts the exact
chain of deltas only. -/
theorem replayEntries_anchored_failClosed {before after deltas : List Value} {entry base : Value}
    {value : Option Value} (hbefore : ∀ e ∈ before, ∃ p, branchEnvelope e = .ok p)
    (hentry : HoldsSnapshot entry) (hbase : HoldsSnapshot base)
    (hdeltas : ∀ e ∈ deltas, HoldsDelta e) (haccepted : replayEntries (base :: deltas) = .ok value) :
    replayEntries (before ++ entry :: after) = replayEntries (entry :: after) ∧
      (∀ left d right, deltas = left ++ d :: right → right ≠ [] →
        Rejected (base :: (left ++ right))) ∧
      (∀ left d right, deltas = left ++ right → d ∈ deltas →
        Rejected (base :: (left ++ d :: right))) ∧
      (∀ left d mid d' right, deltas = left ++ d :: (mid ++ d' :: right) →
        Rejected (base :: (left ++ d' :: (mid ++ d :: right)))) ∧
      ∀ left x right, deltas = left ++ right → HoldsMalformed x →
        Rejected (base :: (left ++ x :: right)) := by
  refine ⟨replayEntries_cut hbefore hentry after, ?_, ?_, ?_, ?_⟩
  · rintro left d right rfl hright
    exact rejected_deletion hbase hdeltas haccepted hright
  · rintro left d right rfl hd
    exact rejected_duplicate hbase hdeltas hd
  · rintro left d mid d' right rfl
    exact rejected_swap hbase hdeltas haccepted
  · rintro left x right rfl hx
    exact rejected_malformed hbase hdeltas hx

/-- A snapshot of the default state. -/
def sampleBase : Value :=
  nativeEntry ⟨"e1", by decide⟩ (appendPayload (snapshotRecord .default .default .default))

/-- A delta that advances the run counter, on top of `sampleBase`. -/
def sampleDelta (revision : UInt64) (entryId : EntryId) (baseEntryId : String) : Value :=
  nativeEntry entryId (appendPayload (journalRecord { revision, nextRunId := revision }
    { revision := revision + 1, nextRunId := revision + 1 } ⟨some baseEntryId, 0, false⟩))

theorem replayEntries_sample :
    let first := sampleDelta 0 ⟨"e2", by decide⟩ "e1"
    let second := sampleDelta 1 ⟨"e3", by decide⟩ "e2"
    replayEntries ([first] ++ sampleBase :: [first]) = replayEntries (sampleBase :: [first]) ∧
      (∀ left d right, [first, second] = left ++ d :: right → right ≠ [] →
        Rejected (sampleBase :: (left ++ right))) ∧
      (∀ left d right, [first, second] = left ++ right → d ∈ [first, second] →
        Rejected (sampleBase :: (left ++ d :: right))) ∧
      (∀ left d mid d' right, [first, second] = left ++ d :: (mid ++ d' :: right) →
        Rejected (sampleBase :: (left ++ d' :: (mid ++ d :: right)))) ∧
      ∀ left x right, [first, second] = left ++ right → HoldsMalformed x →
        Rejected (sampleBase :: (left ++ x :: right)) := by
  have hbase : HoldsSnapshot sampleBase := ⟨_, rfl, rfl⟩
  have hfirst : HoldsDelta (sampleDelta 0 ⟨"e2", by decide⟩ "e1") := ⟨_, rfl, rfl⟩
  have hsecond : HoldsDelta (sampleDelta 1 ⟨"e3", by decide⟩ "e2") := ⟨_, rfl, rfl⟩
  have hbefore : ∀ e ∈ [sampleDelta 0 ⟨"e2", by decide⟩ "e1"], ∃ p, branchEnvelope e = .ok p :=
    List.forall_mem_singleton.mpr ⟨_, rfl⟩
  have hdeltas : ∀ e ∈ [sampleDelta 0 ⟨"e2", by decide⟩ "e1",
      sampleDelta 1 ⟨"e3", by decide⟩ "e2"], HoldsDelta e :=
    List.forall_mem_cons.mpr ⟨hfirst, List.forall_mem_singleton.mpr hsecond⟩
  obtain ⟨value, haccepted⟩ : ∃ value, replayEntries [sampleBase,
      sampleDelta 0 ⟨"e2", by decide⟩ "e1", sampleDelta 1 ⟨"e3", by decide⟩ "e2"] = .ok value :=
    ⟨_, rfl⟩
  exact replayEntries_anchored_failClosed hbefore hbase hbase hdeltas haccepted

end Core

end Durable
