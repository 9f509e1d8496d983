import RpiPackage.Child.Query
import RpiPackage.Lib.Run
import RpiPackage.Registry.Store

/-!
# Persistence of the registry

Whatever is called and however the saves go, the file holds what is in memory: a failed call leaves
the registry as it was, and the next start finds it again. The exceptions are a session without a
name, and the preferences of a session that had none when they could not be saved.
-/

namespace Sessions

open Deletion Resource Result

/-- `serde_json` reads back the files it has written, when it does so with the native bodies in
them. -/
def Serde.ReadsBack (serde : Serde) (exact : Json.Value → Prop) : Prop :=
  ∀ (f : RegistryFile) (raw : List UInt8), serde.toStringPretty f = .ok raw →
    (∀ p ∈ f.resources.entries, ∀ o ∈ p.2.observations, exact o.body) → serde.fromSlice raw = .ok f

namespace Registry

def ids (r : Registry) : List String := r.entries.map RegistryEntry.sessionId

/-- A registry that is loaded again from what is saved of it. -/
structure Valid (exact : Json.Value → Prop) (r : Registry) : Prop where
  named : ∀ id ∈ r.ids, Rust.trim id ≠ ""
  distinct : r.ids.Nodup
  resources : ∀ p ∈ r.resources.entries, p.1 ∈ r.ids ∧ p.2.validateSession p.1 = .ok ()
  few : r.deletions.size ≤ maxDeletions
  deletions : ∀ p ∈ r.deletions.entries, p.1 ∈ r.ids ∧ p.2.validate p.1 = .ok ()
  exact : ∀ p ∈ r.resources.entries, ∀ o ∈ p.2.observations, exact o.body

variable {exact : Json.Value → Prop} {serde : Serde} {fault : Fault} {r : Registry}

/-! ### Loading -/

lemma checkFile_eq_ok {data : RegistryFile} :
    checkFile data = .ok () ↔
      ((∀ id ∈ data.sessions.map RegistryEntry.sessionId, Rust.trim id ≠ "") ∧
        (data.sessions.map RegistryEntry.sessionId).Nodup) ∧
      (∀ p ∈ data.resources.entries, p.1 ∈ data.sessions.map RegistryEntry.sessionId ∧
        p.2.validateSession p.1 = .ok ()) ∧
      data.deletions.size ≤ maxDeletions ∧
      ∀ p ∈ data.deletions.entries, p.1 ∈ data.sessions.map RegistryEntry.sessionId ∧
        p.2.validate p.1 = .ok () := by
  simp only [checkFile, check_bind_eq_ok, failIf_eq_ok, forM_eq_ok, mapError_eq_ok, not_or,
    not_exists, not_and, not_not, not_lt, ne_eq]

lemma valid_of_load {raw : Option (List UInt8)} (h : load serde raw = .ok r)
    (hexact : ∀ p ∈ r.resources.entries, ∀ o ∈ p.2.observations, exact o.body) :
    r.Valid exact := by
  simp only [load, bind_eq_ok, pure_eq_ok, Except.ok.injEq] at h
  obtain ⟨data, -, _, hcheck, rfl⟩ := h
  obtain ⟨⟨hnamed, hdistinct⟩, hresources, hfew, hdeletions⟩ := checkFile_eq_ok.mp hcheck
  exact ⟨hnamed, hdistinct, hresources, hfew, hdeletions, hexact⟩

lemma saveResult_eq_ok {raw : List UInt8} (h : r.saveResult serde fault = .ok raw) :
    serde.toStringPretty r.file = .ok raw ∧ raw.length ≤ maxRegistryBytes := by
  simp only [saveResult, bind_eq_ok, failWith_eq_ok, failIf_eq_ok, pure_eq_ok,
    Except.ok.injEq] at h
  obtain ⟨_, -, raw', htext, _, hsize, _, -, rfl⟩ := h
  exact ⟨htext, Nat.le_of_not_lt hsize⟩

lemma saveResult_of_text {raw : List UInt8} (htext : serde.toStringPretty r.file = .ok raw)
    (hsize : raw.length ≤ maxRegistryBytes) : r.saveResult serde .none = .ok raw := by
  simp only [saveResult, bind_eq_ok, failWith_eq_ok, failIf_eq_ok, pure_eq_ok, Except.ok.injEq]
  exact ⟨(), rfl, raw, htext, (), Nat.not_lt_of_le hsize, (), rfl, rfl⟩

lemma readRegistry_of_slice {f : RegistryFile} {raw : List UInt8}
    (hslice : serde.fromSlice raw = .ok f) (hsize : raw.length ≤ maxRegistryBytes) :
    readRegistry serde (some raw) = .ok f := by
  simp only [readRegistry, check_bind_eq_ok, failIf_eq_ok, mapError_eq_ok]
  exact ⟨Nat.not_lt_of_le hsize, hslice⟩

/-- What is saved of a valid registry loads as that registry. -/
lemma Valid.load (h : r.Valid exact) (hserde : serde.ReadsBack exact) {raw : List UInt8}
    (hsave : r.saveResult serde fault = .ok raw) : load serde (some raw) = .ok r := by
  obtain ⟨htext, hsize⟩ := saveResult_eq_ok hsave
  have hread := readRegistry_of_slice (hserde r.file raw htext h.exact) hsize
  have hcheck : checkFile r.file = .ok () :=
    checkFile_eq_ok.mpr ⟨⟨h.named, h.distinct⟩, h.resources, h.few, h.deletions⟩
  rw [Sessions.load, hread, ok_bind, hcheck, ok_bind]
  rfl

/-! ### Entries -/

lemma ids_modifyEntry (id : String) {f : RegistryEntry → RegistryEntry}
    (hf : ∀ entry, (f entry).sessionId = entry.sessionId) (entries : List RegistryEntry) :
    (modifyEntry id f entries).map RegistryEntry.sessionId =
      entries.map RegistryEntry.sessionId := by
  induction entries with
  | nil => rfl
  | cons entry entries ih =>
    rw [modifyEntry]
    split
    · rw [List.map_cons, List.map_cons, hf]
    · rw [List.map_cons, List.map_cons, ih]

lemma get_eq_none {id : String} : r.get id = none ↔ id ∉ r.ids := by
  rw [get, List.find?_eq_none, ids, List.mem_map]
  constructor
  · rintro h ⟨entry, hentry, rfl⟩
    exact h entry hentry (beq_self_eq_true _)
  · intro h entry hentry heq
    exact h ⟨entry, hentry, eq_of_beq heq⟩

/-- More sessions, each with a name of its own. -/
lemma Valid.entries (h : r.Valid exact) {entries : List RegistryEntry}
    (hsub : ∀ id ∈ r.ids, id ∈ entries.map RegistryEntry.sessionId)
    (hnamed : ∀ id ∈ entries.map RegistryEntry.sessionId, Rust.trim id ≠ "")
    (hdistinct : (entries.map RegistryEntry.sessionId).Nodup) :
    Valid exact { r with entries } where
  named := hnamed
  distinct := hdistinct
  resources := fun p hp => ⟨hsub p.1 (h.resources p hp).1, (h.resources p hp).2⟩
  few := h.few
  deletions := fun p hp => ⟨hsub p.1 (h.deletions p hp).1, (h.deletions p hp).2⟩
  exact := h.exact

lemma Valid.modifyEntry (h : r.Valid exact) (id : String) {f : RegistryEntry → RegistryEntry}
    (hf : ∀ entry, (f entry).sessionId = entry.sessionId) :
    Valid exact { r with entries := modifyEntry id f r.entries } := by
  have hids := ids_modifyEntry id hf r.entries
  refine h.entries ?_ ?_ ?_
  · rw [hids]
    exact fun _ hid => hid
  · rw [hids]
    exact h.named
  · rw [hids]
    exact h.distinct

lemma Valid.concat (h : r.Valid exact) {entry : RegistryEntry} (hnew : r.get entry.sessionId = none)
    (hnamed : Rust.trim entry.sessionId ≠ "") :
    Valid exact { r with entries := r.entries ++ [entry] } := by
  have hids : (r.entries ++ [entry]).map RegistryEntry.sessionId = r.ids ++ [entry.sessionId] :=
    List.map_append
  refine h.entries ?_ ?_ ?_
  · rw [hids]
    exact fun _ hid => List.mem_append_left _ hid
  · rw [hids]
    intro id hid
    rcases List.mem_append.mp hid with hid | hid
    · exact h.named id hid
    · rw [List.mem_singleton.mp hid]
      exact hnamed
  · rw [hids, List.nodup_append]
    refine ⟨h.distinct, List.nodup_singleton _, ?_⟩
    intro id hid id' hid' heq
    rw [List.mem_singleton.mp hid'] at heq
    exact get_eq_none.mp hnew (heq ▸ hid)

/-! ### Calls -/

/-- A call changes nothing, or it answers and saves what it leaves behind. -/
def Settles {α : Type} (exact : Json.Value → Prop) (serde : Serde) (fault : Fault) (r : Registry)
    (o : Outcome α) : Prop :=
  (o.registry = r ∧ o.written = none) ∨
    ∃ a raw, o.result = .ok a ∧ o.written = some raw ∧
      o.registry.saveResult serde fault = .ok raw ∧ o.registry.Valid exact

lemma settles_refuse {α : Type} (e : String) :
    r.Settles exact serde fault (r.refuse e : Outcome α) :=
  .inl ⟨rfl, rfl⟩

/-- A change that is taken back when it cannot be saved. -/
lemma settles_save {α : Type} {next restored : Registry} {a : α} (hvalid : next.Valid exact)
    (hrestored : ∀ e, next.saveResult serde fault = .error e → restored = r) :
    r.Settles exact serde fault (match next.saveResult serde fault with
      | .error e => ⟨restored, .error e, none⟩
      | .ok raw => ⟨next, .ok a, some raw⟩ : Outcome α) := by
  cases hsave : next.saveResult serde fault with
  | error e => exact .inl ⟨hrestored e hsave, rfl⟩
  | ok raw => exact .inr ⟨a, raw, rfl, rfl, hsave, hvalid⟩

lemma Settles.forget {α : Type} {o : Outcome α} (h : r.Settles exact serde fault o) :
    r.Settles exact serde fault o.forget := by
  rcases h with h | ⟨a, raw, hresult, hwritten, hsave, hvalid⟩
  · exact .inl h
  · refine .inr ⟨(), raw, ?_, hwritten, hsave, hvalid⟩
    rw [Outcome.forget, hresult]
    rfl

lemma Valid.settles_beginDeletion (h : r.Valid exact) (id : String) (plan : DeletionPlan) :
    r.Settles exact serde fault (r.beginDeletion serde fault id plan) := by
  unfold beginDeletion
  split
  · exact settles_refuse _
  · rename_i hknown
    rw [get_eq_none, not_not] at hknown
    split
    · exact settles_refuse _
    · rename_i hplan
      split
      · exact settles_refuse _
      · rename_i hpending
        have hnew : id ∉ r.deletions.keys := by
          rw [← Table.get_eq_none, ← Option.not_isSome_iff_eq_none]
          exact hpending
        split
        · exact settles_refuse _
        · rename_i hroom
          apply settles_save
          · refine ⟨h.named, h.distinct, h.resources, ?_, ?_, h.exact⟩
            · show (r.deletions.put id plan).size ≤ maxDeletions
              rw [Table.size_put hnew]
              exact Nat.lt_of_not_le hroom
            · intro p hp
              rcases Table.mem_putEntries hp with rfl | hp
              · exact ⟨hknown, hplan⟩
              · exact h.deletions p hp
          · intro e _
            show { r with deletions := (r.deletions.put id plan).erase id } = r
            rw [Table.erase_put hnew]

/-- A record goes under a session of its own. -/
lemma Valid.putResource (h : r.Valid exact) {id : String} {record : ResourceConfiguration}
    (hid : id ∈ r.ids) (hrecord : record.validateSession id = .ok ())
    (hexact : ∀ o ∈ record.observations, exact o.body) :
    Valid exact { r with resources := r.resources.put id record } := by
  refine ⟨h.named, h.distinct, ?_, h.few, h.deletions, ?_⟩
  · intro p hp
    rcases Table.mem_putEntries hp with rfl | hp
    · exact ⟨hid, hrecord⟩
    · exact h.resources p hp
  · intro p hp
    rcases Table.mem_putEntries hp with rfl | hp
    · exact hexact
    · exact h.exact p hp

lemma Valid.settles_setResourceConfiguration (h : r.Valid exact) {entry : RegistryEntry}
    {record : ResourceConfiguration} (hnamed : Rust.trim entry.sessionId ≠ "")
    (hexact : ∀ o ∈ record.observations, exact o.body) :
    r.Settles exact serde fault (r.setResourceConfiguration serde fault entry record) := by
  unfold setResourceConfiguration
  split
  · exact settles_refuse _
  · rename_i hrecord
    apply settles_save
    · cases hget : r.get entry.sessionId with
      | some existing =>
        have hid : entry.sessionId ∈ r.ids := by
          by_contra hnot
          rw [get_eq_none.mpr hnot] at hget
          cases hget
        exact (h.putResource hid hrecord hexact).modifyEntry entry.sessionId fun _ => rfl
      | none =>
        refine (h.concat hget hnamed).putResource ?_ hrecord hexact
        exact List.mem_map.mpr
          ⟨entry, List.mem_append_right _ (List.mem_singleton_self entry), rfl⟩
    · intro e _
      rfl

lemma Valid.settles_upsert (h : r.Valid exact) {entry : RegistryEntry}
    (hnamed : Rust.trim entry.sessionId ≠ "") :
    r.Settles exact serde fault (r.upsert serde fault entry) := by
  unfold upsert
  apply settles_save
  · cases hget : r.get entry.sessionId with
    | some existing => exact h.modifyEntry entry.sessionId fun _ => rfl
    | none => exact h.concat hget hnamed
  · intro e _
    rfl

lemma Valid.settles_rename (h : r.Valid exact) (id title : String) (now : UInt64) :
    r.Settles exact serde fault (r.rename serde fault id title now) := by
  unfold rename
  split
  · exact .inl ⟨rfl, rfl⟩
  · apply settles_save
    · exact h.modifyEntry id fun _ => rfl
    · intro e _
      rfl

lemma Valid.settles_remove (h : r.Valid exact) (id : String) :
    r.Settles exact serde fault (r.remove serde fault id) := by
  have hids : ∀ id', id' ∈ (r.entries.filter fun entry => entry.sessionId != id).map
      RegistryEntry.sessionId ↔ id' ∈ r.ids ∧ id' ≠ id := by
    intro id'
    simp only [ids, List.mem_map, List.mem_filter, bne_iff_ne]
    constructor
    · rintro ⟨entry, ⟨hentry, hne⟩, rfl⟩
      exact ⟨⟨entry, hentry, rfl⟩, hne⟩
    · rintro ⟨⟨entry, hentry, rfl⟩, hne⟩
      exact ⟨entry, ⟨hentry, hne⟩, rfl⟩
  unfold remove
  dsimp only
  split
  · apply settles_save
    · refine ⟨?_, ?_, ?_, ?_, ?_, ?_⟩
      · intro id' hid'
        exact h.named id' ((hids id').mp hid').1
      · exact h.distinct.sublist (List.filter_sublist.map _)
      · intro p hp
        obtain ⟨hp, hne⟩ := Table.mem_erase.mp hp
        obtain ⟨hid, hrecord⟩ := h.resources p hp
        exact ⟨(hids p.1).mpr ⟨hid, hne⟩, hrecord⟩
      · exact (Table.size_erase_le _ _).trans h.few
      · intro p hp
        obtain ⟨hp, hne⟩ := Table.mem_erase.mp hp
        obtain ⟨hid, hplan⟩ := h.deletions p hp
        exact ⟨(hids p.1).mpr ⟨hid, hne⟩, hplan⟩
      · intro p hp
        exact h.exact p (Table.mem_erase.mp hp).1
    · intro e _
      rfl
  · rename_i hremoved
    have hlength : (r.entries.filter fun entry => entry.sessionId != id).length =
        r.entries.length := by
      simpa using hremoved
    refine .inl ⟨?_, rfl⟩
    show { r with entries := r.entries.filter fun entry => entry.sessionId != id } = r
    rw [List.filter_sublist.eq_of_length hlength]

/-- The preferences of the session are there, or they can be saved. -/
def Restorable (serde : Serde) (fault : Fault) (r : Registry) (id : String)
    (pinned archived : Option Bool) (tags : Option (List String)) : Prop :=
  ∀ value, r.preferred id pinned archived tags = .ok value →
    r.preferences.contains id = true ∨
      ∃ raw, { r with preferences := r.preferences.put id value }.saveResult serde fault = .ok raw

lemma Valid.settles_updatePreferences (h : r.Valid exact) {id : String}
    {pinned archived : Option Bool} {tags : Option (List String)}
    (hrestorable : r.Restorable serde fault id pinned archived tags) :
    r.Settles exact serde fault (r.updatePreferences serde fault id pinned archived tags) := by
  unfold updatePreferences
  split
  · exact settles_refuse _
  · rename_i value hvalue
    apply settles_save
    · exact ⟨h.named, h.distinct, h.resources, h.few, h.deletions, h.exact⟩
    · intro e hsave
      rcases hrestorable value hvalue with hcontains | ⟨raw, hraw⟩
      · obtain ⟨previous, hprevious⟩ := Option.isSome_iff_exists.mp hcontains
        have hof : r.preferencesOf id = previous := by
          rw [preferencesOf, hprevious, Option.getD_some]
        show { r with preferences := (r.preferences.put id value).put id (r.preferencesOf id) } = r
        rw [hof, Table.put_put hprevious]
      · rw [hraw] at hsave
        cases hsave

end Registry

/-! ### Runs -/

namespace Store

open Registry

variable {exact : Json.Value → Prop} {serde : Serde} {s : Store}

/-- The session of the call has a name, the native bodies in it are read back, and preferences that
cannot be saved have been saved before. -/
def Sound (exact : Json.Value → Prop) (serde : Serde) (s : Store) (op : Call × Fault) : Prop :=
  match op.1 with
  | .upsert entry => Rust.trim entry.sessionId ≠ ""
  | .setResourceConfiguration entry record =>
    Rust.trim entry.sessionId ≠ "" ∧ ∀ o ∈ record.observations, exact o.body
  | .updatePreferences id pinned archived tags =>
    s.registry.Restorable serde op.2 id pinned archived tags
  | _ => True

lemma settles_call (h : s.registry.Valid exact) {op : Call × Fault} (hsound : s.Sound exact serde op) :
    s.registry.Settles exact serde op.2 (s.registry.call serde op.2 op.1) := by
  obtain ⟨call, fault⟩ := op
  cases call with
  | upsert entry => exact h.settles_upsert hsound
  | rename id title now => exact (h.settles_rename id title now).forget
  | remove id => exact (h.settles_remove id).forget
  | updatePreferences id pinned archived tags => exact (h.settles_updatePreferences hsound).forget
  | setResourceConfiguration entry record =>
    exact h.settles_setResourceConfiguration hsound.1 hsound.2
  | beginDeletion id plan => exact h.settles_beginDeletion id plan

/-- The file holds the registry, which is valid. -/
def Persisted (exact : Json.Value → Prop) (serde : Serde) (s : Store) : Prop :=
  load serde s.disk = .ok s.registry ∧ s.registry.Valid exact

lemma Persisted.step (hserde : serde.ReadsBack exact) (h : s.Persisted exact serde)
    {op : Call × Fault} (hsound : s.Sound exact serde op) :
    (s.step serde op).Persisted exact serde := by
  rcases settles_call h.2 hsound with ⟨hregistry, hwritten⟩ | ⟨a, raw, -, hwritten, hsave, hvalid⟩
  · have hstep : s.step serde op = s := by
      rw [Store.step, hregistry, hwritten]
      rfl
    rw [hstep]
    exact h
  · refine ⟨?_, hvalid⟩
    have hdisk : (s.step serde op).disk = some raw := by
      rw [Store.step, hwritten]
      rfl
    rw [hdisk]
    exact hvalid.load hserde hsave

/-- A call that fails changes nothing. -/
lemma Persisted.registry_of_error (h : s.Persisted exact serde) {op : Call × Fault}
    (hsound : s.Sound exact serde op) {e : String}
    (herror : (s.registry.call serde op.2 op.1).result = .error e) :
    (s.step serde op).registry = s.registry := by
  rcases settles_call h.2 hsound with ⟨hregistry, -⟩ | ⟨a, raw, hresult, -⟩
  · exact hregistry
  · rw [hresult] at herror
    cases herror

/-- Over a run of calls on a loaded registry, whatever goes wrong while it is saved, a call that
fails leaves the registry as it was, and the file loads as the registry that is in memory. -/
theorem run_persists (hserde : serde.ReadsBack exact) (hload : load serde s.disk = .ok s.registry)
    (hexact : ∀ p ∈ s.registry.resources.entries, ∀ o ∈ p.2.observations, exact o.body)
    (ops : List (Call × Fault)) (hops : Run.Meets (Store.step serde) (Sound exact serde) s ops) :
    load serde (Run.after (Store.step serde) s ops).disk =
        .ok (Run.after (Store.step serde) s ops).registry ∧
      ∀ left op right, ops = left ++ op :: right → ∀ e,
        ((Run.after (Store.step serde) s left).registry.call serde op.2 op.1).result = .error e →
          ((Run.after (Store.step serde) s left).step serde op).registry =
            (Run.after (Store.step serde) s left).registry := by
  have hstart : s.Persisted exact serde := ⟨hload, valid_of_load hload hexact⟩
  have hrun : ∀ ops, Run.Meets (Store.step serde) (Sound exact serde) s ops →
      (Run.after (Store.step serde) s ops).Persisted exact serde :=
    fun ops hops => hops.invariant (P := Persisted exact serde)
      (fun _ _ h hsound => h.step hserde hsound) hstart
  refine ⟨(hrun ops hops).1, ?_⟩
  rintro left op right rfl e herror
  obtain ⟨hleft, hsound, -⟩ := Run.meets_append.mp hops
  exact (hrun left hleft).registry_of_error hsound herror

end Store

/-! ### A registry of one session -/

def oneEntry (id : String) : RegistryEntry := ⟨id, none, none, none, none, none, 1, 1⟩

def oneFile (id : String) : RegistryFile := ⟨[oneEntry id], .empty, .empty, .empty⟩

/-- The lines of the file before and after the id of the session. -/
def linesBefore : List String := ["\x7b", "  \"sessions\": [", "    \x7b"]

def linesAfter : List String :=
  ["      \"projectId\": null,", "      \"title\": null,", "      \"parentSessionId\": null,",
    "      \"forkEntryId\": null,", "      \"relation\": null,", "      \"createdAt\": 1,",
    "      \"updatedAt\": 1", "    \x7d", "  ],", "  \"preferences\": \x7b\x7d,",
    "  \"resources\": \x7b\x7d,", "  \"deletions\": \x7b\x7d", "\x7d"]

def oneText (id : String) : List UInt8 :=
  ((linesBefore ++ ("      \"sessionId\": \"" ++ id ++ "\",") :: linesAfter).flatMap fun line =>
    (line ++ "\n").toList.map fun c => c.toNat.toUInt8).dropLast

lemma length_flatMap_le {α β : Type} {f : α → List β} {n : Nat} (as : List α)
    (h : ∀ a ∈ as, (f a).length ≤ n) : (as.flatMap f).length ≤ as.length * n := by
  induction as with
  | nil => simp
  | cons a as ih =>
    rw [List.flatMap_cons, List.length_append, List.length_cons, Nat.succ_mul, Nat.add_comm]
    exact Nat.add_le_add (ih fun b hb => h b (List.mem_cons_of_mem a hb)) (h a List.mem_cons_self)

lemma length_oneText {id : String} (h : id.length ≤ 36) :
    (oneText id).length ≤ maxRegistryBytes := by
  have hlines : ∀ line ∈ linesBefore ++ linesAfter, line.length ≤ 40 := by decide +kernel
  have hid : ("      \"sessionId\": \"" : String).length + ("\"," : String).length ≤ 40 := by
    decide +kernel
  have hline : ∀ line ∈ linesBefore ++ ("      \"sessionId\": \"" ++ id ++ "\",") :: linesAfter,
      ((line ++ "\n").toList.map fun c => c.toNat.toUInt8).length ≤ 77 := by
    intro line hline
    have hnewline : ("\n" : String).length = 1 := rfl
    have hlength : line.length ≤ 76 := by
      rcases List.mem_append.mp hline with hline | hline
      · exact (hlines line (List.mem_append_left _ hline)).trans (by decide)
      · rcases List.mem_cons.mp hline with rfl | hline
        · rw [String.length_append, String.length_append]
          omega
        · exact (hlines line (List.mem_append_right _ hline)).trans (by decide)
    rw [List.length_map, String.length_toList, String.length_append]
    omega
  have hlength : (linesBefore ++ ("      \"sessionId\": \"" ++ id ++ "\",") :: linesAfter).length * 77 ≤
      maxRegistryBytes := by
    rw [List.length_append, List.length_cons]
    decide
  rw [oneText, List.length_dropLast]
  exact (Nat.sub_le _ _).trans ((length_flatMap_le _ hline).trans hlength)

/-- Enough of `serde_json` for the session alone. -/
def oneSerde (id : String) : Serde where
  toStringPretty f :=
    if f.sessions = [oneEntry id] ∧ f.preferences.size = 0 ∧ f.resources.size = 0 ∧
        f.deletions.size = 0 then .ok (oneText id)
    else .error "unsupported"
  fromSlice raw := if raw = oneText id then .ok (oneFile id) else .error "expected value"

lemma table_of_size {α : Type} {m : Table String α} (h : m.size = 0) : m = .empty :=
  Table.ext (List.eq_nil_of_length_eq_zero h)

lemma oneSerde_readsBack (id : String) : (oneSerde id).ReadsBack fun _ => True := by
  intro f raw htext _
  obtain ⟨sessions, preferences, resources, deletions⟩ := f
  simp only [oneSerde] at htext ⊢
  split at htext
  · rename_i hone
    obtain ⟨rfl, hpreferences, hresources, hdeletions⟩ := hone
    rw [if_pos (Except.ok.inj htext).symm, table_of_size hpreferences, table_of_size hresources,
      table_of_size hdeletions]
    rfl
  · cases htext

def oneId : String := "00000000-0000-4000-8000-000000000001"

def emptyStore : Store := ⟨⟨[], .empty, .empty, .empty⟩, none⟩

/-- A session is added, and then it cannot be renamed. -/
def oneRun : List (Call × Fault) :=
  [(.upsert (oneEntry oneId), .none),
    (.rename oneId "title" 2, ⟨some "Permission denied (os error 13)", none⟩)]

theorem run_persists_one :
    load (oneSerde oneId) (Run.after (Store.step (oneSerde oneId)) emptyStore oneRun).disk =
        .ok (Run.after (Store.step (oneSerde oneId)) emptyStore oneRun).registry ∧
      ∀ left op right, oneRun = left ++ op :: right → ∀ e,
        ((Run.after (Store.step (oneSerde oneId)) emptyStore left).registry.call (oneSerde oneId)
            op.2 op.1).result = .error e →
          ((Run.after (Store.step (oneSerde oneId)) emptyStore left).step (oneSerde oneId)
            op).registry =
            (Run.after (Store.step (oneSerde oneId)) emptyStore left).registry := by
  refine Store.run_persists (oneSerde_readsBack oneId) (by rfl)
    (fun _ hnil => absurd hnil List.not_mem_nil) oneRun ⟨?_, trivial, trivial⟩
  show Rust.trim oneId ≠ ""
  decide

lemma toStringPretty_oneFile (id : String) :
    (oneSerde id).toStringPretty (oneFile id) = .ok (oneText id) :=
  if_pos ⟨rfl, rfl, rfl, rfl⟩

lemma step_oneEntry (id : String) (hsize : (oneText id).length ≤ maxRegistryBytes) :
    emptyStore.step (oneSerde id) (.upsert (oneEntry id), .none) =
      ⟨⟨[oneEntry id], .empty, .empty, .empty⟩, some (oneText id)⟩ := by
  have hsave : (⟨[oneEntry id], .empty, .empty, .empty⟩ : Registry).saveResult (oneSerde id) .none =
      .ok (oneText id) :=
    Registry.saveResult_of_text (toStringPretty_oneFile id) hsize
  have hcall : emptyStore.registry.call (oneSerde id) .none (.upsert (oneEntry id)) =
      ⟨⟨[oneEntry id], .empty, .empty, .empty⟩, .ok (), some (oneText id)⟩ := by
    show (match (⟨[oneEntry id], .empty, .empty, .empty⟩ : Registry).saveResult (oneSerde id) .none
      with
      | .error e => _
      | .ok raw => _) = _
    rw [hsave]
    rfl
  rw [Store.step, hcall]
  rfl

lemma readRegistry_one (id : String) (hsize : (oneText id).length ≤ maxRegistryBytes) :
    readRegistry (oneSerde id) (some (oneText id)) = .ok (oneFile id) :=
  Registry.readRegistry_of_slice (if_pos rfl) hsize

def oneStore : Store := ⟨⟨[oneEntry oneId], .empty, .empty, .empty⟩, some (oneText oneId)⟩

/-- A pin that cannot be saved. -/
def failingPin : Call × Fault :=
  (.updatePreferences oneId (some true) none none,
    ⟨some "Permission denied (os error 13)", none⟩)

/-- The id of a fork may be a blank, and then the registry does not load again; and a session
without preferences has some after they could not be saved. -/
theorem reload_fails :
    (Child.validId " " = true ∧ load (oneSerde " ") emptyStore.disk = .ok emptyStore.registry ∧
      load (oneSerde " ") (emptyStore.step (oneSerde " ") (.upsert (oneEntry " "), .none)).disk =
        .error "session registry contains empty or duplicate session ids") ∧
    load (oneSerde oneId) oneStore.disk = .ok oneStore.registry ∧
      (oneStore.registry.call (oneSerde oneId) failingPin.2 failingPin.1).result =
        .error "Permission denied (os error 13)" ∧
      oneStore.registry.preferences.entries = [] ∧
      (oneStore.step (oneSerde oneId) failingPin).registry.preferences.entries =
        [(oneId, .default)] := by
  refine ⟨⟨by decide, by rfl, ?_⟩, ?_, by rfl, rfl, by rfl⟩
  · rw [step_oneEntry " " (length_oneText (by decide))]
    show (readRegistry (oneSerde " ") (some (oneText " ")) >>= _) = _
    rw [readRegistry_one " " (length_oneText (by decide))]
    rfl
  · show (readRegistry (oneSerde oneId) (some (oneText oneId)) >>= _) = _
    rw [readRegistry_one oneId (length_oneText (by decide))]
    rfl

end Sessions
