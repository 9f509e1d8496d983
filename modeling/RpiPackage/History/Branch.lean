import RpiPackage.Lib.Json
import RpiPackage.Lib.Result
import RpiPackage.Lib.Table

/-!
# Branches of a saved history

A branch is walked from its leaf through the parents of the entries, and its messages are given in
the order in which they were said. A saved history can hold anything: cycles, missing entries, and
messages that are no objects.
-/

namespace History

open Json Result

lemma length_unvisited_lt {keys visited : List String} {id : String} (hid : id ∈ keys)
    (hnew : id ∉ visited) : (keys.filter fun k => decide (k ∉ id :: visited)).length <
      (keys.filter fun k => decide (k ∉ visited)).length := by
  have hfilter : (keys.filter fun k => decide (k ∉ id :: visited)) =
      (keys.filter fun k => decide (k ∉ visited)).filter fun k => k != id := by
    rw [List.filter_filter]
    apply List.filter_congr
    intro k _
    by_cases hk : k = id <;> simp [hk]
  rw [hfilter, List.length_filter_lt_length_iff_exists]
  exact ⟨id, List.mem_filter.mpr ⟨hid, by simpa using hnew⟩, by simp⟩

section Branch

variable (entries : Table String Value)

/-- The entries from the leaf to the root, each of them visited once. -/
def collectPath (visited : List String) (leaf : Option String) :
    Except String (List (String × Value)) :=
  match leaf with
  | none => .ok []
  | some id =>
    if _hvisited : id ∈ visited then .error "cycle in saved session history"
    else
      match _hentry : entries.get id with
      | none => .error "saved session history is missing a branch entry"
      | some entry => do
        let path ← collectPath (id :: visited) (entry.index "parentId").asStr
        return (id, entry) :: path
termination_by (entries.keys.filter fun k => decide (k ∉ visited)).length
decreasing_by
  apply length_unvisited_lt ?_ _hvisited
  by_contra hnot
  rw [Table.get_eq_none.mpr hnot] at _hentry
  cases _hentry

def isMessage (entry : Value) : Bool := (entry.index "type").asStr == some "message"

/-- The message of an entry, which takes its identity from the entry. -/
def nativeMessage (id : String) (entry : Value) : Except String Value :=
  match entry.index "message" with
  | .object fields => .ok (.object (Value.setField fields "entryId" (.string id)))
  | _ => .error "invalid saved session message"

def updates : List (String × Value) → Except String (List Value)
  | [] => .ok []
  | (id, entry) :: path =>
    if isMessage entry then do
      let message ← nativeMessage id entry
      let messages ← updates path
      return message :: messages
    else updates path

def branchMessagesFromEntries (leaf : Option String) : Except String (List Value) := do
  let path ← collectPath entries [] leaf
  updates path.reverse

/-! ### Paths -/

/-- Following the parents from the leaf gives the path, which ends at an entry whose parent is no
string. -/
inductive ParentChain : Option String → List (String × Value) → Prop where
  | root : ParentChain none []
  | parent {id : String} {entry : Value} {path : List (String × Value)}
      (hentry : entries.get id = some entry) (h : ParentChain (entry.index "parentId").asStr path) :
      ParentChain (some id) ((id, entry) :: path)

variable {entries} {leaf : Option String} {visited : List String} {path : List (String × Value)}

lemma collectPath_eq_ok : collectPath entries visited leaf = .ok path ↔
    ParentChain entries leaf path ∧ (path.map Prod.fst).Nodup ∧ ∀ p ∈ path, p.1 ∉ visited := by
  induction path generalizing visited leaf with
  | nil =>
    unfold collectPath
    split
    · exact iff_of_true rfl ⟨.root, by simp, by simp⟩
    · rename_i id
      refine iff_of_false ?_ (fun ⟨h, _⟩ => nomatch h)
      intro h
      split at h
      · cases h
      split at h
      · cases h
      · obtain ⟨path, -, h⟩ := bind_eq_ok.mp h
        cases h
  | cons p path ih =>
    unfold collectPath
    constructor
    · intro h
      split at h
      · cases h
      rename_i id
      split at h
      · cases h
      rename_i hnew
      split at h
      · cases h
      rename_i entry hentry
      obtain ⟨path', hrest, h⟩ := bind_eq_ok.mp h
      obtain ⟨rfl, rfl⟩ := List.cons.inj (Except.ok.inj h)
      obtain ⟨hchain, hnodup, hvisited⟩ := ih.mp hrest
      refine ⟨.parent hentry hchain, ?_, ?_⟩
      · rw [List.map_cons, List.nodup_cons]
        refine ⟨?_, hnodup⟩
        intro hmem
        obtain ⟨q, hq, heq⟩ := List.mem_map.mp hmem
        exact hvisited q hq (by simp [heq])
      · intro q hq
        rcases List.mem_cons.mp hq with rfl | hq
        · exact hnew
        · exact fun hmem => hvisited q hq (List.mem_cons_of_mem _ hmem)
    · rintro ⟨hchain, hnodup, hvisited⟩
      cases hchain with
      | parent hentry hrest =>
        rename_i id entry
        rw [List.map_cons, List.nodup_cons] at hnodup
        have hnew : id ∉ visited := hvisited (id, entry) List.mem_cons_self
        have hpath : collectPath entries (id :: visited) (entry.index "parentId").asStr =
            .ok path := by
          refine ih.mpr ⟨hrest, hnodup.2, ?_⟩
          intro q hq hmem
          rcases List.mem_cons.mp hmem with heq | hmem
          · exact hnodup.1 (List.mem_map.mpr ⟨q, hq, heq⟩)
          · exact hvisited q (List.mem_cons_of_mem _ hq) hmem
        dsimp only
        rw [dif_neg hnew]
        split
        · rename_i hnone
          rw [hnone] at hentry
          cases hentry
        · rename_i entry' hentry'
          obtain rfl := Option.some.inj (hentry.symm.trans hentry')
          rw [hpath]
          rfl

/-! ### Messages -/

/-- The message of an entry under the id of the entry. -/
def withEntryId (p : String × Value) : Value :=
  match p.2.index "message" with
  | .object fields => .object (Value.setField fields "entryId" (.string p.1))
  | message => message

lemma nativeMessage_eq_ok {id : String} {entry message : Value} :
    nativeMessage id entry = .ok message ↔
      (entry.index "message").isObject = true ∧ message = withEntryId (id, entry) := by
  unfold nativeMessage withEntryId
  split
  · rename_i fields hfields
    rw [hfields]
    simp [Value.isObject, eq_comm]
  · rename_i hobject
    refine iff_of_false (by simp) ?_
    rintro ⟨hobject', -⟩
    cases hmessage : entry.index "message" with
    | object fields => exact hobject fields hmessage
    | _ =>
      rw [hmessage] at hobject'
      cases hobject'

lemma updates_eq_ok {messages : List Value} : updates path = .ok messages ↔
    (∀ p ∈ path, isMessage p.2 = true → (p.2.index "message").isObject = true) ∧
      messages = (path.filter fun p => isMessage p.2).map withEntryId := by
  induction path generalizing messages with
  | nil =>
    constructor
    · rintro h
      exact ⟨by simp, (Except.ok.inj h).symm⟩
    · rintro ⟨-, rfl⟩
      rfl
  | cons p path ih =>
    obtain ⟨id, entry⟩ := p
    unfold updates
    by_cases hmessage : isMessage entry = true
    · have hfilter : ((id, entry) :: path).filter (fun p => isMessage p.2) =
          (id, entry) :: path.filter fun p => isMessage p.2 := List.filter_cons_of_pos hmessage
      rw [if_pos hmessage, hfilter, List.map_cons]
      simp only [bind_eq_ok, nativeMessage_eq_ok, ih, pure_eq_ok, Except.ok.injEq]
      constructor
      · rintro ⟨message, ⟨hobject, rfl⟩, rest, ⟨hrest, rfl⟩, rfl⟩
        refine ⟨?_, rfl⟩
        intro q hq
        rcases List.mem_cons.mp hq with rfl | hq
        · exact fun _ => hobject
        · exact hrest q hq
      · rintro ⟨hall, rfl⟩
        exact ⟨_, ⟨hall (id, entry) List.mem_cons_self hmessage, rfl⟩, _,
          ⟨fun q hq => hall q (List.mem_cons_of_mem _ hq), rfl⟩, rfl⟩
    · have hfilter : ((id, entry) :: path).filter (fun p => isMessage p.2) =
          path.filter fun p => isMessage p.2 := List.filter_cons_of_neg hmessage
      rw [if_neg hmessage, hfilter, ih]
      refine and_congr_left fun _ => ?_
      constructor
      · intro hrest q hq
        rcases List.mem_cons.mp hq with rfl | hq
        · exact fun h => absurd h hmessage
        · exact hrest q hq
      · exact fun hall q hq => hall q (List.mem_cons_of_mem _ hq)

/-- The entry gives the message its id, and nothing else of it is different. -/
lemma get_withEntryId {p : String × Value} (h : (p.2.index "message").isObject = true) :
    (withEntryId p).get "entryId" = some (.string p.1) ∧
      ∀ key, key ≠ "entryId" → (withEntryId p).get key = (p.2.index "message").get key := by
  unfold withEntryId
  cases hmessage : p.2.index "message" with
  | object fields =>
    refine ⟨?_, fun key hkey => ?_⟩
    · exact (Value.lookup_setField fields "entryId" "entryId" _).trans (if_pos rfl)
    · exact (Value.lookup_setField fields "entryId" key _).trans (if_neg hkey)
  | _ =>
    rw [hmessage] at h
    cases h

/-- A branch is read exactly when the parents lead from the leaf to a root without repetition and
the messages on the way are objects. Then it gives these messages from the root to the leaf, under
the ids of their entries. -/
theorem branchMessagesFromEntries_eq_ok (entries : Table String Value) (leaf : Option String) :
    (∀ messages, branchMessagesFromEntries entries leaf = .ok messages ↔
      ∃ path, ParentChain entries leaf path ∧ (path.map Prod.fst).Nodup ∧
        (∀ p ∈ path, isMessage p.2 = true → (p.2.index "message").isObject = true) ∧
        messages = (path.reverse.filter fun p => isMessage p.2).map withEntryId) ∧
    ∀ p : String × Value, (p.2.index "message").isObject = true →
      (withEntryId p).get "entryId" = some (.string p.1) ∧
        ∀ key, key ≠ "entryId" → (withEntryId p).get key = (p.2.index "message").get key := by
  refine ⟨fun messages => ?_, fun p => get_withEntryId⟩
  unfold branchMessagesFromEntries
  simp only [bind_eq_ok, collectPath_eq_ok, updates_eq_ok]
  constructor
  · rintro ⟨path, ⟨hchain, hnodup, -⟩, hobjects, hmessages⟩
    exact ⟨path, hchain, hnodup, fun p hp => hobjects p (List.mem_reverse.mpr hp), hmessages⟩
  · rintro ⟨path, hchain, hnodup, hobjects, hmessages⟩
    exact ⟨path, ⟨hchain, hnodup, by simp⟩, fun p hp => hobjects p (List.mem_reverse.mp hp),
      hmessages⟩

end Branch

end History
