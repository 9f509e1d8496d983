import Mathlib.Algebra.BigOperators.Group.List.Basic
import Mathlib.Algebra.GroupWithZero.Nat
import Mathlib.Data.List.Basic
import Mathlib.Data.List.Nodup
import Mathlib.Tactic.Common

/-!
# Association lists

Maps as lists of bindings, read with `List.lookup`; an insertion leaves one binding of its key.
-/

namespace Assoc

variable {κ α : Type*} [DecidableEq κ]

def erase (m : List (κ × α)) (k : κ) : List (κ × α) := m.filter fun p => p.1 != k

def insert (m : List (κ × α)) (k : κ) (a : α) : List (κ × α) := (k, a) :: erase m k

variable {m : List (κ × α)} {k k' : κ} {a : α}

@[simp] lemma lookup_erase_self (m : List (κ × α)) (k : κ) : (erase m k).lookup k = none := by
  rw [List.lookup_eq_none_iff]
  intro p hp
  obtain ⟨-, hne⟩ := List.mem_filter.mp hp
  rw [bne_iff_ne] at hne
  exact bne_iff_ne.mpr hne.symm

lemma lookup_erase_of_ne (h : k' ≠ k) (m : List (κ × α)) :
    (erase m k).lookup k' = m.lookup k' := by
  induction m with
  | nil => rfl
  | cons p m ih =>
    unfold erase at ih ⊢
    by_cases hp : p.1 = k
    · rw [List.filter_cons_of_neg (by simpa using hp), ih, List.lookup_cons,
        beq_false_of_ne (hp ▸ h)]
    · rw [List.filter_cons_of_pos (by simpa using hp), List.lookup_cons, List.lookup_cons, ih]

@[simp] lemma lookup_insert_self (m : List (κ × α)) (k : κ) (a : α) :
    (insert m k a).lookup k = some a :=
  List.lookup_cons_self

lemma lookup_insert_of_ne (h : k' ≠ k) (m : List (κ × α)) (a : α) :
    (insert m k a).lookup k' = m.lookup k' := by
  rw [insert, List.lookup_cons, beq_false_of_ne h]
  exact lookup_erase_of_ne h m

lemma mem_of_lookup (h : m.lookup k = some a) : (k, a) ∈ m := by
  obtain ⟨l₁, l₂, rfl, -⟩ := List.lookup_eq_some_iff.mp h
  exact List.mem_append_right _ List.mem_cons_self

/-- What is bound after an erasure was bound before it. -/
lemma lookup_of_lookup_erase (h : (erase m k).lookup k' = some a) : m.lookup k' = some a := by
  by_cases heq : k' = k
  · rw [heq, lookup_erase_self] at h
    cases h
  · rwa [lookup_erase_of_ne heq] at h

/-! ### Maps with each key once -/

lemma mem_erase {p : κ × α} : p ∈ erase m k ↔ p ∈ m ∧ p.1 ≠ k := by
  rw [erase, List.mem_filter, bne_iff_ne]

lemma nodup_erase (h : (m.map Prod.fst).Nodup) (k : κ) : ((erase m k).map Prod.fst).Nodup :=
  h.sublist (List.filter_sublist.map _)

lemma nodup_insert (h : (m.map Prod.fst).Nodup) (k : κ) (a : α) :
    ((insert m k a).map Prod.fst).Nodup := by
  rw [insert, List.map_cons, List.nodup_cons]
  refine ⟨fun hmem => ?_, nodup_erase h k⟩
  obtain ⟨p, hp, hkey⟩ := List.mem_map.mp hmem
  exact (mem_erase.mp hp).2 hkey

/-- Where each key is bound once, a lookup finds every binding. -/
lemma lookup_eq_some_iff (h : (m.map Prod.fst).Nodup) : m.lookup k = some a ↔ (k, a) ∈ m := by
  refine ⟨mem_of_lookup, fun hmem => ?_⟩
  induction m with
  | nil => cases hmem
  | cons p m ih =>
    rw [List.map_cons, List.nodup_cons] at h
    rcases List.mem_cons.mp hmem with rfl | hmem
    · exact List.lookup_cons_self
    · have hne : k ≠ p.1 := by
        rintro rfl
        exact h.1 (List.mem_map.mpr ⟨_, hmem, rfl⟩)
      rw [List.lookup_cons, beq_false_of_ne hne]
      exact ih h.2 hmem

lemma erase_of_notMem (h : k ∉ m.map Prod.fst) : erase m k = m := by
  apply List.filter_eq_self.mpr
  intro q hq
  rw [bne_iff_ne]
  intro heq
  exact h (List.mem_map.mpr ⟨q, hq, heq⟩)

/-- An erasure of a key bound first and only there leaves the rest. -/
lemma erase_cons_of_notMem (h : k ∉ m.map Prod.fst) : erase ((k, a) :: m) k = m := by
  rw [erase, List.filter_cons_of_neg (by simp)]
  exact erase_of_notMem h

/-- An erasure takes one binding out. -/
lemma length_erase (h : (m.map Prod.fst).Nodup) (hmem : (k, a) ∈ m) :
    (erase m k).length + 1 = m.length := by
  induction m with
  | nil => cases hmem
  | cons p m ih =>
    rw [List.map_cons, List.nodup_cons] at h
    rcases List.mem_cons.mp hmem with rfl | hmem
    · rw [erase_cons_of_notMem h.1, List.length_cons]
    · have hne : p.1 ≠ k := by
        rintro rfl
        exact h.1 (List.mem_map.mpr ⟨_, hmem, rfl⟩)
      rw [erase, List.filter_cons_of_pos (by simpa using hne), List.length_cons, List.length_cons]
      exact congrArg (· + 1) (ih h.2 hmem)

/-- An erasure takes the weight of one binding out. -/
lemma sum_erase {f : κ × α → Nat} (h : (m.map Prod.fst).Nodup) (hmem : (k, a) ∈ m) :
    ((erase m k).map f).sum + f (k, a) = (m.map f).sum := by
  induction m with
  | nil => cases hmem
  | cons p m ih =>
    rw [List.map_cons, List.nodup_cons] at h
    rcases List.mem_cons.mp hmem with rfl | hmem
    · rw [erase_cons_of_notMem h.1, List.map_cons, List.sum_cons, Nat.add_comm]
    · have hne : p.1 ≠ k := by
        rintro rfl
        exact h.1 (List.mem_map.mpr ⟨_, hmem, rfl⟩)
      rw [erase, List.filter_cons_of_pos (by simpa using hne), List.map_cons, List.map_cons,
        List.sum_cons, List.sum_cons, Nat.add_assoc]
      exact congrArg (f p + ·) (ih h.2 hmem)

end Assoc
