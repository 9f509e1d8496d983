import Mathlib.Logic.Relation
import RpiPackage.Lib.JsonText

/-!
# Parts of JSON values

What lies within a value is smaller than it and as proper as it.
-/

namespace Json.Value

mutual
/-- The number of values in a value. -/
def size : Value → Nat
  | .array xs => sizeItems xs + 1
  | .object fields => sizeFields fields + 1
  | .null | .bool _ | .number _ | .string _ => 1

def sizeItems : List Value → Nat
  | [] => 0
  | x :: xs => size x + sizeItems xs

def sizeFields : List (String × Value) → Nat
  | [] => 0
  | (_, x) :: fields => size x + sizeFields fields
end

/-- An item of an array or a field of an object. -/
inductive Part : Value → Value → Prop
  | item {x : Value} {xs : List Value} (h : x ∈ xs) : Part x (.array xs)
  | field {f : String × Value} {fields : List (String × Value)} (h : f ∈ fields) :
    Part f.2 (.object fields)

/-- A part of a value, or a part of a part. -/
def Within : Value → Value → Prop := Relation.TransGen Part

variable {v w : Value} {P : Number → Prop}

lemma size_le_of_item {xs : List Value} (h : v ∈ xs) : v.size ≤ sizeItems xs := by
  induction xs with
  | nil => cases h
  | cons x xs ih =>
    rw [sizeItems]
    rcases List.mem_cons.mp h with rfl | h
    · exact Nat.le_add_right _ _
    · exact (ih h).trans (Nat.le_add_left _ _)

lemma size_le_of_field {fields : List (String × Value)} {f : String × Value} (h : f ∈ fields) :
    f.2.size ≤ sizeFields fields := by
  induction fields with
  | nil => cases h
  | cons first fields ih =>
    rw [sizeFields]
    rcases List.mem_cons.mp h with rfl | h
    · exact Nat.le_add_right _ _
    · exact (ih h).trans (Nat.le_add_left _ _)

lemma Part.size_lt (h : Part v w) : v.size < w.size := by
  cases h with
  | item h => exact Nat.lt_succ_of_le (size_le_of_item h)
  | field h => exact Nat.lt_succ_of_le (size_le_of_field h)

lemma Within.size_lt (h : Within v w) : v.size < w.size := by
  induction h with
  | single h => exact h.size_lt
  | tail _ h ih => exact ih.trans h.size_lt

lemma properItems_iff {xs : List Value} : ProperItems P xs ↔ ∀ x ∈ xs, x.Proper P := by
  induction xs with
  | nil => simp [ProperItems]
  | cons x xs ih => simp [ProperItems, ih]

lemma properFields_iff {fields : List (String × Value)} :
    ProperFields P fields ↔ ∀ f ∈ fields, f.2.Proper P := by
  induction fields with
  | nil => simp [ProperFields]
  | cons f fields ih => simp [ProperFields, ih]

lemma Part.proper (h : Part v w) (hw : w.Proper P) : v.Proper P := by
  cases h with
  | item h => exact properItems_iff.mp hw _ h
  | field h => exact properFields_iff.mp hw.2 _ h

lemma Within.proper (h : Within v w) (hw : w.Proper P) : v.Proper P := by
  induction h with
  | single h => exact h.proper hw
  | tail _ h ih => exact ih (h.proper hw)

/-! ### Assignments -/

variable {fields : List (String × Value)} {f : String × Value} {key : String} {x : Value}

lemma mem_of_mem_setField (h : f ∈ setField fields key x) : f = (key, x) ∨ f ∈ fields := by
  induction fields with
  | nil => exact .inl (List.mem_singleton.mp h)
  | cons first fields ih =>
    rw [setField] at h
    split at h
    · rcases List.mem_cons.mp h with rfl | h
      · exact .inl rfl
      · exact .inr (List.mem_cons_of_mem _ h)
    · rcases List.mem_cons.mp h with rfl | h
      · exact .inr List.mem_cons_self
      · exact (ih h).imp_right (List.mem_cons_of_mem _)

/-- An assignment keeps what holds of every field. -/
lemma forall_setField {Q : String × Value → Prop} (h : ∀ f ∈ fields, Q f) (hnew : Q (key, x)) :
    ∀ f ∈ setField fields key x, Q f := by
  intro f hf
  rcases mem_of_mem_setField hf with rfl | hf
  · exact hnew
  · exact h f hf

lemma keys_setField_subset (h : f.1 ∈ (setField fields key x).map Prod.fst) :
    f.1 = key ∨ f.1 ∈ fields.map Prod.fst := by
  obtain ⟨g, hg, hkey⟩ := List.mem_map.mp h
  rw [← hkey]
  rcases mem_of_mem_setField hg with rfl | hg
  · exact .inl rfl
  · exact .inr (List.mem_map_of_mem hg)

lemma nodup_setField (h : (fields.map Prod.fst).Nodup) : ((setField fields key x).map Prod.fst).Nodup := by
  induction fields with
  | nil => simp [setField]
  | cons first fields ih =>
    rw [List.map_cons, List.nodup_cons] at h
    rw [setField]
    split
    · rename_i hkey
      rw [List.map_cons, List.nodup_cons]
      exact ⟨hkey ▸ h.1, h.2⟩
    · rename_i hkey
      rw [List.map_cons, List.nodup_cons]
      refine ⟨fun hmem => ?_, ih h.2⟩
      rcases keys_setField_subset hmem with heq | hmem
      · exact hkey heq
      · exact h.1 hmem

end Json.Value
