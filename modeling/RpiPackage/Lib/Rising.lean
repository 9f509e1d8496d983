import Mathlib.Data.List.Basic
import Mathlib.Order.Basic
import Mathlib.Tactic.Common

/-!
# Rising logs

A log whose keys rise from each element to the next. Its last element has the largest key, so a
watermark tells how far a reader has come.
-/

namespace Rising

variable {α κ : Type*} [Preorder κ] {key : α → κ} {l left right : List α} {a b : α}

/-- The keys of a log rise. -/
def Rises (key : α → κ) (l : List α) : Prop := l.Pairwise fun a b => key a < key b

lemma rises_nil (key : α → κ) : Rises key [] := List.Pairwise.nil

lemma rises_append : Rises key (left ++ right) ↔
    Rises key left ∧ Rises key right ∧ ∀ a ∈ left, ∀ b ∈ right, key a < key b :=
  List.pairwise_append

lemma rises_append_singleton :
    Rises key (l ++ [a]) ↔ Rises key l ∧ ∀ b ∈ l, key b < key a := by
  rw [rises_append]
  constructor
  · rintro ⟨hl, -, hlt⟩
    exact ⟨hl, fun b hb => hlt b hb a (List.mem_singleton_self a)⟩
  · rintro ⟨hl, hlt⟩
    refine ⟨hl, List.pairwise_singleton _ a, ?_⟩
    intro b hb c hc
    rw [List.mem_singleton.mp hc]
    exact hlt b hb

lemma exists_concat_of_getLast? (h : l.getLast? = some a) : ∃ init, l = init ++ [a] := by
  rcases List.eq_nil_or_concat l with rfl | ⟨init, last, rfl⟩
  · cases h
  · rw [List.concat_eq_append, List.getLast?_concat] at h
    obtain rfl := Option.some.inj h
    exact ⟨init, List.concat_eq_append⟩

/-- The last key is the largest. -/
lemma Rises.le_last (h : Rises key l) (hlast : l.getLast? = some a) (hb : b ∈ l) :
    key b ≤ key a := by
  obtain ⟨init, rfl⟩ := exists_concat_of_getLast? hlast
  rcases List.mem_append.mp hb with hb | hb
  · exact le_of_lt ((rises_append_singleton.mp h).2 b hb)
  · rw [List.mem_singleton.mp hb]

lemma Rises.lt_last (h : Rises key l) (hlast : l.getLast? = some a) {i : Nat}
    (hb : l[i]? = some b) (hi : i + 1 < l.length) : key b < key a := by
  obtain ⟨init, rfl⟩ := exists_concat_of_getLast? hlast
  rw [List.length_append, List.length_singleton, Nat.add_lt_add_iff_right] at hi
  rw [List.getElem?_append_left hi] at hb
  exact (rises_append_singleton.mp h).2 b (List.mem_of_getElem? hb)

lemma getLast?_of_getElem? {i : Nat} (ha : l[i]? = some a) (hi : l.length ≤ i + 1) :
    l.getLast? = some a := by
  obtain ⟨hlt, -⟩ := List.getElem?_eq_some_iff.mp ha
  rw [List.getLast?_eq_getElem?, show l.length - 1 = i by omega]
  exact ha

/-- The elements above a watermark end as the log does, if its last one is above it. -/
lemma getLast?_filter {p : α → Bool} (hlast : l.getLast? = some a) (ha : p a = true) :
    (l.filter p).getLast? = some a := by
  obtain ⟨init, rfl⟩ := exists_concat_of_getLast? hlast
  rw [List.filter_append, List.filter_cons_of_pos ha, List.filter_nil, List.getLast?_concat]

lemma getLast?_drop {n : Nat} (hlast : l.getLast? = some a) (hn : n < l.length) :
    (l.drop n).getLast? = some a := by
  rw [List.getLast?_drop, if_neg (by omega)]
  exact hlast

/-! ### Bounded logs -/

/-- The newest elements of a log, up to a number of them. -/
def newest (n : Nat) (l : List α) : List α := l.drop (l.length - n)

lemma newest_nil (n : Nat) : newest n ([] : List α) = [] := List.drop_nil

lemma mem_of_mem_newest {n : Nat} (h : a ∈ newest n l) : a ∈ l := List.mem_of_mem_drop h

/-- A log that is bounded after each element keeps the newest ones. -/
lemma newest_append (n : Nat) (l : List α) (a : α) :
    newest n (newest n l ++ [a]) = newest n (l ++ [a]) := by
  unfold newest
  rw [← List.drop_append_of_le_length (Nat.sub_le _ _), List.drop_drop]
  congr 1
  simp only [List.length_drop, List.length_append, List.length_singleton]
  omega

lemma getLast?_newest {n : Nat} (hn : 0 < n) (hlast : l.getLast? = some a) :
    (newest n l).getLast? = some a := by
  refine getLast?_drop hlast ?_
  have hpos : 0 < l.length := by
    rw [List.length_pos_iff]
    rintro rfl
    cases hlast
  omega

end Rising
