import Mathlib.Data.List.Nodup
import Mathlib.Data.List.Range
import Mathlib.Tactic.Common

/-!
# Numbered logs

Numbers are handed out one by one, and what they are handed out for is settled one by one. As long
as the smallest outstanding number is settled first, the log of the settled ones is numbered without
a gap.
-/

namespace Numbered

variable {α : Type*}

/-! ### Consecutive numbers -/

/-- The elements of a list are numbered one after another. -/
def Consecutive (key : α → Nat) (first : Nat) (l : List α) : Prop :=
  l.map key = List.range' first l.length

section

variable {key : α → Nat} {first : Nat} {l : List α}

lemma consecutive_nil (key : α → Nat) (first : Nat) : Consecutive key first [] := rfl

lemma Consecutive.append_singleton (h : Consecutive key first l) {a : α}
    (ha : key a = first + l.length) : Consecutive key first (l ++ [a]) := by
  unfold Consecutive at h ⊢
  rw [List.map_append, h, List.length_append, List.length_singleton, List.range'_concat, Nat.one_mul,
    ← ha]
  rfl

lemma Consecutive.getElem? (h : Consecutive key first l) {i : Nat} {a : α} (ha : l[i]? = some a) :
    key a = first + i := by
  obtain ⟨hi, rfl⟩ := List.getElem?_eq_some_iff.mp ha
  have hget : (l.map key)[i]? = (List.range' first l.length)[i]? := by rw [h]
  rw [List.getElem?_map, List.getElem?_eq_getElem hi, List.getElem?_range' hi] at hget
  simpa using hget

lemma Consecutive.mem (h : Consecutive key first l) {a : α} (ha : a ∈ l) :
    first ≤ key a ∧ key a < first + l.length := by
  have hmem : key a ∈ l.map key := List.mem_map_of_mem ha
  rwa [h, List.mem_range'_1] at hmem

lemma Consecutive.drop (h : Consecutive key first l) (n : Nat) :
    Consecutive key (first + n) (l.drop n) := by
  unfold Consecutive at h ⊢
  rw [List.map_drop, h, List.drop_range', List.length_drop, Nat.mul_one]

lemma Consecutive.take (h : Consecutive key first l) (n : Nat) :
    Consecutive key first (l.take n) := by
  unfold Consecutive at h ⊢
  rw [List.map_take, h, List.length_take]
  rcases Nat.le_total n l.length with hn | hn
  · rw [List.take_range'_of_length_ge hn, Nat.min_eq_left hn]
  · rw [List.take_range'_of_length_le hn, Nat.min_eq_right hn]

/-- The elements after a number are those that are left when the others are dropped. -/
lemma Consecutive.filter_lt (h : Consecutive key first l) (n : Nat) :
    l.filter (fun a => decide (n < key a)) = l.drop (n + 1 - first) := by
  induction l generalizing first with
  | nil => simp
  | cons a l ih =>
    have ha : key a = first := by simpa using h.getElem? (i := 0) rfl
    have hl : Consecutive key (first + 1) l := h.drop 1
    by_cases hn : n < key a
    · rw [List.filter_cons_of_pos (by simpa using hn), ih hl,
        show n + 1 - (first + 1) = 0 by omega, show n + 1 - first = 0 by omega]
      rfl
    · rw [List.filter_cons_of_neg (by simpa using hn), ih hl,
        show n + 1 - first = n + 1 - (first + 1) + 1 by omega, List.drop_succ_cons]

end

/-! ### Outstanding numbers -/

/-- The numbers that have been handed out and not been settled yet. -/
structure Outstanding (numbers : List Nat) (settled issued : Nat) : Prop where
  nodup : numbers.Nodup
  mem : ∀ n, n ∈ numbers ↔ settled < n ∧ n ≤ issued

section

variable {numbers before after : List Nat} {settled issued n : Nat}

lemma outstanding_nil (n : Nat) : Outstanding [] n n :=
  ⟨List.nodup_nil, fun m => by simp only [List.not_mem_nil, false_iff]; omega⟩

lemma Outstanding.issue (h : Outstanding numbers settled issued) (hle : settled ≤ issued) :
    Outstanding (numbers ++ [issued + 1]) settled (issued + 1) := by
  constructor
  · rw [List.nodup_append]
    refine ⟨h.nodup, List.nodup_singleton _, fun m hm k hk => ?_⟩
    have hle := ((h.mem m).mp hm).2
    rw [List.mem_singleton] at hk
    omega
  · intro m
    rw [List.mem_append, h.mem, List.mem_singleton]
    omega

/-- Settling the smallest outstanding number leaves no gap. -/
lemma Outstanding.settle (h : Outstanding (before ++ n :: after) settled issued)
    (hmin : ∀ m ∈ before ++ after, n ≤ m) :
    n = settled + 1 ∧ n ≤ issued ∧ Outstanding (before ++ after) (settled + 1) issued := by
  have hn := (h.mem n).mp (by simp)
  have hnodup := h.nodup
  rw [List.nodup_middle, List.nodup_cons] at hnodup
  have hmem : ∀ m, m ∈ before ++ n :: after ↔ m = n ∨ m ∈ before ++ after := by
    intro m
    simp only [List.mem_append, List.mem_cons]
    tauto
  have hfirst : n = settled + 1 := by
    have hnext := (h.mem (settled + 1)).mpr (by omega)
    rcases (hmem _).mp hnext with heq | hother
    · exact heq.symm
    · have hle := hmin _ hother
      omega
  refine ⟨hfirst, hn.2, hnodup.2, fun m => ?_⟩
  constructor
  · intro hm
    have hbound := (h.mem m).mp ((hmem m).mpr (.inr hm))
    have hne : m ≠ n := fun heq => hnodup.1 (heq ▸ hm)
    omega
  · intro hm
    rcases (hmem m).mp ((h.mem m).mpr (by omega)) with heq | hother
    · omega
    · exact hother

end

/-! ### Numbers that are handed out in blocks -/

section

variable {count count' : α → Nat} {prints : α → Bool} {a : α} {as : List α}
  {n k m : Nat}

/-- The numbers of the blocks that print theirs, counted from `n` on. -/
def numbersFrom (count : α → Nat) (prints : α → Bool) (n : Nat) : List α → List Nat
  | [] => []
  | a :: as =>
    (if prints a then List.range' n (count a) else []) ++ numbersFrom count prints (n + count a) as

lemma mem_numbersFrom_cons :
    m ∈ numbersFrom count prints n (a :: as) ↔
      (prints a = true ∧ n ≤ m ∧ m < n + count a) ∨
        m ∈ numbersFrom count prints (n + count a) as := by
  rw [numbersFrom, List.mem_append]
  apply or_congr_left
  cases prints a with
  | true => simp [List.mem_range'_1]
  | false => simp

lemma le_of_mem_numbersFrom (h : m ∈ numbersFrom count prints n as) : n ≤ m := by
  induction as generalizing n with
  | nil => exact absurd h List.not_mem_nil
  | cons a as ih =>
    rcases mem_numbersFrom_cons.mp h with ⟨-, hle, -⟩ | htail
    · exact hle
    · exact (Nat.le_add_right _ _).trans (ih htail)

lemma numbersFrom_eq_nil (h : ∀ a ∈ as, prints a = true → count a = 0) :
    numbersFrom count prints n as = [] := by
  induction as generalizing n with
  | nil => rfl
  | cons a as ih =>
    unfold numbersFrom
    rw [ih fun b hb => h b (List.mem_cons_of_mem a hb), List.append_nil]
    split
    next hprints => rw [h a List.mem_cons_self hprints, List.range'_zero]
    next => rfl

section

variable (hle : ∀ a, count a ≤ count' a)

include hle

/-- The numbers of the later blocks come from the later blocks. -/
lemma numbersFrom_tail (hnk : n ≤ k)
    (h : ∀ m ∈ numbersFrom count' prints k (a :: as), m ∈ numbersFrom count prints n (a :: as)) :
    ∀ m ∈ numbersFrom count' prints (k + count' a) as,
      m ∈ numbersFrom count prints (n + count a) as := by
  intro m hm
  have hbound := le_of_mem_numbersFrom hm
  have hcount := hle a
  rcases mem_numbersFrom_cons.mp (h m (mem_numbersFrom_cons.mpr (.inr hm))) with ⟨-, -, hlt⟩ | htail
  · omega
  · exact htail

/-- When a smaller count hands out all numbers, nothing is missing up to the last block that
prints a number. -/
lemma count_eq_of_numbersFrom (hnk : n ≤ k)
    (h : ∀ m ∈ numbersFrom count' prints k (a :: as), m ∈ numbersFrom count prints n (a :: as))
    (hlast : ∃ b ∈ a :: as, prints b = true ∧ 0 < count' b) : n = k ∧ count a = count' a := by
  have hcount := hle a
  induction as generalizing a n k with
  | nil =>
    obtain ⟨b, hb, hprints, hpos⟩ := hlast
    obtain rfl := List.mem_singleton.mp hb
    have hmem := h (k + count' b - 1)
      (mem_numbersFrom_cons.mpr (.inl ⟨hprints, by omega, by omega⟩))
    rcases mem_numbersFrom_cons.mp hmem with ⟨-, -, hlt⟩ | htail
    · omega
    · exact absurd htail List.not_mem_nil
  | cons a' as ih =>
    by_cases htail : ∃ b ∈ a' :: as, prints b = true ∧ 0 < count' b
    · have hnext := ih (by omega) (numbersFrom_tail hle hnk h) htail (hle a')
      omega
    · have hnil : numbersFrom count prints (n + count a) (a' :: as) = [] := by
        apply numbersFrom_eq_nil
        intro b hb hprints
        have hzero : ¬0 < count' b := fun hpos => htail ⟨b, hb, hprints, hpos⟩
        have := hle b
        omega
      obtain ⟨b, hb, hprints, hpos⟩ := hlast
      rcases List.mem_cons.mp hb with rfl | hb
      · have hmem := h (k + count' b - 1)
          (mem_numbersFrom_cons.mpr (.inl ⟨hprints, by omega, by omega⟩))
        rcases mem_numbersFrom_cons.mp hmem with ⟨-, -, hlt⟩ | hrest
        · omega
        · rw [hnil] at hrest
          exact absurd hrest List.not_mem_nil
      · exact absurd ⟨b, hb, hprints, hpos⟩ htail

lemma count_eq_of_split {before after : List α} (hnk : n ≤ k)
    (h : ∀ m ∈ numbersFrom count' prints k (before ++ a :: after),
      m ∈ numbersFrom count prints n (before ++ a :: after))
    (hlast : ∃ b ∈ a :: after, prints b = true ∧ 0 < count' b) : count a = count' a := by
  induction before generalizing n k with
  | nil => exact (count_eq_of_numbersFrom hle hnk h hlast).2
  | cons b before ih =>
    have hcount := hle b
    exact ih (by omega) (numbersFrom_tail hle hnk h)

end

end

end Numbered
