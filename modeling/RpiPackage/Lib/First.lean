import Mathlib.Data.List.Forall2
import Mathlib.Tactic.Common

/-!
# A change of the first item

What a program does to the first item of a list that passes a test, with the rest left alone.
-/

namespace First

variable {α β : Type*}

def update (p : α → Bool) (f : α → α) : List α → List α
  | [] => []
  | x :: xs => if p x then f x :: xs else x :: update p f xs

variable {p : α → Bool} {f : α → α} {xs : List α}

/-- Either nothing passes the test, or the list splits at the first item that does. -/
lemma update_cases (p : α → Bool) (f : α → α) (xs : List α) :
    (∀ x ∈ xs, p x = false) ∧ update p f xs = xs ∨
      ∃ left x right, xs = left ++ x :: right ∧ p x = true ∧ (∀ y ∈ left, p y = false) ∧
        update p f xs = left ++ f x :: right := by
  induction xs with
  | nil => exact .inl ⟨by simp, rfl⟩
  | cons x xs ih =>
    by_cases hx : p x = true
    · exact .inr ⟨[], x, xs, rfl, hx, by simp, by simp [update, hx]⟩
    · rcases ih with ⟨hnone, heq⟩ | ⟨left, y, right, rfl, hy, hleft, heq⟩
      · exact .inl ⟨by simpa [hx] using hnone, by rw [update, if_neg hx, heq]⟩
      · refine .inr ⟨x :: left, y, right, rfl, hy, by simpa [hx] using hleft, ?_⟩
        rw [update, if_neg hx, heq]
        rfl

/-- What the change leaves alone reads the same in the whole list. -/
lemma map_update {k : α → β} (hf : ∀ x ∈ xs, p x = true → k (f x) = k x) :
    (update p f xs).map k = xs.map k := by
  rcases update_cases p f xs with ⟨-, heq⟩ | ⟨left, x, right, rfl, hx, -, heq⟩
  · rw [heq]
  · rw [heq, List.map_append, List.map_append, List.map_cons, List.map_cons,
      hf x (by simp) hx]

lemma filter_update {q : α → Bool} (hf : ∀ x, q (f x) = q x) (hp : ∀ x, p x = true → q x = true) :
    (update p f xs).filter q = update p f (xs.filter q) := by
  induction xs with
  | nil => rfl
  | cons x xs ih =>
    by_cases hx : p x = true
    · rw [update, if_pos hx, List.filter_cons_of_pos (by rw [hf, hp x hx]),
        List.filter_cons_of_pos (hp x hx), update, if_pos hx]
    · rw [update, if_neg hx]
      by_cases hq : q x = true
      · rw [List.filter_cons_of_pos hq, List.filter_cons_of_pos hq, update, if_neg hx, ih]
      · rw [List.filter_cons_of_neg hq, List.filter_cons_of_neg hq, ih]

/-- A change in place, item by item. -/
lemma forall₂_update {R : α → α → Prop} (hrefl : ∀ x ∈ xs, R x x)
    (hf : ∀ x ∈ xs, p x = true → R x (f x)) : List.Forall₂ R xs (update p f xs) := by
  induction xs with
  | nil => exact .nil
  | cons x xs ih =>
    rw [update]
    split
    · rename_i hx
      refine .cons (hf x List.mem_cons_self hx) ?_
      exact List.forall₂_same.mpr fun y hy => hrefl y (List.mem_cons_of_mem _ hy)
    · exact .cons (hrefl x List.mem_cons_self)
        (ih (fun y hy => hrefl y (List.mem_cons_of_mem _ hy))
          fun y hy => hf y (List.mem_cons_of_mem _ hy))

lemma mem_or_of_mem_update {y : α} (hy : y ∈ update p f xs) :
    y ∈ xs ∨ ∃ x ∈ xs, p x = true ∧ y = f x := by
  rcases update_cases p f xs with ⟨-, heq⟩ | ⟨left, x, right, rfl, hx, -, heq⟩
  · exact .inl (heq ▸ hy)
  · rw [heq, List.mem_append, List.mem_cons] at hy
    rcases hy with hy | rfl | hy
    · exact .inl (by simp [hy])
    · exact .inr ⟨x, by simp, hx, rfl⟩
    · exact .inl (by simp [hy])

/-- Among items with distinct keys, the one with the key is changed and the others are not. -/
lemma mem_update {κ : Type*} [BEq κ] [LawfulBEq κ] {k : α → κ} {a : κ} {y : α}
    (hkeys : (xs.map k).Nodup) (hy : y ∈ update (fun x => k x == a) f xs) :
    y ∈ xs ∧ k y ≠ a ∨ ∃ x ∈ xs, k x = a ∧ y = f x := by
  rcases update_cases (fun x => k x == a) f xs with ⟨hnone, heq⟩ | ⟨left, x, right, rfl, hx, hleft, heq⟩
  · rw [heq] at hy
    exact .inl ⟨hy, by simpa using hnone y hy⟩
  · obtain rfl : k x = a := by simpa using hx
    rw [heq, List.mem_append, List.mem_cons] at hy
    rw [List.map_append, List.map_cons, List.nodup_append, List.nodup_cons] at hkeys
    rcases hy with hy | rfl | hy
    · exact .inl ⟨List.mem_append_left _ hy, by simpa using hleft y hy⟩
    · exact .inr ⟨x, by simp, rfl, rfl⟩
    · refine .inl ⟨by simp [hy], fun heq => hkeys.2.1.1 ?_⟩
      exact heq ▸ List.mem_map_of_mem hy

lemma map_eq_of_forall₂ {R : α → α → Prop} {k : α → β} {ys : List α}
    (hk : ∀ x y, R x y → k y = k x) (h : List.Forall₂ R xs ys) : ys.map k = xs.map k := by
  induction h with
  | nil => rfl
  | cons hxy _ ih => rw [List.map_cons, List.map_cons, hk _ _ hxy, ih]

lemma exists_of_forall₂ {R : α → β → Prop} {ys : List β} {y : β}
    (h : List.Forall₂ R xs ys) (hy : y ∈ ys) : ∃ x ∈ xs, R x y := by
  induction h with
  | nil => cases hy
  | cons hxy _ ih =>
    rcases List.mem_cons.mp hy with rfl | hy
    · exact ⟨_, List.mem_cons_self, hxy⟩
    · obtain ⟨x, hx, hR⟩ := ih hy
      exact ⟨x, List.mem_cons_of_mem _ hx, hR⟩

end First
