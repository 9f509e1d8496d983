import Mathlib.Data.List.Infix
import Mathlib.Tactic.Common

/-!
# Patterns with a wildcard

What a pattern stands for when one letter of it stands for any text, and the smaller relation of
a matcher that takes that letter of a pattern for itself whenever the text has it there.
-/

namespace Glob

variable {α : Type*} (star : α)

/-- The text is split so that each wildcard stands for a piece of it and each other letter for
itself. -/
inductive Matches : List α → List α → Prop
  | nil : Matches [] []
  | letter {a : α} {p t : List α} : a ≠ star → Matches p t → Matches (a :: p) (a :: t)
  | wild (piece : List α) {p t : List α} : Matches p t → Matches (star :: p) (piece ++ t)

/-- The text is split so that each wildcard that meets a wildcard in the text stands for just that
one. -/
inductive Takes : List α → List α → Prop
  | nil : Takes [] []
  | same {a : α} {p t : List α} : Takes p t → Takes (a :: p) (a :: t)
  | wild (piece : List α) {p t : List α} : (piece ++ t).head? ≠ some star → Takes p t →
      Takes (star :: p) (piece ++ t)

variable {star} {a : α} {p t : List α}

lemma Takes.matches (h : Takes star p t) : Matches star p t := by
  classical
  induction h with
  | nil => exact .nil
  | @same a p t _ ih =>
    by_cases ha : a = star
    · subst ha
      exact .wild [a] ih
    · exact .letter ha ih
  | wild piece _ _ ih => exact .wild piece ih

lemma takes_nil_left : Takes star [] t ↔ t = [] := by
  constructor
  · rintro ⟨⟩
    rfl
  · rintro rfl
    exact .nil

lemma takes_same : Takes star (star :: p) (star :: t) ↔ Takes star p t := by
  constructor
  · intro h
    generalize hu : star :: t = u at h
    cases h with
    | same h => exact (List.cons.inj hu).2 ▸ h
    | wild piece hhead h => exact absurd (hu ▸ rfl) hhead
  · exact .same

lemma takes_letter (ha : a ≠ star) : Takes star (a :: p) t ↔ ∃ u, t = a :: u ∧ Takes star p u := by
  constructor
  · intro h
    cases h with
    | same h => exact ⟨_, rfl, h⟩
    | wild piece _ _ => exact absurd rfl ha
  · rintro ⟨u, rfl, h⟩
    exact .same h

/-- A wildcard that meets none stands for any piece. -/
lemma takes_wild (ht : t.head? ≠ some star) :
    Takes star (star :: p) t ↔ ∃ u, u <:+ t ∧ Takes star p u := by
  constructor
  · intro h
    cases h with
    | same h => exact absurd rfl ht
    | wild piece _ h => exact ⟨_, List.suffix_append _ _, h⟩
  · rintro ⟨u, ⟨piece, rfl⟩, h⟩
    exact .wild piece ht h

lemma takes_nil_right : Takes star p [] ↔ ∀ a ∈ p, a = star := by
  induction p with
  | nil => simp [takes_nil_left]
  | cons a p ih =>
    rw [List.forall_mem_cons, ← ih]
    by_cases ha : a = star
    · subst ha
      rw [takes_wild (by simp)]
      simp
    · rw [takes_letter ha]
      simp [ha]

/-- What was matched letter by letter need not be matched again from a later place: whatever the
whole pattern makes of a later end of the text, its rest makes of an end of what is left. -/
lemma exists_suffix_of_takes {same rest : List α} (hsuffix : t <:+ same ++ rest)
    (h : Takes star (same ++ p) t) : ∃ u, u <:+ rest ∧ Takes star p u := by
  induction same generalizing t with
  | nil => exact ⟨t, hsuffix, h⟩
  | cons a same ih =>
    generalize hq : a :: same ++ p = q at h
    cases h with
    | nil => exact absurd hq (by simp)
    | @same b q t h =>
      obtain ⟨rfl, rfl⟩ := List.cons.inj hq
      obtain ⟨before, hbefore⟩ := hsuffix
      refine ih ?_ h
      cases before with
      | nil => exact (List.cons.inj hbefore).2 ▸ List.suffix_refl _
      | cons x before => exact ⟨before ++ [a], by simpa using (List.cons.inj hbefore).2⟩
    | @wild piece q t hhead h =>
      obtain ⟨rfl, rfl⟩ := List.cons.inj hq
      refine ih ?_ h
      obtain ⟨before, hbefore⟩ := hsuffix
      cases before with
      | nil => exact absurd (by rw [show piece ++ t = _ from hbefore]; rfl) hhead
      | cons x before => exact ⟨before ++ piece, by simpa using (List.cons.inj hbefore).2⟩

end Glob
