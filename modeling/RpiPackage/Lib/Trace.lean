import Mathlib.Data.List.Basic
import Mathlib.Tactic.Common

/-!
# Logs of what a machine did

A log grows at its end. What is said of each of its events, given the events before it, is kept by
a step that says it of the events it appends.
-/

namespace Trace

variable {ε : Type*} {Φ Ψ : List ε → ε → Prop} {log log' : List ε} {e : ε}

/-- Every event of the log stands after events that bear it out. -/
def Each (Φ : List ε → ε → Prop) (log : List ε) : Prop :=
  ∀ before e after, log = before ++ e :: after → Φ before e

lemma each_nil : Each Φ [] := by
  intro before e after h
  exact absurd h (by simp)

lemma each_concat : Each Φ (log ++ [e]) ↔ Each Φ log ∧ Φ log e := by
  constructor
  · intro h
    refine ⟨?_, h log e [] rfl⟩
    rintro before e' after rfl
    exact h before e' (after ++ [e]) (by simp)
  · rintro ⟨hlog, he⟩ before e' after heq
    rcases List.eq_nil_or_concat after with rfl | ⟨after, last, rfl⟩
    · obtain ⟨rfl, hlast⟩ := List.append_inj' heq rfl
      obtain rfl := List.head_eq_of_cons_eq hlast
      exact he
    · rw [List.concat_eq_append, ← List.cons_append, ← List.append_assoc] at heq
      exact hlog before e' after (List.append_inj' heq rfl).1

end Trace
