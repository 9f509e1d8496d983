import Mathlib.Data.List.Basic
import Mathlib.Tactic.Common

/-!
# Runs of a state machine

A run folds the step of a machine over its operations. What every step keeps holds after every
run, and what holds at the start of a run and not at its end is lost at one of its steps. Where a
step replies and may have no result, a run gives the replies of its operations.
-/

namespace Run

variable {σ ο : Type*}

/-- The state after some operations. -/
def after (step : σ → ο → σ) (s : σ) (ops : List ο) : σ := ops.foldl step s

/-- Every step of a run meets a condition on the state before it. -/
def Meets (step : σ → ο → σ) (C : σ → ο → Prop) (s : σ) : List ο → Prop
  | [] => True
  | op :: ops => C s op ∧ Meets step C (step s op) ops

section

variable {step : σ → ο → σ}

@[simp] lemma after_nil (s : σ) : after step s [] = s := rfl

@[simp] lemma after_cons (s : σ) (op : ο) (ops : List ο) :
    after step s (op :: ops) = after step (step s op) ops := rfl

@[simp] lemma after_append (s : σ) (ops ops' : List ο) :
    after step s (ops ++ ops') = after step (after step s ops) ops' :=
  List.foldl_append

lemma meets_append {C : σ → ο → Prop} {s : σ} {ops ops' : List ο} :
    Meets step C s (ops ++ ops') ↔ Meets step C s ops ∧ Meets step C (after step s ops) ops' := by
  induction ops generalizing s with
  | nil => simp [Meets]
  | cons op ops ih => simp [Meets, ih, and_assoc]

instance Meets.decidable {C : σ → ο → Prop} [∀ s op, Decidable (C s op)] (s : σ) :
    (ops : List ο) → Decidable (Meets step C s ops)
  | [] => .isTrue trivial
  | op :: ops =>
    have : Decidable (Meets step C (step s op) ops) := Meets.decidable (step s op) ops
    inferInstanceAs (Decidable (C s op ∧ Meets step C (step s op) ops))

lemma Meets.mono {C C' : σ → ο → Prop} (hmono : ∀ s op, C s op → C' s op) {s : σ} {ops : List ο}
    (h : Meets step C s ops) : Meets step C' s ops := by
  induction ops generalizing s with
  | nil => trivial
  | cons op ops ih => exact ⟨hmono s op h.1, ih h.2⟩

/-- Steps that meet a condition keep a property when each of them does. -/
lemma Meets.invariant {P : σ → Prop} {C : σ → ο → Prop}
    (hstep : ∀ s op, P s → C s op → P (step s op)) {s : σ} {ops : List ο} (h : P s)
    (hops : Meets step C s ops) : P (after step s ops) := by
  induction ops generalizing s with
  | nil => exact h
  | cons op ops ih => exact ih (hstep s op h hops.1) hops.2

lemma invariant {P : σ → Prop} (hstep : ∀ s op, P s → P (step s op)) {s : σ} (h : P s)
    (ops : List ο) : P (after step s ops) := by
  induction ops generalizing s with
  | nil => exact h
  | cons op ops ih => exact ih (hstep s op h)

/-- A property lost over a run is lost at one step. -/
lemma exists_breaking_step {P : σ → Prop} {s : σ} {ops : List ο} (h : P s)
    (hlost : ¬P (after step s ops)) :
    ∃ left op right, ops = left ++ op :: right ∧ P (after step s left) ∧
      ¬P (step (after step s left) op) := by
  induction ops generalizing s with
  | nil => exact absurd h hlost
  | cons op ops ih =>
    by_cases hop : P (step s op)
    · obtain ⟨left, op', right, rfl, hleft, hbreak⟩ := ih hop hlost
      exact ⟨op :: left, op', right, rfl, hleft, hbreak⟩
    · exact ⟨[], op, ops, rfl, h, hop⟩

/-- A property that a step establishes and that does not hold later on is lost in between. -/
lemma exists_breaking_step_between {P : σ → Prop} {s : σ} {ops between : List ο} {op : ο}
    (h : P (step (after step s ops) op)) (hlost : ¬P (after step s (ops ++ op :: between))) :
    ∃ left op' right, between = left ++ op' :: right ∧ P (after step s (ops ++ op :: left)) ∧
      ¬P (step (after step s (ops ++ op :: left)) op') := by
  simp only [after_append, after_cons] at hlost ⊢
  exact exists_breaking_step h hlost

/-- What has happened over a run happened before its last step or at it. -/
lemma exists_step_concat {P : List ο → ο → Prop} {ops : List ο} {op : ο} :
    (∃ left op' right, ops ++ [op] = left ++ op' :: right ∧ P left op') ↔
      (∃ left op' right, ops = left ++ op' :: right ∧ P left op') ∨ P ops op := by
  constructor
  · rintro ⟨left, op', right, heq, h⟩
    rcases List.eq_nil_or_concat right with rfl | ⟨right, last, rfl⟩
    · obtain ⟨rfl, hlast⟩ := List.append_inj' heq rfl
      obtain rfl := List.head_eq_of_cons_eq hlast
      exact .inr h
    · rw [List.concat_eq_append, ← List.cons_append, ← List.append_assoc] at heq
      exact .inl ⟨left, op', right, (List.append_inj' heq rfl).1, h⟩
  · rintro (⟨left, op', right, rfl, h⟩ | h)
    · exact ⟨left, op', right ++ [op], by simp, h⟩
    · exact ⟨ops, op, [], rfl, h⟩

end

/-! ### Steps that may have no result -/

section

variable {ρ : Type*}

/-- The replies of some operations and the state after them, if each of them has a result. -/
def replies (step : σ → ο → Option (ρ × σ)) (s : σ) : List ο → Option (List ρ × σ)
  | [] => some ([], s)
  | op :: ops => do
    let (reply, s) ← step s op
    let (rest, s) ← replies step s ops
    return (reply :: rest, s)

/-- Each operation is one that its caller may ask for in the state it finds. -/
def Legal (step : σ → ο → Option (ρ × σ)) (may : σ → ο → Prop) (s : σ) : List ο → Prop
  | [] => True
  | op :: ops => may s op ∧ ∀ r ∈ step s op, Legal step may r.2 ops

variable {step : σ → ο → Option (ρ × σ)} {may : σ → ο → Prop}

instance Legal.decidable [∀ s op, Decidable (may s op)] (s : σ) :
    (ops : List ο) → Decidable (Legal step may s ops)
  | [] => .isTrue trivial
  | op :: ops =>
    have : ∀ r : ρ × σ, Decidable (Legal step may r.2 ops) := fun r => Legal.decidable r.2 ops
    inferInstanceAs (Decidable (may s op ∧ ∀ r, r ∈ step s op → Legal step may r.2 ops))

/-- Where every legal operation has a result and keeps what is said of the past and the state, a
legal run has one. -/
lemma Legal.replies {P : List (ο × ρ) → σ → Prop}
    (hstep : ∀ past s op, P past s → may s op →
      ∃ reply s', step s op = some (reply, s') ∧ P (past ++ [(op, reply)]) s')
    {past : List (ο × ρ)} {s : σ} {ops : List ο} (h : P past s) (hlegal : Legal step may s ops) :
    ∃ rs s', Run.replies step s ops = some (rs, s') ∧ P (past ++ ops.zip rs) s' := by
  induction ops generalizing past s with
  | nil => exact ⟨[], s, rfl, by simpa using h⟩
  | cons op ops ih =>
    obtain ⟨hmay, hrest⟩ := hlegal
    obtain ⟨reply, s', hresult, hs'⟩ := hstep past s op h hmay
    obtain ⟨rs, s'', hrun, hs''⟩ := ih hs' (hrest _ hresult)
    refine ⟨reply :: rs, s'', ?_, by simpa using hs''⟩
    simp only [Run.replies, hresult, hrun, Option.bind_eq_bind, Option.bind_some, Option.pure_def]

end

end Run
