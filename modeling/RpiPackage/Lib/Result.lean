import Mathlib.Data.List.Basic
import Mathlib.Tactic.Common

/-!
# Fallible computations

How `Except` computations come apart: a sequence of steps succeeds exactly when every step does,
and a traversal of a list succeeds exactly when every element does.
-/

namespace Result

universe u v

variable {ε : Type u} {α β : Type v}

@[simp] lemma ok_bind (a : α) (f : α → Except ε β) : (Except.ok a >>= f) = f a := rfl

@[simp] lemma error_bind (e : ε) (f : α → Except ε β) :
    ((Except.error e : Except ε α) >>= f) = .error e := rfl

@[simp] lemma pure_eq_ok (a : α) : (pure a : Except ε α) = .ok a := rfl

@[simp] lemma throw_eq_error (e : ε) : (throw e : Except ε α) = .error e := rfl

@[simp] lemma map_ok (f : α → β) (a : α) : f <$> (Except.ok a : Except ε α) = .ok (f a) := rfl

@[simp] lemma map_error (f : α → β) (e : ε) :
    f <$> (Except.error e : Except ε α) = .error e := rfl

lemma bind_eq_ok {x : Except ε α} {f : α → Except ε β} {b : β} :
    (x >>= f) = .ok b ↔ ∃ a, x = .ok a ∧ f a = .ok b := by
  cases x <;> simp

lemma exists_punit {p : PUnit → Prop} : (∃ u, p u) ↔ p ⟨⟩ :=
  ⟨fun ⟨_, h⟩ => h, fun h => ⟨_, h⟩⟩

lemma map_eq_ok {x : Except ε α} {f : α → β} {b : β} :
    f <$> x = .ok b ↔ ∃ a, x = .ok a ∧ f a = b := by
  cases x <;> simp

/-- A check followed by more work. -/
lemma check_bind_eq_ok {x : Except ε PUnit} {f : PUnit → Except ε β} {b : β} :
    (x >>= f) = .ok b ↔ x = .ok ⟨⟩ ∧ f ⟨⟩ = .ok b := by
  cases x <;> simp

/-- A check that may only fail: it succeeds when its condition does not hold. -/
@[simp] lemma ite_error_eq_ok {c : Prop} [Decidable c] {e : ε} {x : Except ε α} {a : α} :
    (if c then .error e else x) = .ok a ↔ ¬c ∧ x = .ok a := by
  split <;> simp_all

@[simp] lemma ite_else_error_eq_ok {c : Prop} [Decidable c] {e : ε} {x : Except ε α} {a : α} :
    (if c then x else .error e) = .ok a ↔ c ∧ x = .ok a := by
  split <;> simp_all

@[simp] lemma mapError_eq_ok {ε' : Type u} {f : ε → ε'} {x : Except ε α} {a : α} :
    x.mapError f = .ok a ↔ x = .ok a := by
  cases x <;> simp [Except.mapError]

/-- `if c { return Err(e) }`. -/
def failIf (c : Prop) [Decidable c] (e : ε) : Except ε Unit := if c then .error e else .ok ()

@[simp] lemma failIf_eq_ok {c : Prop} [Decidable c] {e : ε} {u : Unit} :
    failIf c e = .ok u ↔ ¬c := by
  simp [failIf]

/-- The failure that occurs, if one does. -/
def failWith (o : Option ε) : Except ε Unit :=
  match o with
  | some e => .error e
  | none => .ok ()

@[simp] lemma failWith_eq_ok {o : Option ε} {u : Unit} : failWith o = .ok u ↔ o = none := by
  cases o <;> simp [failWith]

/-- `Option::ok_or`. -/
def okOr (o : Option α) (e : ε) : Except ε α :=
  match o with
  | some a => .ok a
  | none => .error e

@[simp] lemma okOr_eq_ok {o : Option α} {e : ε} {a : α} : okOr o e = .ok a ↔ o = some a := by
  cases o <;> simp [okOr]

/-- A check of every element. -/
lemma forM_eq_ok {α : Type*} {f : α → Except ε PUnit} {as : List α} :
    as.forM f = .ok ⟨⟩ ↔ ∀ a ∈ as, f a = .ok ⟨⟩ := by
  induction as with
  | nil => exact ⟨fun _ _ ha => absurd ha List.not_mem_nil, fun _ => rfl⟩
  | cons a as ih =>
    show (f a >>= fun _ => as.forM f) = .ok ⟨⟩ ↔ _
    rw [check_bind_eq_ok, ih, List.forall_mem_cons]

/-- A traversal succeeds with the list it was built from. -/
lemma mapM_map_ok {γ : Type v} {f : β → Except ε γ} {g : γ → β} (h : ∀ c, f (g c) = .ok c)
    (cs : List γ) : (cs.map g).mapM f = .ok cs := by
  induction cs with
  | nil => rfl
  | cons c cs ih => rw [List.map_cons, List.mapM_cons, h c, ih]; rfl

lemma mapM_append_ok {f : α → Except ε β} {as as' : List α} {bs bs' : List β}
    (h : as.mapM f = .ok bs) (h' : as'.mapM f = .ok bs') :
    (as ++ as').mapM f = .ok (bs ++ bs') := by
  rw [List.mapM_append, h, h']
  rfl

lemma mapM_cons_eq_ok {f : α → Except ε β} {a : α} {as : List α} {bs : List β} :
    (a :: as).mapM f = .ok bs ↔ ∃ b bs', f a = .ok b ∧ as.mapM f = .ok bs' ∧ bs = b :: bs' := by
  rw [List.mapM_cons, bind_eq_ok]
  constructor
  · rintro ⟨b, hb, h⟩
    obtain ⟨bs', hbs, h⟩ := bind_eq_ok.mp h
    exact ⟨b, bs', hb, hbs, (Except.ok.inj h).symm⟩
  · rintro ⟨b, bs', hb, hbs, rfl⟩
    exact ⟨b, hb, bind_eq_ok.mpr ⟨bs', hbs, rfl⟩⟩

lemma mapM_append_eq_ok {f : α → Except ε β} {as as' : List α} {bs : List β} :
    (as ++ as').mapM f = .ok bs ↔
      ∃ bs₁ bs₂, as.mapM f = .ok bs₁ ∧ as'.mapM f = .ok bs₂ ∧ bs = bs₁ ++ bs₂ := by
  rw [List.mapM_append, bind_eq_ok]
  constructor
  · rintro ⟨bs₁, h₁, h⟩
    obtain ⟨bs₂, h₂, h⟩ := bind_eq_ok.mp h
    exact ⟨bs₁, bs₂, h₁, h₂, (Except.ok.inj h).symm⟩
  · rintro ⟨bs₁, bs₂, h₁, h₂, rfl⟩
    exact ⟨bs₁, h₁, bind_eq_ok.mpr ⟨bs₂, h₂, rfl⟩⟩

lemma length_of_mapM_eq_ok {f : α → Except ε β} {as : List α} {bs : List β}
    (h : as.mapM f = .ok bs) : bs.length = as.length := by
  induction as generalizing bs with
  | nil =>
    obtain rfl := Except.ok.inj h
    rfl
  | cons a as ih =>
    obtain ⟨b, bs', -, hbs, rfl⟩ := mapM_cons_eq_ok.mp h
    rw [List.length_cons, List.length_cons, ih hbs]

lemma mapM_eq_ok_append {f : α → Except ε β} {as : List α} {bs₁ bs₂ : List β} {b : β}
    (h : as.mapM f = .ok (bs₁ ++ b :: bs₂)) :
    ∃ as₁ a as₂, as = as₁ ++ a :: as₂ ∧ f a = .ok b ∧ as₂.mapM f = .ok bs₂ := by
  induction bs₁ generalizing as with
  | nil =>
    cases as with
    | nil => cases h
    | cons a as =>
      obtain ⟨b', bs', ha, has, heq⟩ := mapM_cons_eq_ok.mp h
      obtain ⟨rfl, rfl⟩ := List.cons.inj heq
      exact ⟨[], a, as, rfl, ha, has⟩
  | cons c bs₁ ih =>
    cases as with
    | nil => cases h
    | cons a as =>
      obtain ⟨b', bs', ha, has, heq⟩ := mapM_cons_eq_ok.mp h
      rw [List.cons_append, List.cons.injEq] at heq
      obtain ⟨-, rfl⟩ := heq
      obtain ⟨as₁, a', as₂, rfl, ha', has₂⟩ := ih has
      exact ⟨a :: as₁, a', as₂, rfl, ha', has₂⟩

lemma mem_of_mapM_eq_ok {f : α → Except ε β} {as : List α} {bs : List β} (h : as.mapM f = .ok bs) :
    (∀ a ∈ as, ∃ b ∈ bs, f a = .ok b) ∧ ∀ b ∈ bs, ∃ a ∈ as, f a = .ok b := by
  induction as generalizing bs with
  | nil =>
    obtain rfl := Except.ok.inj h
    simp
  | cons a as ih =>
    obtain ⟨b, bs', ha, has, rfl⟩ := mapM_cons_eq_ok.mp h
    obtain ⟨h₁, h₂⟩ := ih has
    constructor
    · intro a' ha'
      rcases List.mem_cons.mp ha' with rfl | ha'
      · exact ⟨b, List.mem_cons_self, ha⟩
      · obtain ⟨b', hb', heq⟩ := h₁ a' ha'
        exact ⟨b', List.mem_cons_of_mem _ hb', heq⟩
    · intro b' hb'
      rcases List.mem_cons.mp hb' with rfl | hb'
      · exact ⟨a, List.mem_cons_self, ha⟩
      · obtain ⟨a', ha', heq⟩ := h₂ b' hb'
        exact ⟨a', List.mem_cons_of_mem _ ha', heq⟩

/-- What every step of a fallible fold keeps. -/
lemma foldlM_keeps {σ β : Type*} {ε : Type*} {f : σ → β → Except ε σ} {P : σ → Prop} {l : List β}
    (hstep : ∀ b ∈ l, ∀ s t, P s → f s b = .ok t → P t) {s t : σ} (h : P s)
    (hfold : l.foldlM f s = .ok t) : P t := by
  induction l generalizing s with
  | nil =>
    obtain rfl := Except.ok.inj hfold
    exact h
  | cons b l ih =>
    rw [List.foldlM_cons] at hfold
    obtain ⟨u, hfirst, hrest⟩ := bind_eq_ok.mp hfold
    exact ih (fun b' hb' => hstep b' (List.mem_cons_of_mem _ hb'))
      (hstep b List.mem_cons_self s u h hfirst) hrest

/-- A fold over some of the elements follows the fold over all of them, where the others make no
difference. -/
lemma foldlM_filter_follows {σ β : Type*} {ε : Type*} {f g : σ → β → Except ε σ}
    {R : σ → σ → Prop} {p : β → Bool} {l : List β}
    (hkeep : ∀ b ∈ l, p b = true → ∀ s t u, R s t → f s b = .ok u →
      ∃ v, g t b = .ok v ∧ R u v)
    (hdrop : ∀ b ∈ l, p b = false → ∀ s t u, R s t → f s b = .ok u → R u t)
    {s t u : σ} (h : R s t) (hfold : l.foldlM f s = .ok u) :
    ∃ v, (l.filter p).foldlM g t = .ok v ∧ R u v := by
  induction l generalizing s t with
  | nil =>
    obtain rfl := Except.ok.inj hfold
    exact ⟨t, rfl, h⟩
  | cons b l ih =>
    rw [List.foldlM_cons] at hfold
    obtain ⟨w, hfirst, hrest⟩ := bind_eq_ok.mp hfold
    have hlater : ∀ v, R w v → ∃ v', (l.filter p).foldlM g v = .ok v' ∧ R u v' :=
      fun v hR => ih (fun b' hb' => hkeep b' (List.mem_cons_of_mem _ hb'))
        (fun b' hb' => hdrop b' (List.mem_cons_of_mem _ hb')) hR hrest
    cases hb : p b with
    | true =>
      obtain ⟨v, hv, hR⟩ := hkeep b List.mem_cons_self hb s t w h hfirst
      obtain ⟨v', hv', hR'⟩ := hlater v hR
      refine ⟨v', ?_, hR'⟩
      rw [List.filter_cons_of_pos hb, List.foldlM_cons, hv]
      exact hv'
    | false =>
      rw [List.filter_cons_of_neg (by rw [hb]; exact Bool.false_ne_true)]
      exact hlater t (hdrop b List.mem_cons_self hb s t w h hfirst)

/-- What every step of a fallible fold keeps, along with what the elements bring. -/
lemma foldlM_invariant {σ β γ : Type*} {ε : Type*} {f : σ → β → Except ε σ} {brings : β → List γ}
    {P : σ → List γ → Prop} {l : List β}
    (hstep : ∀ b ∈ l, ∀ s s' seen, P s seen → f s b = .ok s' → P s' (seen ++ brings b))
    {s s' : σ} {seen : List γ} (h : P s seen) (hfold : l.foldlM f s = .ok s') :
    P s' (seen ++ l.flatMap brings) := by
  induction l generalizing s seen with
  | nil =>
    obtain rfl := Except.ok.inj hfold
    simpa using h
  | cons b l ih =>
    rw [List.foldlM_cons] at hfold
    obtain ⟨t, hfirst, hrest⟩ := bind_eq_ok.mp hfold
    rw [List.flatMap_cons, ← List.append_assoc]
    exact ih (fun b' hb' => hstep b' (List.mem_cons_of_mem _ hb'))
      (hstep b List.mem_cons_self s t seen h hfirst) hrest

end Result
