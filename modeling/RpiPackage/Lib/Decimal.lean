import Mathlib.Algebra.GroupWithZero.Nat
import Mathlib.Data.List.Basic
import Mathlib.Tactic.Common

/-!
# Decimal numerals

The text of a natural number holds digits only, and tells which number it is.
-/

namespace Decimal

lemma repr_injective {m n : Nat} (h : m.repr = n.repr) : m = n := by
  have hdigits := congrArg (fun text => Nat.ofDigitChars 10 text.toList 0) h
  simpa only [Nat.toList_repr, Nat.ofDigitChars_ten_toDigits] using hdigits

lemma not_mem_toDigits {c : Char} (h : c.isDigit = false) (n : Nat) : c ∉ Nat.toDigits 10 n := by
  intro hmem
  rw [Nat.isDigit_of_mem_toDigits (by decide) (by decide) hmem] at h
  cases h

lemma head_toDigits_ne_zero {n : Nat} {ds : List Char} (h : n ≠ 0) : Nat.toDigits 10 n ≠ '0' :: ds := by
  induction n using Nat.strongRecOn generalizing ds with
  | ind n ih =>
    intro heq
    by_cases hn : n < 10
    · rw [Nat.toDigits_of_lt_base hn] at heq
      have hzero : ∀ n < 10, Nat.digitChar n = '0' → n = 0 := by decide
      exact h (hzero n hn (List.cons.inj heq).1)
    · rw [Nat.toDigits_of_base_le (by decide) (Nat.le_of_not_lt hn)] at heq
      cases hfirst : Nat.toDigits 10 (n / 10) with
      | nil => exact absurd hfirst Nat.toDigits_ne_nil
      | cons c cs =>
        rw [hfirst, List.cons_append] at heq
        obtain ⟨rfl, -⟩ := List.cons.inj heq
        exact ih (n / 10) (by omega) (by omega) hfirst

/-- A text that starts with another character is no numeral. -/
lemma repr_ne_of_head {n : Nat} {c : Char} {text : String} {rest : List Char}
    (hc : c.isDigit = false) (htext : text.toList = c :: rest) : n.repr ≠ text := by
  intro h
  have hlist := congrArg String.toList h
  rw [Nat.toList_repr, htext] at hlist
  exact not_mem_toDigits hc n (hlist ▸ List.mem_cons_self)

/-! ### Integers -/

lemma toList_negSucc (n : Nat) : (toString (Int.negSucc n)).toList = '-' :: Nat.toDigits 10 (n + 1) := by
  show ("-" ++ (n + 1).repr).toList = _
  rw [String.toList_append, Nat.toList_repr]
  rfl

lemma not_mem_toString {c : Char} (h : c.isDigit = false) (hc : c ≠ '-') (n : Int) :
    c ∉ (toString n).toList := by
  cases n with
  | ofNat n =>
    show c ∉ n.repr.toList
    rw [Nat.toList_repr]
    exact not_mem_toDigits h n
  | negSucc n =>
    rw [toList_negSucc, List.mem_cons, not_or]
    exact ⟨hc, not_mem_toDigits h _⟩

lemma toString_injective {m n : Int} (h : toString m = toString n) : m = n := by
  cases m with
  | ofNat m =>
    cases n with
    | ofNat n => exact congrArg Int.ofNat (repr_injective h)
    | negSucc n => exact absurd h (@repr_ne_of_head m _ _ _ (by decide) (toList_negSucc n))
  | negSucc m =>
    cases n with
    | ofNat n => exact absurd h.symm (@repr_ne_of_head n _ _ _ (by decide) (toList_negSucc m))
    | negSucc n =>
      have hlist := congrArg String.toList h
      rw [toList_negSucc, toList_negSucc] at hlist
      have hdigits := (List.cons.inj hlist).2
      rw [← Nat.toList_repr, ← Nat.toList_repr] at hdigits
      rw [Nat.succ.inj (repr_injective (String.toList_inj.mp hdigits))]

/-! ### Zero-padded numerals -/

/-- The last digits of a number. -/
def lastDigits : Nat → Nat → List Char
  | 0, _ => []
  | width + 1, n => lastDigits width (n / 10) ++ [(n % 10).digitChar]

@[simp] lemma length_lastDigits (width n : Nat) : (lastDigits width n).length = width := by
  induction width generalizing n with
  | zero => rfl
  | succ width ih => rw [lastDigits, List.length_append, ih, List.length_singleton]

lemma lastDigits_zero (width : Nat) : lastDigits width 0 = List.replicate width '0' := by
  induction width with
  | zero => rfl
  | succ width ih =>
    rw [lastDigits, Nat.zero_div, ih, List.replicate_succ']
    rfl

/-- A numeral that is padded with zeros has the last digits of its number. -/
lemma replicate_append_toDigits {width n : Nat} (h : n < 10 ^ (width + 1)) :
    List.replicate (width + 1 - (Nat.toDigits 10 n).length) '0' ++ Nat.toDigits 10 n =
      lastDigits (width + 1) n := by
  induction width generalizing n with
  | zero =>
    rw [Nat.toDigits_of_lt_base (by simpa using h), lastDigits, lastDigits,
      Nat.mod_eq_of_lt (by simpa using h)]
    rfl
  | succ width ih =>
    by_cases hn : n < 10
    · rw [Nat.toDigits_of_lt_base hn, lastDigits, Nat.div_eq_of_lt hn, lastDigits_zero,
        Nat.mod_eq_of_lt hn]
      rfl
    · have hdiv : n / 10 < 10 ^ (width + 1) := by
        rw [Nat.div_lt_iff_lt_mul (by decide)]
        rwa [Nat.pow_succ] at h
      rw [Nat.toDigits_of_base_le (by decide) (Nat.le_of_not_lt hn), lastDigits, ← ih hdiv,
        List.length_append, List.length_singleton, Nat.add_sub_add_right, List.append_assoc]

lemma append_lt_append_iff {α : Type*} [LT α] {xs ys zs ws : List α}
    (h : xs.length = ys.length) : xs ++ zs < ys ++ ws ↔ xs < ys ∨ xs = ys ∧ zs < ws := by
  induction xs generalizing ys with
  | nil =>
    obtain rfl := List.length_eq_zero_iff.mp h.symm
    simp
  | cons x xs ih =>
    cases ys with
    | nil => cases h
    | cons y ys =>
      rw [List.cons_append, List.cons_append, List.cons_lt_cons_iff, List.cons_lt_cons_iff,
        ih (Nat.succ.inj h), List.cons.injEq]
      tauto

lemma digitChar_lt_iff : ∀ m < 10, ∀ n < 10, (Nat.digitChar m < Nat.digitChar n ↔ m < n) := by
  decide

lemma digitChar_injective : ∀ m < 10, ∀ n < 10, (Nat.digitChar m = Nat.digitChar n ↔ m = n) := by
  decide

lemma lastDigits_injective {width m n : Nat} (hm : m < 10 ^ width) (hn : n < 10 ^ width)
    (h : lastDigits width m = lastDigits width n) : m = n := by
  induction width generalizing m n with
  | zero => omega
  | succ width ih =>
    rw [Nat.pow_succ] at hm hn
    obtain ⟨hfirst, hlast⟩ := List.append_inj' h rfl
    have hdiv := ih (by omega) (by omega) hfirst
    have hmod := (digitChar_injective _ (Nat.mod_lt _ (by decide)) _
      (Nat.mod_lt _ (by decide))).mp (List.cons.inj hlast).1
    omega

/-- Among numbers that the digits hold, the texts are ordered as the numbers. -/
lemma lastDigits_lt_iff {width m n : Nat} (hm : m < 10 ^ width) (hn : n < 10 ^ width) :
    lastDigits width m < lastDigits width n ↔ m < n := by
  induction width generalizing m n with
  | zero =>
    simp only [lastDigits, List.not_lt_nil, false_iff]
    omega
  | succ width ih =>
    rw [Nat.pow_succ] at hm hn
    have hm' : m / 10 < 10 ^ width := by omega
    have hn' : n / 10 < 10 ^ width := by omega
    rw [lastDigits, lastDigits, append_lt_append_iff (by simp), ih hm' hn', List.cons_lt_cons_iff,
      digitChar_lt_iff _ (Nat.mod_lt _ (by decide)) _ (Nat.mod_lt _ (by decide))]
    simp only [List.not_lt_nil, and_false, or_false]
    constructor
    · rintro (hlt | ⟨heq, hlt⟩)
      · omega
      · have hdiv := lastDigits_injective hm' hn' heq
        omega
    · intro hlt
      by_cases hdiv : m / 10 = n / 10
      · exact .inr ⟨by rw [hdiv], by omega⟩
      · exact .inl (by omega)

end Decimal
