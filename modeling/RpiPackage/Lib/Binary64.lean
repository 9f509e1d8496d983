import Mathlib.Algebra.GroupWithZero.Nat
import Mathlib.Algebra.Order.Ring.Nat
import Mathlib.Tactic.Common

/-!
# Whole numbers as doubles

The double nearest to a whole number, and the whole number that its shortest decimal text stands
for: digits that tell the double from its neighbours, filled up with zeros.
-/

namespace Binary64

/-- The exponent of a number with a significand of 53 bits. -/
def exponent (m : Nat) : Nat := m.log2 - 52

/-- A number rounded to 53 bits, a tie to the even significand. -/
def nearest (m : Nat) : Nat :=
  let gap := 2 ^ exponent m
  let significand := m / gap
  let rest := m % gap
  if 2 * rest < gap ∨ (2 * rest = gap ∧ significand % 2 = 0) then significand * gap
  else (significand + 1) * gap

/-- Whether a distance is within a bound, which an even significand may reach. -/
def within (distance bound significand : Nat) : Bool :=
  decide (distance < bound) || (distance == bound && significand % 2 == 0)

/-- Whether a number is so near to a double that it rounds to it. The double before the smallest one
of its exponent is half as far away as the one after it. -/
def rounds (d x : Nat) : Bool :=
  let gap := 2 ^ exponent d
  let significand := d / gap
  if d ≤ x then within (2 * (x - d)) gap significand
  else if significand = 2 ^ 52 then within (4 * (d - x)) gap significand
  else within (2 * (d - x)) gap significand

/-- The nearest number with at most so many zeros at its end which is near enough, with as many as
there can be. -/
def shortestFrom (d : Nat) : Nat → Nat
  | 0 => d
  | zeros + 1 =>
    let unit := 10 ^ (zeros + 1)
    let below := d / unit * unit
    let above := below + unit
    match rounds d below, rounds d above with
    | true, true => if 2 * (d - below) < unit then below else above
    | true, false => below
    | false, true => above
    | false, false => shortestFrom d zeros

/-- Numbers of 64 bits have at most 20 digits. -/
def shortest (d : Nat) : Nat := shortestFrom d 20

/-! ### Rounding -/

variable {d e q r x m : Nat}

lemma within_iff : within d x q = true ↔ d < x ∨ (d = x ∧ q % 2 = 0) := by
  rw [within, Bool.or_eq_true, decide_eq_true_eq, Bool.and_eq_true, beq_iff_eq, beq_iff_eq]

lemma exponent_eq (hr : r < 2 ^ e) (hnormal : e = 0 ∨ 2 ^ 52 ≤ q) (hq : q < 2 ^ 53) :
    exponent (q * 2 ^ e + r) = e := by
  have hsmall : q * 2 ^ e + r < 2 ^ (53 + e) := by
    have hle : (q + 1) * 2 ^ e ≤ 2 ^ 53 * 2 ^ e := Nat.mul_le_mul_right _ hq
    rw [Nat.add_mul, Nat.one_mul] at hle
    rw [Nat.pow_add]
    omega
  rcases hnormal with rfl | hle
  · obtain rfl : r = 0 := by omega
    rw [exponent]
    by_cases hzero : q = 0
    · subst hzero
      rfl
    · have hlog := (Nat.log2_lt (by simpa using hzero)).mpr hsmall
      omega
  · have hlarge : 2 ^ (52 + e) ≤ q * 2 ^ e + r := by
      rw [Nat.pow_add]
      exact Nat.le_trans (Nat.mul_le_mul_right _ hle) (Nat.le_add_right _ _)
    have hne : q * 2 ^ e + r ≠ 0 := by
      have hpos : 0 < 2 ^ (52 + e) := Nat.two_pow_pos _
      omega
    have hlow := (Nat.le_log2 hne).mpr hlarge
    have hhigh := (Nat.log2_lt hne).mpr hsmall
    rw [exponent]
    omega

lemma nearest_eq (hr : r < 2 ^ e) (hnormal : e = 0 ∨ 2 ^ 52 ≤ q) (hq : q < 2 ^ 53) :
    nearest (q * 2 ^ e + r) =
      if 2 * r < 2 ^ e ∨ (2 * r = 2 ^ e ∧ q % 2 = 0) then q * 2 ^ e else (q + 1) * 2 ^ e := by
  have hdiv : (q * 2 ^ e + r) / 2 ^ e = q := by
    rw [Nat.mul_comm, Nat.mul_add_div (Nat.two_pow_pos e), Nat.div_eq_of_lt hr, Nat.add_zero]
  have hmod : (q * 2 ^ e + r) % 2 ^ e = r := by
    rw [Nat.mul_comm, Nat.mul_add_mod, Nat.mod_eq_of_lt hr]
  simp only [nearest, exponent_eq hr hnormal hq, hdiv, hmod]

/-- Every number has a significand of 53 bits or no exponent. -/
lemma exists_significand (m : Nat) : ∃ q e r, m = q * 2 ^ e + r ∧ r < 2 ^ e ∧
    (e = 0 ∨ 2 ^ 52 ≤ q) ∧ q < 2 ^ 53 := by
  refine ⟨m / 2 ^ exponent m, exponent m, m % 2 ^ exponent m, ?_, Nat.mod_lt _ (Nat.two_pow_pos _),
    ?_, ?_⟩
  · rw [Nat.mul_comm]
    exact (Nat.div_add_mod _ _).symm
  · by_cases hzero : exponent m = 0
    · exact .inl hzero
    · right
      have hne : m ≠ 0 := by
        rintro rfl
        exact hzero rfl
      have hlog : 52 + exponent m ≤ m.log2 := by
        rw [exponent] at hzero ⊢
        omega
      rw [Nat.le_div_iff_mul_le (Nat.two_pow_pos _), ← Nat.pow_add]
      exact (Nat.le_log2 hne).mp hlog
  · by_cases hne : m = 0
    · subst hne
      decide
    · rw [Nat.div_lt_iff_lt_mul (Nat.two_pow_pos _), ← Nat.pow_add]
      apply (Nat.log2_lt hne).mp
      rw [exponent]
      omega

/-- A number with a significand of 53 bits. -/
def IsDouble (d : Nat) : Prop := ∃ q e, d = q * 2 ^ e ∧ (e = 0 ∨ 2 ^ 52 ≤ q) ∧ q < 2 ^ 53

lemma isDouble_nearest (m : Nat) : IsDouble (nearest m) := by
  obtain ⟨q, e, r, rfl, hr, hnormal, hq⟩ := exists_significand m
  rw [nearest_eq hr hnormal hq]
  split
  · exact ⟨q, e, rfl, hnormal, hq⟩
  · by_cases hcarry : q + 1 = 2 ^ 53
    · refine ⟨2 ^ 52, e + 1, ?_, .inr (Nat.le_refl _), by decide⟩
      rw [hcarry, Nat.pow_succ]
      omega
    · exact ⟨q + 1, e, rfl, hnormal.imp_right (Nat.le_add_right_of_le ·), by omega⟩

/-- What is near enough to a double rounds to it. -/
lemma nearest_of_rounds (hd : IsDouble d) (h : rounds d x = true) : nearest x = d := by
  obtain ⟨q, e, rfl, hnormal, hq⟩ := hd
  have hexponent : exponent (q * 2 ^ e) = e := exponent_eq (r := 0) (Nat.two_pow_pos e) hnormal hq
  simp only [rounds, hexponent, Nat.mul_div_cancel _ (Nat.two_pow_pos e)] at h
  split at h
  · rename_i hle
    obtain ⟨r, rfl⟩ := Nat.exists_eq_add_of_le hle
    rw [Nat.add_sub_cancel_left] at h
    rw [within_iff] at h
    have hr : r < 2 ^ e := by
      have hpos := Nat.two_pow_pos e
      omega
    rw [nearest_eq hr hnormal hq, if_pos h]
  · rename_i hlt
    obtain ⟨g, hg, hpos⟩ : ∃ g, x + g = q * 2 ^ e ∧ 0 < g := ⟨q * 2 ^ e - x, by omega, by omega⟩
    have hdistance : q * 2 ^ e - x = g := by omega
    rw [hdistance] at h
    split at h
    · -- the smallest significand: the numbers below it have the exponent before
      rename_i hleast
      subst hleast
      rw [within_iff] at h
      obtain ⟨e', rfl⟩ : ∃ e', e = e' + 1 := by
        cases e with
        | zero => omega
        | succ e => exact ⟨e, rfl⟩
      rw [Nat.pow_succ] at h hg
      have hx : x = (2 ^ 53 - 1) * 2 ^ e' + (2 ^ e' - g) := by omega
      rw [hx, nearest_eq (by omega) (.inr (by decide)) (by decide), if_neg (by omega), Nat.pow_succ]
      omega
    · rename_i hleast
      rw [within_iff] at h
      have hle : g < 2 ^ e ∧ 2 ^ 52 < q := by
        have hpow := Nat.two_pow_pos e
        rcases hnormal with rfl | hle
        · omega
        · omega
      obtain ⟨p, rfl⟩ : ∃ p, q = p + 1 := ⟨q - 1, by omega⟩
      rw [Nat.add_mul, Nat.one_mul] at hg
      have hx : x = p * 2 ^ e + (2 ^ e - g) := by omega
      rw [hx, nearest_eq (by omega) (.inr (by omega)) (by omega), if_neg (by omega)]

lemma nearest_isDouble (hd : IsDouble d) : nearest d = d := by
  obtain ⟨q, e, rfl, hnormal, hq⟩ := hd
  have hpos := Nat.two_pow_pos e
  have heq := nearest_eq (r := 0) hpos hnormal hq
  rw [Nat.mul_zero, if_pos (.inl hpos)] at heq
  exact heq

lemma eq_zero_of_nearest (h : nearest m = 0) : m = 0 := by
  obtain ⟨q, e, r, rfl, hr, hnormal, hq⟩ := exists_significand m
  have hpos := Nat.two_pow_pos e
  rw [nearest_eq hr hnormal hq] at h
  split at h
  · rcases Nat.mul_eq_zero.mp h with rfl | hzero
    · rcases hnormal with rfl | hlarge
      · omega
      · omega
    · omega
  · rcases Nat.mul_eq_zero.mp h with hzero | hzero
    · omega
    · omega

/-! ### Shortest digits -/

lemma nearest_shortestFrom (hd : IsDouble d) (zeros : Nat) : nearest (shortestFrom d zeros) = d := by
  induction zeros with
  | zero => exact nearest_isDouble hd
  | succ zeros ih =>
    rw [shortestFrom]
    split
    · rename_i hbelow habove
      split
      · exact nearest_of_rounds hd hbelow
      · exact nearest_of_rounds hd habove
    · rename_i hbelow habove
      exact nearest_of_rounds hd hbelow
    · rename_i hbelow habove
      exact nearest_of_rounds hd habove
    · exact ih

/-- The shortest text of the nearest double stands for a number with the same nearest double. -/
lemma nearest_shortest (m : Nat) : nearest (shortest (nearest m)) = nearest m :=
  nearest_shortestFrom (isDouble_nearest m) 20

lemma nearest_of_le (h : m ≤ 2 ^ 53) : nearest m = m := by
  rcases Nat.lt_or_eq_of_le h with hlt | rfl
  · exact nearest_isDouble ⟨m, 0, by simp, .inl rfl, hlt⟩
  · exact nearest_isDouble ⟨2 ^ 52, 1, by decide, .inr (Nat.le_refl _), by decide⟩

/-- Numbers of less than 54 bits have neighbours that are nearer than any other number. -/
lemma eq_of_rounds (h : m < 2 ^ 53) (hx : rounds m x = true) : x = m := by
  have hexponent := exponent_eq (e := 0) (r := 0) (q := m) (by decide) (.inl rfl) h
  rw [Nat.pow_zero, Nat.mul_one, Nat.add_zero] at hexponent
  simp only [rounds, hexponent, Nat.pow_zero] at hx
  split at hx
  · rw [within_iff] at hx
    omega
  · split at hx <;>
    · rw [within_iff] at hx
      omega

lemma shortestFrom_of_lt (h : m < 2 ^ 53) (zeros : Nat) : shortestFrom m zeros = m := by
  induction zeros with
  | zero => rfl
  | succ zeros ih =>
    rw [shortestFrom]
    split
    · rename_i hbelow habove
      have hpos : 0 < 10 ^ (zeros + 1) := Nat.pow_pos (by decide)
      have heq := (eq_of_rounds h hbelow).trans (eq_of_rounds h habove).symm
      omega
    · rename_i hbelow habove
      exact eq_of_rounds h hbelow
    · rename_i hbelow habove
      exact eq_of_rounds h habove
    · exact ih

/-- Up to 53 bits the shortest text is exact. -/
lemma shortest_nearest (h : m ≤ 2 ^ 53) : shortest (nearest m) = m := by
  rw [nearest_of_le h]
  rcases Nat.lt_or_eq_of_le h with hlt | rfl
  · exact shortestFrom_of_lt hlt 20
  · decide +kernel

end Binary64
