import Mathlib.Algebra.BigOperators.Group.List.Basic
import Mathlib.Data.List.Basic
import Mathlib.Tactic.Common
import RpiPackage.Lib.Rust

/-!
# Byte offsets of texts

A text is a list of characters and is addressed by byte offsets. An offset that splits the text
between two characters is a boundary, and boundaries are ordered as the prefixes before them.
-/

namespace Utf8

/-- `str::len`. -/
def size : List Char → Nat
  | [] => 0
  | c :: t => c.utf8Size + size t

/-- The text from a boundary on. -/
def dropBytes (n : Nat) : List Char → List Char
  | [] => []
  | c :: t => if n = 0 then c :: t else dropBytes (n - c.utf8Size) t

/-- `&t[first..last]`. -/
def slice (t : List Char) (first last : Nat) : List Char :=
  Rust.takeBytes (last - first) (dropBytes first t)

/-- `str::is_char_boundary`. -/
def isBoundary (n : Nat) : List Char → Bool
  | [] => n = 0
  | c :: t => n = 0 || (c.utf8Size ≤ n && isBoundary (n - c.utf8Size) t)

/-- `str::get(first..last)`. -/
def get? (t : List Char) (first last : Nat) : Option (List Char) :=
  if first ≤ last && isBoundary first t && isBoundary last t then some (slice t first last) else none

/-- `str::find`. -/
def find (needle : List Char) : List Char → Option Nat
  | [] => if needle.isEmpty then some 0 else none
  | c :: t =>
    if needle.isPrefixOf (c :: t) then some 0 else (find needle t).map (c.utf8Size + ·)

section

variable {xs ys m t needle : List Char} {c : Char} {n p q : Nat}

@[simp] lemma size_nil : size [] = 0 := rfl

@[simp] lemma size_cons (c : Char) (t : List Char) : size (c :: t) = c.utf8Size + size t := rfl

@[simp] lemma size_append (xs ys : List Char) : size (xs ++ ys) = size xs + size ys := by
  induction xs with
  | nil => simp
  | cons c xs ih => rw [List.cons_append, size_cons, size_cons, ih, Nat.add_assoc]

lemma size_singleton (c : Char) : size [c] = c.utf8Size := by simp

lemma size_pos (h : t ≠ []) : 0 < size t := by
  cases t with
  | nil => exact absurd rfl h
  | cons c t =>
    have hc := c.utf8Size_pos
    rw [size_cons]
    omega

lemma size_eq_zero : size t = 0 ↔ t = [] := by
  constructor
  · intro h
    by_contra hne
    have hpos := size_pos hne
    omega
  · rintro rfl
    rfl

/-! ### Slices -/

@[simp] lemma dropBytes_zero (t : List Char) : dropBytes 0 t = t := by
  cases t <;> rfl

lemma dropBytes_append (xs ys : List Char) : dropBytes (size xs) (xs ++ ys) = ys := by
  induction xs with
  | nil => exact dropBytes_zero ys
  | cons c xs ih =>
    have hc := c.utf8Size_pos
    rw [List.cons_append, dropBytes, size_cons, if_neg (by omega), Nat.add_sub_cancel_left, ih]

lemma takeBytes_append (xs ys : List Char) : Rust.takeBytes (size xs) (xs ++ ys) = xs := by
  induction xs with
  | nil =>
    cases ys with
    | nil => rfl
    | cons c ys =>
      have hc := c.utf8Size_pos
      rw [List.nil_append, size_nil, Rust.takeBytes, if_neg (by omega)]
  | cons c xs ih =>
    rw [List.cons_append, Rust.takeBytes, size_cons, if_pos (by omega), Nat.add_sub_cancel_left, ih]

/-- A slice between two boundaries is the text between them. -/
lemma slice_append (xs m ys : List Char) :
    slice (xs ++ (m ++ ys)) (size xs) (size xs + size m) = m := by
  rw [slice, dropBytes_append, Nat.add_sub_cancel_left, takeBytes_append]

lemma slice_between (h : xs ++ m <+: t) : slice t (size xs) (size (xs ++ m)) = m := by
  obtain ⟨ys, rfl⟩ := h
  rw [List.append_assoc, size_append, slice_append]

/-- Adjacent slices make up one slice. -/
lemma slice_append_slice (hx : xs <+: ys) (hy : ys <+: m) (hm : m <+: t) :
    slice t (size xs) (size ys) ++ slice t (size ys) (size m) = slice t (size xs) (size m) := by
  obtain ⟨us, rfl⟩ := hx
  obtain ⟨ws, rfl⟩ := hy
  rw [slice_between ((List.prefix_append _ ws).trans hm), slice_between hm, List.append_assoc,
    slice_between (by rwa [← List.append_assoc])]

lemma isBoundary_iff : isBoundary n t = true ↔ ∃ xs ys, t = xs ++ ys ∧ size xs = n := by
  induction t generalizing n with
  | nil =>
    rw [isBoundary, decide_eq_true_iff]
    constructor
    · rintro rfl
      exact ⟨[], [], rfl, rfl⟩
    · rintro ⟨xs, ys, heq, rfl⟩
      rw [(List.append_eq_nil_iff.mp heq.symm).1, size_nil]
  | cons c t ih =>
    rw [isBoundary, Bool.or_eq_true, Bool.and_eq_true, decide_eq_true_iff, decide_eq_true_iff, ih]
    constructor
    · rintro (rfl | ⟨hle, xs, ys, rfl, hsize⟩)
      · exact ⟨[], c :: t, rfl, rfl⟩
      · exact ⟨c :: xs, ys, rfl, by rw [size_cons]; omega⟩
    · rintro ⟨xs, ys, heq, rfl⟩
      cases xs with
      | nil => exact .inl rfl
      | cons c' xs =>
        obtain ⟨rfl, rfl⟩ := List.cons.inj heq
        exact .inr ⟨Nat.le_add_right _ _, xs, ys, rfl, by rw [size_cons]; omega⟩

/-! ### Boundaries -/

/-- Prefixes of one text are ordered as their sizes. -/
lemma prefix_of_size_le (hx : xs <+: t) (hy : ys <+: t) (h : size xs ≤ size ys) : xs <+: ys := by
  rcases List.prefix_or_prefix_of_prefix hx hy with hstarts | hstarts
  · exact hstarts
  · obtain ⟨rest, rfl⟩ := hstarts
    rw [size_append] at h
    have hrest : rest = [] := size_eq_zero.mp (by omega)
    simp [hrest]

lemma size_mono (h : xs <+: ys) : size xs ≤ size ys := by
  obtain ⟨rest, rfl⟩ := h
  rw [size_append]
  exact Nat.le_add_right _ _

lemma prefix_eq_of_size_eq (hx : xs <+: t) (hy : ys <+: t) (h : size xs = size ys) : xs = ys :=
  (prefix_of_size_le hx hy (Nat.le_of_eq h)).eq_of_length_le
    (prefix_of_size_le hy hx (Nat.le_of_eq h.symm)).length_le

/-- No boundary lies inside a character. -/
lemma size_le_of_lt_concat (hx : xs <+: t) (hy : ys ++ [c] <+: t) (h : size xs < size (ys ++ [c])) :
    size xs ≤ size ys := by
  have hstarts := prefix_of_size_le hx hy (Nat.le_of_lt h)
  rcases List.prefix_concat_iff.mp hstarts with heq | hstarts
  · rw [heq] at h
    exact absurd h (Nat.lt_irrefl _)
  · exact size_mono hstarts

/-! ### Occurrences -/

/-- A text starts at a byte offset of another one. -/
def Occurs (needle t : List Char) (p : Nat) : Prop :=
  ∃ xs ys, t = xs ++ (needle ++ ys) ∧ size xs = p

lemma occurs_zero : Occurs needle t 0 ↔ needle <+: t := by
  constructor
  · rintro ⟨xs, ys, rfl, hsize⟩
    rw [size_eq_zero.mp hsize]
    exact List.prefix_append _ _
  · rintro ⟨ys, rfl⟩
    exact ⟨[], ys, rfl, rfl⟩

lemma occurs_cons : Occurs needle (c :: t) p ↔
    (p = 0 ∧ needle <+: c :: t) ∨ ∃ q, p = c.utf8Size + q ∧ Occurs needle t q := by
  constructor
  · rintro ⟨xs, ys, heq, rfl⟩
    cases xs with
    | nil => exact .inl ⟨rfl, ys, heq.symm⟩
    | cons c' xs =>
      obtain ⟨rfl, rfl⟩ := List.cons.inj heq
      exact .inr ⟨size xs, rfl, xs, ys, rfl, rfl⟩
  · rintro (⟨rfl, h⟩ | ⟨q, rfl, xs, ys, rfl, rfl⟩)
    · exact occurs_zero.mpr h
    · exact ⟨c :: xs, ys, rfl, rfl⟩

lemma find_eq_none : find needle t = none ↔ ∀ p, ¬Occurs needle t p := by
  induction t with
  | nil =>
    rw [find]
    split
    next h =>
      simp only [reduceCtorEq, false_iff, not_forall, not_not]
      exact ⟨0, occurs_zero.mpr (List.isEmpty_iff.mp h ▸ List.nil_prefix)⟩
    next h =>
      simp only [true_iff]
      rintro p ⟨xs, ys, heq, -⟩
      have hnil := (List.append_eq_nil_iff.mp (List.append_eq_nil_iff.mp heq.symm).2).1
      exact h (List.isEmpty_iff.mpr hnil)
  | cons c t ih =>
    rw [find]
    split
    next h =>
      simp only [reduceCtorEq, false_iff, not_forall, not_not]
      exact ⟨0, occurs_zero.mpr (List.isPrefixOf_iff_prefix.mp h)⟩
    next h =>
      rw [Option.map_eq_none_iff, ih]
      constructor
      · intro hnone p hp
        rcases occurs_cons.mp hp with ⟨-, hstarts⟩ | ⟨q, -, hq⟩
        · exact h (List.isPrefixOf_iff_prefix.mpr hstarts)
        · exact hnone q hq
      · intro hnone q hq
        exact hnone _ (occurs_cons.mpr (.inr ⟨q, rfl, hq⟩))

/-- What is found is the first occurrence. -/
lemma occurs_of_find (h : find needle t = some p) :
    Occurs needle t p ∧ ∀ q, Occurs needle t q → p ≤ q := by
  induction t generalizing p with
  | nil =>
    rw [find] at h
    split at h
    next hempty =>
      obtain rfl := Option.some.inj h
      exact ⟨occurs_zero.mpr (List.isEmpty_iff.mp hempty ▸ List.nil_prefix), fun q _ => Nat.zero_le q⟩
    next => cases h
  | cons c t ih =>
    rw [find] at h
    split at h
    next hstarts =>
      obtain rfl := Option.some.inj h
      exact ⟨occurs_zero.mpr (List.isPrefixOf_iff_prefix.mp hstarts), fun q _ => Nat.zero_le q⟩
    next hstarts =>
      obtain ⟨q, hq, rfl⟩ := Option.map_eq_some_iff.mp h
      obtain ⟨hocc, hmin⟩ := ih hq
      refine ⟨occurs_cons.mpr (.inr ⟨q, rfl, hocc⟩), fun r hr => ?_⟩
      rcases occurs_cons.mp hr with ⟨-, hzero⟩ | ⟨r', rfl, hr'⟩
      · exact absurd (List.isPrefixOf_iff_prefix.mpr hzero) hstarts
      · exact Nat.add_le_add_left (hmin r' hr') _

/-- The occurrences behind a prefix. -/
lemma occurs_append_iff : Occurs needle (xs ++ ys) (size xs + p) ↔ Occurs needle ys p := by
  constructor
  · rintro ⟨zs, rest, heq, hsize⟩
    have hstarts : xs <+: zs := by
      apply prefix_of_size_le (t := xs ++ ys) (List.prefix_append _ _)
      · rw [heq]
        exact List.prefix_append _ _
      · omega
    obtain ⟨ws, rfl⟩ := hstarts
    rw [List.append_assoc] at heq
    rw [size_append] at hsize
    exact ⟨ws, rest, List.append_cancel_left heq, by omega⟩
  · rintro ⟨zs, rest, rfl, rfl⟩
    exact ⟨xs ++ zs, rest, by rw [List.append_assoc], size_append xs zs⟩

end

end Utf8
