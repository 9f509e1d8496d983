import Mathlib.Data.List.Basic
import Mathlib.Tactic.Common

/-!
# Base64

The standard encoding of bytes: three bytes become four digits, and the last one or two bytes a
group of four that padding fills up. Decoding takes back what the encoding wrote.
-/

namespace Base64

def pad : UInt8 := 61

/-- The digit for a value below 64. -/
def digitOf (n : Nat) : UInt8 :=
  UInt8.ofNat (if n < 26 then n + 65 else if n < 52 then n + 71 else if n < 62 then n - 4
    else if n = 62 then 43 else 47)

def valueOf (b : UInt8) : Option Nat :=
  if 65 ≤ b.toNat ∧ b.toNat ≤ 90 then some (b.toNat - 65)
  else if 97 ≤ b.toNat ∧ b.toNat ≤ 122 then some (b.toNat - 71)
  else if 48 ≤ b.toNat ∧ b.toNat ≤ 57 then some (b.toNat + 4)
  else if b.toNat = 43 then some 62
  else if b.toNat = 47 then some 63
  else none

def encode : List UInt8 → List UInt8
  | [] => []
  | [a] => [digitOf (a.toNat / 4), digitOf (a.toNat % 4 * 16), pad, pad]
  | [a, b] =>
    [digitOf (a.toNat / 4), digitOf (a.toNat % 4 * 16 + b.toNat / 16),
      digitOf (b.toNat % 16 * 4), pad]
  | a :: b :: c :: bytes =>
    digitOf (a.toNat / 4) :: digitOf (a.toNat % 4 * 16 + b.toNat / 16) ::
      digitOf (b.toNat % 16 * 4 + c.toNat / 64) :: digitOf (c.toNat % 64) :: encode bytes

@[simp] lemma encode_eq_nil {bytes : List UInt8} : encode bytes = [] ↔ bytes = [] := by
  fun_cases encode bytes <;> simp

/-- The bytes of the values of digits, without what is left over. -/
def bytesOf : List Nat → List UInt8
  | w :: x :: y :: z :: values =>
    UInt8.ofNat (w * 4 + x / 16) :: UInt8.ofNat (x % 16 * 16 + y / 4) ::
      UInt8.ofNat (y % 4 * 64 + z) :: bytesOf values
  | [w, x, y] => [UInt8.ofNat (w * 4 + x / 16), UInt8.ofNat (x % 16 * 16 + y / 4)]
  | [w, x] => [UInt8.ofNat (w * 4 + x / 16)]
  | _ => []

/-- The bytes of a text whose digits come before its padding. -/
def decode (text : List UInt8) : Option (List UInt8) :=
  ((text.takeWhile (· ≠ pad)).mapM valueOf).map bytesOf

/-! ### Digits -/

lemma digits_valid :
    (List.range 64).all (fun n => valueOf (digitOf n) == some n && digitOf n != pad) = true := by
  decide +kernel

lemma values_valid : (List.range 256).all (fun n => match valueOf (UInt8.ofNat n) with
    | some v => v < 64 && digitOf v == UInt8.ofNat n
    | none => true) = true := by
  decide +kernel

lemma valueOf_digitOf {n : Nat} (h : n < 64) : valueOf (digitOf n) = some n := by
  have hvalid := List.all_eq_true.mp digits_valid n (List.mem_range.mpr h)
  rw [Bool.and_eq_true, beq_iff_eq] at hvalid
  exact hvalid.1

lemma digitOf_ne_pad {n : Nat} (h : n < 64) : digitOf n ≠ pad := by
  have hvalid := List.all_eq_true.mp digits_valid n (List.mem_range.mpr h)
  rw [Bool.and_eq_true, bne_iff_ne] at hvalid
  exact hvalid.2

lemma valueOf_eq_some {b : UInt8} {n : Nat} (h : valueOf b = some n) :
    n < 64 ∧ digitOf n = b := by
  have hvalid := List.all_eq_true.mp values_valid b.toNat (List.mem_range.mpr b.toNat_lt)
  simp only [UInt8.ofNat_toNat, h, Bool.and_eq_true, decide_eq_true_iff, beq_iff_eq] at hvalid
  exact hvalid

/-! ### Texts -/

/-- The values of a text with so much padding, whose last digit has no bits that nothing reads. -/
def Canonical (padding : Nat) : List Nat → Prop
  | [] => padding = 0
  | [_] => False
  | [_, x] => padding = 2 ∧ x % 16 = 0
  | [_, _, y] => padding = 1 ∧ y % 4 = 0
  | _ :: _ :: _ :: _ :: values => Canonical padding values

/-- The bits of the last value that no byte takes. -/
def Unused (padding : Nat) (values : List Nat) : Prop :=
  ∀ v ∈ values.getLast?, (padding = 2 → v % 16 = 0) ∧ (padding = 1 → v % 4 = 0)

lemma canonical_iff {padding : Nat} {values : List Nat} (hpadding : padding ≤ 2) :
    Canonical padding values ↔ (values.length + padding) % 4 = 0 ∧ Unused padding values := by
  fun_induction Canonical padding values with
  | case1 => simp [Unused]; omega
  | case2 => simp; omega
  | case3 =>
    simp [Unused]
    omega
  | case4 =>
    simp [Unused]
    omega
  | case5 w x y z values ih =>
    have hlength : ((w :: x :: y :: z :: values).length + padding) % 4 =
        (values.length + padding) % 4 := by
      simp only [List.length_cons]
      omega
    rw [hlength, ih]
    cases values with
    | nil =>
      -- without padding nothing is left over of the last group
      simp [Unused]
      omega
    | cons v values => simp [Unused]

lemma encode_bytesOf {padding : Nat} {values : List Nat} (h : Canonical padding values)
    (hvalues : ∀ v ∈ values, v < 64) :
    encode (bytesOf values) = values.map digitOf ++ List.replicate padding pad := by
  fun_induction Canonical padding values with
  | case1 => subst h; rfl
  | case2 => cases h
  | case3 w x =>
    obtain ⟨rfl, hx⟩ := h
    have hw := hvalues w (by simp)
    have hx' := hvalues x (by simp)
    have ha : (UInt8.ofNat (w * 4 + x / 16)).toNat = w * 4 + x / 16 :=
      UInt8.toNat_ofNat_of_lt' (by show _ < 256; omega)
    rw [bytesOf, encode, ha, show (w * 4 + x / 16) / 4 = w by omega,
      show (w * 4 + x / 16) % 4 * 16 = x by omega]
    rfl
  | case4 w x y =>
    obtain ⟨rfl, hy⟩ := h
    have hw := hvalues w (by simp)
    have hx := hvalues x (by simp)
    have hy' := hvalues y (by simp)
    have ha : (UInt8.ofNat (w * 4 + x / 16)).toNat = w * 4 + x / 16 :=
      UInt8.toNat_ofNat_of_lt' (by show _ < 256; omega)
    have hb : (UInt8.ofNat (x % 16 * 16 + y / 4)).toNat = x % 16 * 16 + y / 4 :=
      UInt8.toNat_ofNat_of_lt' (by show _ < 256; omega)
    rw [bytesOf, encode, ha, hb, show (w * 4 + x / 16) / 4 = w by omega,
      show (w * 4 + x / 16) % 4 * 16 + (x % 16 * 16 + y / 4) / 16 = x by omega,
      show (x % 16 * 16 + y / 4) % 16 * 4 = y by omega]
    rfl
  | case5 w x y z values ih =>
    have hw := hvalues w (by simp)
    have hx := hvalues x (by simp)
    have hy := hvalues y (by simp)
    have hz := hvalues z (by simp)
    have ha : (UInt8.ofNat (w * 4 + x / 16)).toNat = w * 4 + x / 16 :=
      UInt8.toNat_ofNat_of_lt' (by show _ < 256; omega)
    have hb : (UInt8.ofNat (x % 16 * 16 + y / 4)).toNat = x % 16 * 16 + y / 4 :=
      UInt8.toNat_ofNat_of_lt' (by show _ < 256; omega)
    have hc : (UInt8.ofNat (y % 4 * 64 + z)).toNat = y % 4 * 64 + z :=
      UInt8.toNat_ofNat_of_lt' (by show _ < 256; omega)
    rw [bytesOf, encode, ha, hb, hc, ih h fun v hv => hvalues v (by simp [hv]),
      show (w * 4 + x / 16) / 4 = w by omega,
      show (w * 4 + x / 16) % 4 * 16 + (x % 16 * 16 + y / 4) / 16 = x by omega,
      show (x % 16 * 16 + y / 4) % 16 * 4 + (y % 4 * 64 + z) / 64 = y by omega,
      show (y % 4 * 64 + z) % 64 = z by omega]
    rfl

/-- The values of the digits that some bytes are written with, and their padding. -/
lemma exists_values (bytes : List UInt8) :
    ∃ values padding, Canonical padding values ∧ padding ≤ 2 ∧ (∀ v ∈ values, v < 64) ∧
      bytesOf values = bytes := by
  fun_induction encode bytes with
  | case1 => exact ⟨[], 0, rfl, by omega, by simp, rfl⟩
  | case2 a =>
    have ha := a.toNat_lt
    refine ⟨[a.toNat / 4, a.toNat % 4 * 16], 2, ⟨rfl, by omega⟩, Nat.le_refl _, ?_, ?_⟩
    · intro v hv
      simp at hv
      omega
    · rw [bytesOf, show a.toNat / 4 * 4 + a.toNat % 4 * 16 / 16 = a.toNat by omega,
        UInt8.ofNat_toNat]
  | case3 a b =>
    have ha := a.toNat_lt
    have hb := b.toNat_lt
    refine ⟨[a.toNat / 4, a.toNat % 4 * 16 + b.toNat / 16, b.toNat % 16 * 4], 1,
      ⟨rfl, by omega⟩, by omega, ?_, ?_⟩
    · intro v hv
      simp at hv
      omega
    · rw [bytesOf,
        show a.toNat / 4 * 4 + (a.toNat % 4 * 16 + b.toNat / 16) / 16 = a.toNat by omega,
        show (a.toNat % 4 * 16 + b.toNat / 16) % 16 * 16 + b.toNat % 16 * 4 / 4 = b.toNat by omega,
        UInt8.ofNat_toNat, UInt8.ofNat_toNat]
  | case4 a b c bytes ih =>
    obtain ⟨values, padding, hcanonical, hpadding, hvalues, hbytes⟩ := ih
    have ha := a.toNat_lt
    have hb := b.toNat_lt
    have hc := c.toNat_lt
    refine ⟨a.toNat / 4 :: (a.toNat % 4 * 16 + b.toNat / 16) ::
      (b.toNat % 16 * 4 + c.toNat / 64) :: c.toNat % 64 :: values, padding, hcanonical, hpadding,
      ?_, ?_⟩
    · intro v hv
      simp only [List.mem_cons] at hv
      rcases hv with rfl | rfl | rfl | rfl | hv
      · omega
      · omega
      · omega
      · omega
      · exact hvalues v hv
    · rw [bytesOf, hbytes,
        show a.toNat / 4 * 4 + (a.toNat % 4 * 16 + b.toNat / 16) / 16 = a.toNat by omega,
        show (a.toNat % 4 * 16 + b.toNat / 16) % 16 * 16 + (b.toNat % 16 * 4 + c.toNat / 64) / 4 =
          b.toNat by omega,
        show (b.toNat % 16 * 4 + c.toNat / 64) % 4 * 64 + c.toNat % 64 = c.toNat by omega,
        UInt8.ofNat_toNat, UInt8.ofNat_toNat, UInt8.ofNat_toNat]

lemma mapM_valueOf {values : List Nat} (h : ∀ v ∈ values, v < 64) :
    (values.map digitOf).mapM valueOf = some values := by
  induction values with
  | nil => rfl
  | cons v values ih =>
    rw [List.map_cons, List.mapM_cons, valueOf_digitOf (h v List.mem_cons_self),
      ih fun w hw => h w (List.mem_cons_of_mem _ hw)]
    rfl

/-- The texts that encode bytes are those of canonical values. -/
lemma exists_encode_iff {text : List UInt8} :
    (∃ bytes, text = encode bytes) ↔ ∃ values padding, Canonical padding values ∧ padding ≤ 2 ∧
      (∀ v ∈ values, v < 64) ∧ text = values.map digitOf ++ List.replicate padding pad := by
  constructor
  · rintro ⟨bytes, rfl⟩
    obtain ⟨values, padding, hcanonical, hpadding, hvalues, rfl⟩ := exists_values bytes
    exact ⟨values, padding, hcanonical, hpadding, hvalues, encode_bytesOf hcanonical hvalues⟩
  · rintro ⟨values, padding, hcanonical, -, hvalues, rfl⟩
    exact ⟨bytesOf values, (encode_bytesOf hcanonical hvalues).symm⟩

/-- What was written is read again. -/
lemma decode_encode (bytes : List UInt8) : decode (encode bytes) = some bytes := by
  obtain ⟨values, padding, hcanonical, -, hvalues, rfl⟩ := exists_values bytes
  have hdigits : ∀ b ∈ values.map digitOf, b ≠ pad := by
    intro b hb
    obtain ⟨v, hv, rfl⟩ := List.mem_map.mp hb
    exact digitOf_ne_pad (hvalues v hv)
  have htake : (values.map digitOf ++ List.replicate padding pad).takeWhile (· ≠ pad) =
      values.map digitOf := by
    rw [List.takeWhile_append_of_pos fun b hb => decide_eq_true (hdigits b hb)]
    cases padding with
    | zero => simp
    | succ n => simp [List.replicate_succ]
  rw [encode_bytesOf hcanonical hvalues, decode, htake, mapM_valueOf hvalues]
  rfl

end Base64
