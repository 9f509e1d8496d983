import RpiPackage.Lib.Utf8

/-!
# The bytes of a text

A text as its UTF-8 bytes. The first byte of a character is told from those that continue it, so
that a piece of the bytes that begins at a first byte begins at a character.
-/

namespace Utf8Bytes

/-- A byte that continues a character. -/
def Continues (b : UInt8) : Prop := 128 ≤ b.toNat ∧ b.toNat < 192

def encode (t : List Char) : List UInt8 := t.flatMap String.utf8EncodeChar

variable {t u : List Char} {c d : Char} {b : UInt8} {rest : List UInt8}

@[simp] lemma encode_nil : encode [] = [] := rfl

@[simp] lemma encode_cons : encode (c :: t) = String.utf8EncodeChar c ++ encode t := rfl

lemma encode_append : encode (t ++ u) = encode t ++ encode u := List.flatMap_append

/-- What a string keeps is what its characters encode to. -/
lemma toUTF8_toList (s : String) : s.toUTF8.data.toList = encode s.toList := by
  have h : s.toList.utf8Encode = s.toByteArray := String.utf8Encode_toList
  show s.toByteArray.data.toList = _
  rw [← h, List.utf8Encode]
  simp [encode]

/-- Only the first byte of a character is none that continues one, and only a character of one byte
has a byte below 128, which is the character itself. -/
lemma utf8EncodeChar_cases (c : Char) :
    ∃ first rest, String.utf8EncodeChar c = first :: rest ∧ ¬Continues first ∧
      (∀ b ∈ rest, Continues b) ∧ (first.toNat < 128 → first.toNat = c.toNat) ∧
      (c.toNat < 128 → first.toNat = c.toNat ∧ rest = []) := by
  have hval : c.val.toNat = c.toNat := rfl
  have hmax : c.toNat < 1114112 := by
    have := c.valid
    rcases this with h | h
    · exact Nat.lt_trans h (by decide)
    · exact h.2
  unfold String.utf8EncodeChar
  dsimp only
  rw [hval]
  split
  · rename_i hle
    have hbyte : (UInt8.ofNat c.toNat).toNat = c.toNat := by
      rw [UInt8.toNat_ofNat']
      omega
    refine ⟨_, _, rfl, ?_, by simp, fun _ => hbyte, fun _ => ⟨hbyte, rfl⟩⟩
    rw [Continues, hbyte]
    omega
  · split
    · refine ⟨_, _, rfl, ?_, ?_, ?_, ?_⟩ <;>
        simp only [Continues, UInt8.toNat_ofNat', List.forall_mem_cons, List.not_mem_nil,
          false_imp_iff, forall_const, and_true] <;> omega
    · split
      · refine ⟨_, _, rfl, ?_, ?_, ?_, ?_⟩ <;>
          simp only [Continues, UInt8.toNat_ofNat', List.forall_mem_cons, List.not_mem_nil,
            false_imp_iff, forall_const, and_true] <;> omega
      · refine ⟨_, _, rfl, ?_, ?_, ?_, ?_⟩ <;>
          simp only [Continues, UInt8.toNat_ofNat', List.forall_mem_cons, List.not_mem_nil,
            false_imp_iff, forall_const, and_true] <;> omega

/-- The bytes of a character are no beginning of those of another. -/
lemma utf8EncodeChar_append_inj {x y : List UInt8}
    (h : String.utf8EncodeChar c ++ x = String.utf8EncodeChar d ++ y) : c = d ∧ x = y := by
  have hchar : ∀ (e : Char) (z : List UInt8),
      ByteArray.utf8DecodeChar? (String.utf8EncodeChar e ++ z).toByteArray 0 = some e := by
    intro e z
    rw [List.toByteArray_append]
    exact ByteArray.utf8DecodeChar?_utf8EncodeChar_append
  have hc := hchar c x
  rw [h, hchar d y] at hc
  obtain rfl := Option.some.inj hc
  exact ⟨rfl, List.append_cancel_left h⟩

lemma encode_injective (h : encode t = encode u) : t = u := by
  induction t generalizing u with
  | nil =>
    cases u with
    | nil => rfl
    | cons d u => exact absurd h.symm (by simp)
  | cons c t ih =>
    cases u with
    | nil => exact absurd h (by simp)
    | cons d u =>
      obtain ⟨rfl, hrest⟩ := utf8EncodeChar_append_inj h
      rw [ih hrest]

/-- Every end of the bytes of a text begins within the first character of an end of the text: at
its first byte, or at one that continues it. -/
inductive Within : List Char → List UInt8 → Prop
  | start (u : List Char) : Within u (encode u)
  | inside {c : Char} {u : List Char} {b : UInt8} {bs : List UInt8} : Continues b →
      b :: bs <:+ String.utf8EncodeChar c → 128 ≤ c.toNat → Within (c :: u) (b :: bs ++ encode u)

lemma exists_within (h : rest <:+ encode t) : ∃ u, u <:+ t ∧ Within u rest := by
  induction t with
  | nil =>
    obtain rfl := List.suffix_nil.mp h
    exact ⟨[], List.suffix_refl _, .start []⟩
  | cons c t ih =>
    obtain ⟨before, hbefore⟩ := h
    rw [encode_cons] at hbefore
    rcases List.append_eq_append_iff.mp hbefore with ⟨piece, hc, rfl⟩ | ⟨more, -, ht⟩
    · cases piece with
      | nil => exact ⟨t, List.suffix_cons c t, .start t⟩
      | cons b bs =>
        obtain ⟨first, others, hchar, -, hcontinues, -, hascii⟩ := utf8EncodeChar_cases c
        cases before with
        | nil =>
          rw [List.nil_append] at hc
          rw [← hc, ← encode_cons]
          exact ⟨c :: t, List.suffix_refl _, .start (c :: t)⟩
        | cons x before =>
          have hb : b ∈ others := by
            rw [hchar, List.cons_append, List.cons.injEq] at hc
            rw [hc.2]
            simp
          have hlarge : 128 ≤ c.toNat := by
            by_contra hsmall
            rw [(hascii (by omega)).2] at hb
            exact absurd hb List.not_mem_nil
          exact ⟨c :: t, List.suffix_refl _,
            .inside (hcontinues b hb) ⟨x :: before, hc.symm⟩ hlarge⟩
    · obtain ⟨u, hu, hwithin⟩ := ih ⟨more, ht.symm⟩
      exact ⟨u, hu.trans (List.suffix_cons c t), hwithin⟩

lemma Within.suffix (h : Within t rest) : rest <:+ encode t := by
  cases h with
  | start => exact List.suffix_refl _
  | inside _ hsuffix _ =>
    obtain ⟨before, hbefore⟩ := hsuffix
    exact ⟨before, by rw [← List.append_assoc, hbefore, encode_cons]⟩

/-- What begins with all the bytes of a character begins with the character. -/
lemma Within.of_utf8EncodeChar (h : Within t (String.utf8EncodeChar c ++ rest)) :
    ∃ u, t = c :: u ∧ rest = encode u := by
  generalize hbytes : String.utf8EncodeChar c ++ rest = bytes at h
  cases h with
  | start t =>
    cases t with
    | nil => exact absurd hbytes (by simp)
    | cons d u =>
      obtain ⟨rfl, rfl⟩ := utf8EncodeChar_append_inj hbytes
      exact ⟨u, rfl, rfl⟩
  | inside hcontinues _ _ =>
    obtain ⟨first, others, hchar, hfirst, -⟩ := utf8EncodeChar_cases c
    rw [hchar, List.cons_append, List.cons_append, List.cons.injEq] at hbytes
    exact absurd (hbytes.1 ▸ hcontinues) hfirst

end Utf8Bytes
