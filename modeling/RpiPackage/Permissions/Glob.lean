import RpiPackage.Lib.Glob
import RpiPackage.Lib.Utf8Bytes
import RpiPackage.Permissions.Rules

/-!
# What a pattern of a rule matches

The loop over bytes decides one relation for every pattern and value: a wildcard of the pattern
that meets a star in the value stands for just that star. Where this is not the meaning of the
pattern, the loop misses a match; it never makes one up.
-/

namespace Permissions

open Glob Utf8Bytes

/-! ### The loop -/

variable {p v : List UInt8} {star : Option (List UInt8 × List UInt8)}

/-- What the last star keeps is what is left, with the same bytes before the pattern and before the
value. -/
def Aligned (p v : List UInt8) (star : Option (List UInt8 × List UInt8)) : Prop :=
  ∀ ps m, star = some (ps, m) → ∃ same, ps = same ++ p ∧ m = same ++ v

/-- The last star takes one byte more or several. -/
def Later (star : Option (List UInt8 × List UInt8)) : Prop :=
  ∃ ps m u, star = some (ps, m) ∧ u <:+ m.tail ∧ Takes 42 ps u

lemma later_some {ps m : List UInt8} : Later (some (ps, m)) ↔ ∃ u, u <:+ m.tail ∧ Takes 42 ps u := by
  constructor
  · rintro ⟨ps', m', u, heq, hu⟩
    obtain ⟨rfl, rfl⟩ := Prod.mk.inj (Option.some.inj heq)
    exact ⟨u, hu⟩
  · rintro ⟨u, hu⟩
    exact ⟨ps, m, u, rfl, hu⟩

lemma aligned_self {ps vs : List UInt8} : Aligned ps vs (some (ps, vs)) := by
  intro qs m heq
  obtain ⟨rfl, rfl⟩ := Prod.mk.inj (Option.some.inj heq)
  exact ⟨[], rfl, rfl⟩

/-- A star that keeps nothing of the value is none that has something more to try. -/
lemma Aligned.not_later {c : UInt8} {vs : List UInt8} (haligned : Aligned p (c :: vs) star)
    (hstar : ∀ (ps : List UInt8) (x : UInt8) (us : List UInt8), star = some (ps, x :: us) → False) :
    ¬Later star := by
  rintro ⟨ps, m, u, heq, -⟩
  obtain ⟨same, -, rfl⟩ := haligned ps m heq
  cases same with
  | nil => exact hstar ps c vs heq
  | cons x same => exact hstar ps x (same ++ c :: vs) heq

/-- When what is left of the pattern fails, it fails on every end of what is left of the value, and
the last star has nothing more to try. -/
lemma Aligned.exists_suffix (haligned : Aligned p v star) (h : Later star) :
    ∃ u, u <:+ v ∧ Takes 42 p u := by
  obtain ⟨ps, m, u, hstar, hu, htakes⟩ := h
  obtain ⟨same, rfl, rfl⟩ := haligned ps m hstar
  exact exists_suffix_of_takes (hu.trans (List.tail_suffix _)) htakes

/-- After a mismatch the last star takes one byte more. -/
lemma takes_or_later_retry {ps vs : List UInt8} {c : UInt8} :
    Takes 42 ps vs ∨ Later (some (ps, vs)) ↔ Later (some (ps, c :: vs)) := by
  rw [later_some, later_some, List.tail_cons]
  constructor
  · rintro (h | ⟨u, hu, h⟩)
    · exact ⟨vs, List.suffix_refl _, h⟩
    · exact ⟨u, hu.trans (List.tail_suffix _), h⟩
  · rintro ⟨u, hu, h⟩
    rcases List.suffix_iff_eq_append.mp hu with heq
    by_cases hall : u = vs
    · exact .inl (hall ▸ h)
    · refine .inr ⟨u, ?_, h⟩
      obtain ⟨before, rfl⟩ := hu
      cases before with
      | nil => exact absurd rfl hall
      | cons x before => exact ⟨before, rfl⟩

/-- The loop finds a match when what is left of the pattern makes one of what is left of the value,
or the last star does. -/
lemma globLoop_iff (haligned : Aligned p v star) :
    globLoop p v star = true ↔ Takes 42 p v ∨ Later star := by
  fun_induction globLoop p v star with
  | case1 p star =>
    rw [List.all_eq_true, takes_nil_right]
    simp only [beq_iff_eq]
    refine ⟨.inl, ?_⟩
    rintro (h | h)
    · exact h
    · obtain ⟨u, hu, htakes⟩ := haligned.exists_suffix h
      obtain rfl := List.suffix_nil.mp hu
      exact takes_nil_right.mp htakes
  | case2 star vs c ps ih =>
    have haligned' : Aligned ps vs star := by
      intro qs m hstar
      obtain ⟨same, rfl, rfl⟩ := haligned qs m hstar
      exact ⟨same ++ [c], by simp, by simp⟩
    rw [ih haligned']
    refine or_congr_left ?_
    by_cases hc : c = 42
    · subst hc
      exact takes_same.symm
    · rw [takes_letter hc]
      simp
  | case3 star c vs ps hne ih =>
    have hhead : (c :: vs).head? ≠ some 42 := by simpa using Ne.symm hne
    rw [ih aligned_self, @takes_or_later_retry ps (c :: vs) c, later_some, List.tail_cons, ← takes_wild hhead]
    -- what an earlier star could still find, this one finds
    refine ⟨.inl, ?_⟩
    rintro (h | h)
    · exact h
    · obtain ⟨u, hu, htakes⟩ := haligned.exists_suffix h
      by_cases hstar : u.head? = some 42
      · cases u with
        | nil => simp at hstar
        | cons x u =>
          obtain rfl := Option.some.inj hstar
          exact (takes_wild hhead).mpr ⟨u, (List.suffix_cons _ u).trans hu, takes_same.mp htakes⟩
      · obtain ⟨w, hw, htakes⟩ := (takes_wild hstar).mp htakes
        exact (takes_wild hhead).mpr ⟨w, hw.trans hu, htakes⟩
  | case4 c vs d ps hne hnot qs x us ih =>
    have hmiss : ¬Takes 42 (d :: ps) (c :: vs) := by
      rw [takes_letter hnot]
      rintro ⟨u, heq, -⟩
      exact hne (List.cons.inj heq).1.symm
    rw [ih aligned_self, @takes_or_later_retry qs us x, or_iff_right hmiss]
  | case5 star c vs d ps hne hnot hstar =>
    have hmiss : ¬Takes 42 (d :: ps) (c :: vs) := by
      rw [takes_letter hnot]
      rintro ⟨u, heq, -⟩
      exact hne (List.cons.inj heq).1.symm
    rw [or_iff_right hmiss, iff_false_left Bool.false_ne_true]
    exact haligned.not_later hstar
  | case6 c vs qs x us ih =>
    rw [ih aligned_self, @takes_or_later_retry qs us x, or_iff_right]
    rw [takes_nil_left]
    exact List.cons_ne_nil c vs
  | case7 star c vs hstar =>
    have hmiss : ¬Takes 42 [] (c :: vs) := by
      rw [takes_nil_left]
      exact List.cons_ne_nil c vs
    rw [or_iff_right hmiss, iff_false_left Bool.false_ne_true]
    exact haligned.not_later hstar

/-! ### Characters -/

lemma star_bytes : String.utf8EncodeChar '*' = [42] := by decide

/-- No byte of another character is a star. -/
lemma star_not_mem_utf8EncodeChar {c : Char} (hc : c ≠ '*') : 42 ∉ String.utf8EncodeChar c := by
  obtain ⟨first, rest, hchar, -, hcontinues, hascii, -⟩ := utf8EncodeChar_cases c
  rw [hchar, List.mem_cons]
  rintro (hfirst | hrest)
  · subst hfirst
    exact hc (Char.ext (UInt32.toNat_inj.mp (hascii (by decide)).symm))
  · exact absurd (hcontinues 42 hrest).1 (by decide)

/-- Bytes that are none of a star stand for themselves. -/
lemma takes_bytes {bytes q u : List UInt8} (hbytes : 42 ∉ bytes) :
    Takes 42 (bytes ++ q) u ↔ ∃ w, u = bytes ++ w ∧ Takes 42 q w := by
  induction bytes generalizing u with
  | nil => simp
  | cons b bytes ih =>
    rw [List.mem_cons, not_or] at hbytes
    rw [List.cons_append, takes_letter (Ne.symm hbytes.1)]
    constructor
    · rintro ⟨u, rfl, hu⟩
      obtain ⟨w, rfl, hw⟩ := (ih hbytes.2).mp hu
      exact ⟨w, rfl, hw⟩
    · rintro ⟨w, rfl, hw⟩
      exact ⟨bytes ++ w, rfl, (ih hbytes.2).mpr ⟨w, rfl, hw⟩⟩

lemma head?_encode {t : List Char} : (encode t).head? = some 42 ↔ t.head? = some '*' := by
  cases t with
  | nil => simp
  | cons c t =>
    by_cases hc : c = '*'
    · subst hc
      simp [star_bytes]
    · have hnot := star_not_mem_utf8EncodeChar hc
      obtain ⟨first, rest, hchar, -⟩ := utf8EncodeChar_cases c
      rw [hchar, List.mem_cons, not_or] at hnot
      simp [hchar, hc, Ne.symm hnot.1]

lemma takes_encode {p t : List Char} (h : Takes '*' p t) : Takes 42 (encode p) (encode t) := by
  induction h with
  | nil => exact .nil
  | @same a p t _ ih =>
    by_cases ha : a = '*'
    · subst ha
      simpa [star_bytes] using ih.same
    · exact (takes_bytes (star_not_mem_utf8EncodeChar ha)).mpr ⟨_, rfl, ih⟩
  | @wild piece p t hhead _ ih =>
    rw [encode_cons, encode_append, star_bytes]
    refine .wild _ ?_ ih
    rw [← encode_append, Ne, head?_encode]
    exact hhead

/-- The end of a text that begins with the byte of a star begins with a star. -/
lemma of_star {t : List Char} {u : List UInt8} (h : Within t u) (hhead : u.head? = some 42) :
    ∃ t', t = '*' :: t' ∧ u = 42 :: encode t' := by
  cases h with
  | start t =>
    cases t with
    | nil => simp at hhead
    | cons c t =>
      obtain rfl : c = '*' := by simpa using head?_encode.mp hhead
      exact ⟨t, rfl, by simp [star_bytes]⟩
  | inside hcontinues _ _ =>
    obtain rfl := Option.some.inj hhead
    exact absurd hcontinues.1 (by decide)

lemma head_ne_star {t : List Char} {u : List UInt8} (h : Within t u) (hhead : u.head? ≠ some 42) :
    t.head? ≠ some '*' := by
  cases h with
  | start t => exact fun heq => hhead (head?_encode.mpr heq)
  | inside _ _ hlarge =>
    intro heq
    obtain rfl := Option.some.inj heq
    exact absurd hlarge (by decide)

/-- A match of bytes may cut characters; each cut moves back to the beginning of the character. -/
lemma takes_of_encode {p t : List Char} {u : List UInt8} (hwithin : Within t u)
    (h : Takes 42 (encode p) u) : Takes '*' p t := by
  induction p generalizing t u with
  | nil =>
    obtain rfl := takes_nil_left.mp h
    generalize hu : ([] : List UInt8) = u at hwithin
    cases hwithin with
    | start =>
      obtain rfl := encode_injective (hu.symm.trans encode_nil.symm)
      exact .nil
    | inside => exact absurd hu (by simp)
  | cons c p ih =>
    by_cases hc : c = '*'
    · subst hc
      rw [encode_cons, star_bytes, List.singleton_append] at h
      by_cases hmet : u.head? = some 42
      · obtain ⟨t, rfl, rfl⟩ := of_star hwithin hmet
        exact (ih (.start t) (takes_same.mp h)).same
      · obtain ⟨w, hw, h⟩ := (takes_wild hmet).mp h
        obtain ⟨t', ht', hwithin'⟩ := exists_within (hw.trans hwithin.suffix)
        exact (takes_wild (head_ne_star hwithin hmet)).mpr ⟨t', ht', ih hwithin' h⟩
    · rw [encode_cons] at h
      obtain ⟨w, rfl, hw⟩ := (takes_bytes (star_not_mem_utf8EncodeChar hc)).mp h
      obtain ⟨t', rfl, rfl⟩ := hwithin.of_utf8EncodeChar
      exact (ih (.start t') hw).same

lemma takes_encode_iff {p t : List Char} : Takes 42 (encode p) (encode t) ↔ Takes '*' p t :=
  ⟨takes_of_encode (.start t), takes_encode⟩

lemma globMatches_iff (pattern value : String) :
    globMatches pattern value = true ↔ Takes '*' pattern.toList value.toList := by
  have haligned : ∀ p v : List UInt8, Aligned p v none := by
    intro p v ps m heq
    exact absurd heq (by simp)
  have hlater : ¬Later none := by
    rintro ⟨ps, m, u, heq, -⟩
    exact absurd heq (by simp)
  rw [globMatches, globLoop_iff (haligned _ _), or_iff_left hlater, toUTF8_toList, toUTF8_toList,
    takes_encode_iff]

/-- The answer is the right one exactly when the value does not match the pattern, or matches it by
a split in which each star of the pattern that meets a star in the value stands for just that one. -/
theorem globMatches_spec (pattern value : String) :
    (globMatches pattern value = true ↔ Matches '*' pattern.toList value.toList) ↔
      (¬Matches '*' pattern.toList value.toList ∨ Takes '*' pattern.toList value.toList) := by
  rw [globMatches_iff]
  constructor
  · intro h
    by_cases hmatches : Matches '*' pattern.toList value.toList
    · exact .inr (h.mpr hmatches)
    · exact .inl hmatches
  · intro h
    refine ⟨Takes.matches, fun hmatches => ?_⟩
    exact h.resolve_left (not_not_intro hmatches)

/-- One star stands for any text, but it misses one that begins with a star. -/
theorem globMatches_star_of_star :
    globMatches "*" "*a" = false ∧ Matches '*' "*".toList "*a".toList := by
  refine ⟨?_, .wild "*a".toList .nil⟩
  rw [← Bool.not_eq_true, globMatches_iff]
  show ¬Takes '*' ['*'] ['*', 'a']
  rw [takes_same, takes_nil_left]
  exact List.cons_ne_nil 'a' []

end Permissions
