import RpiPackage.Edit.View

/-!
# Lines and byte offsets

The start and the end of a line are prefixes of the text. A boundary lies behind the start of a
line when at least as many newlines stand before it, and not behind its end when at most as many
do.
-/

namespace Edit

open Utf8

/-- The number of the line that a prefix ends in. -/
def lineNumber (p : Text) : Nat := p.count '\n'

/-- The prefix before a line. -/
def LineStart (t : Text) (line : Nat) (p : Text) : Prop :=
  p <+: t ∧ lineNumber p = line ∧ (p = [] ∨ ∃ p', p = p' ++ ['\n'])

/-- The prefix that ends with a line, before its newline. -/
def LineStop (t : Text) (line : Nat) (p : Text) : Prop :=
  p <+: t ∧ lineNumber p = line ∧ (p = t ∨ p ++ ['\n'] <+: t)

section

variable {t p q : Text} {l byte : Nat} {c : Char}

lemma size_newline : size ['\n'] = 1 := by decide

lemma lineNumber_mono (h : p <+: q) : lineNumber p ≤ lineNumber q :=
  h.sublist.count_le '\n'

@[simp] lemma lineNumber_nil : lineNumber [] = 0 := rfl

@[simp] lemma lineNumber_cons_newline (t : Text) : lineNumber ('\n' :: t) = lineNumber t + 1 :=
  List.count_cons_self

lemma lineNumber_cons_of_ne (hc : c ≠ '\n') (t : Text) : lineNumber (c :: t) = lineNumber t :=
  List.count_cons_of_ne hc

@[simp] lemma lineNumber_append (p q : Text) :
    lineNumber (p ++ q) = lineNumber p + lineNumber q :=
  List.count_append

lemma lineNumber_eq_zero : lineNumber t = 0 ↔ '\n' ∉ t := List.count_eq_zero

lemma lineNumber_concat_newline (p : Text) : lineNumber (p ++ ['\n']) = lineNumber p + 1 := by
  rw [lineNumber_append, lineNumber_cons_newline, lineNumber_nil]

/-! ### Order -/

lemma LineStart.size_le_iff (h : LineStart t l p) (hq : q <+: t) :
    size p ≤ size q ↔ l ≤ lineNumber q := by
  obtain ⟨hp, rfl, hstart⟩ := h
  constructor
  · intro hle
    exact lineNumber_mono (prefix_of_size_le hp hq hle)
  · intro hle
    by_contra hlt
    rcases hstart with rfl | ⟨p', rfl⟩
    · exact hlt (Nat.zero_le _)
    · have hbefore := size_le_of_lt_concat hq hp (Nat.lt_of_not_le hlt)
      have hstarts := prefix_of_size_le hq ((List.prefix_append p' _).trans hp) hbefore
      have hcount := lineNumber_mono hstarts
      rw [lineNumber_concat_newline] at hle
      omega

lemma LineStop.size_le_iff (h : LineStop t l p) (hq : q <+: t) :
    size q ≤ size p ↔ lineNumber q ≤ l := by
  obtain ⟨hp, rfl, hstop⟩ := h
  constructor
  · intro hle
    exact lineNumber_mono (prefix_of_size_le hq hp hle)
  · intro hle
    by_contra hlt
    rcases hstop with rfl | hnext
    · exact hlt (size_mono hq)
    · have hafter : size (p ++ ['\n']) ≤ size q := by
        rw [size_append, size_newline]
        omega
      have hcount := lineNumber_mono (prefix_of_size_le hnext hq hafter)
      rw [lineNumber_concat_newline] at hcount
      omega

/-- A line starts before it stops. -/
lemma LineStart.prefix_stop {l' : Nat} (h : LineStart t l p) (hq : LineStop t l' q) (hle : l ≤ l') :
    p <+: q :=
  prefix_of_size_le h.1 hq.1 ((hq.size_le_iff h.1).mpr (h.2.1.trans_le hle))

/-! ### The table -/

lemma cons_prefix_cons (h : p <+: t) : c :: p <+: c :: t := (List.prefix_cons_inj c).mpr h

lemma exists_lineStartsFrom (hl : l < lineNumber t) :
    ∃ p, (lineStartsFrom byte t)[l]? = some (byte + size (p ++ ['\n'])) ∧ p ++ ['\n'] <+: t ∧
      lineNumber p = l := by
  induction t generalizing byte l with
  | nil => exact absurd hl (Nat.not_lt_zero _)
  | cons c t ih =>
    rw [lineStartsFrom]
    by_cases hc : c = '\n'
    · subst hc
      rw [if_pos rfl]
      cases l with
      | zero => exact ⟨[], by rw [List.nil_append, size_newline]; rfl, ⟨t, rfl⟩, rfl⟩
      | succ l =>
        rw [lineNumber_cons_newline] at hl
        obtain ⟨p, hget, hstarts, hline⟩ := @ih l (byte + 1) (by omega)
        refine ⟨'\n' :: p, ?_, cons_prefix_cons hstarts, by rw [lineNumber_cons_newline, hline]⟩
        rw [List.getElem?_cons_succ, hget, List.cons_append, size_cons]
        congr 1
        have hsize : ('\n' : Char).utf8Size = 1 := by decide
        omega
    · rw [if_neg hc]
      rw [lineNumber_cons_of_ne hc] at hl
      obtain ⟨p, hget, hstarts, hline⟩ := @ih l (byte + c.utf8Size) hl
      refine ⟨c :: p, ?_, cons_prefix_cons hstarts, by rw [lineNumber_cons_of_ne hc, hline]⟩
      rw [hget, List.cons_append, size_cons, Nat.add_assoc]

lemma length_lineStartsFrom (byte : Nat) (t : Text) :
    (lineStartsFrom byte t).length = lineNumber t := by
  induction t generalizing byte with
  | nil => rfl
  | cons c t ih =>
    rw [lineStartsFrom]
    split
    next hc => rw [List.length_cons, ih, hc, lineNumber_cons_newline]
    next hc => rw [ih, lineNumber_cons_of_ne hc]

lemma exists_lineStart (hl : l ≤ lineNumber t) :
    ∃ p, LineStart t l p ∧ (lineStarts t).getD l 0 = size p := by
  cases l with
  | zero => exact ⟨[], ⟨List.nil_prefix, rfl, .inl rfl⟩, rfl⟩
  | succ l =>
    obtain ⟨p, hget, hstarts, hline⟩ := @exists_lineStartsFrom t l 0 hl
    refine ⟨p ++ ['\n'], ⟨hstarts, by rw [lineNumber_concat_newline, hline], .inr ⟨p, rfl⟩⟩, ?_⟩
    rw [lineStarts, List.getD_cons_succ, List.getD_eq_getElem?_getD, hget, Option.getD_some,
      Nat.zero_add]

lemma exists_lineStop (hl : l ≤ lineNumber t) :
    ∃ p, LineStop t l p ∧ NormalizedView.lineStop (lineStarts t) (size t) l = size p := by
  unfold NormalizedView.lineStop lineStarts
  rw [List.getElem?_cons_succ]
  rcases Nat.lt_or_ge l (lineNumber t) with hlt | hge
  · obtain ⟨p, hget, hstarts, hline⟩ := @exists_lineStartsFrom t l 0 hlt
    refine ⟨p, ⟨(List.prefix_append p _).trans hstarts, hline, .inr hstarts⟩, ?_⟩
    rw [hget]
    show 0 + size (p ++ ['\n']) - 1 = size p
    rw [size_append, size_newline]
    omega
  · refine ⟨t, ⟨List.prefix_refl t, Nat.le_antisymm hge hl, .inl rfl⟩, ?_⟩
    rw [List.getElem?_eq_none ((length_lineStartsFrom 0 t).trans_le hge)]

/-! ### The lines of a text -/

lemma length_splitLines (t : Text) : (splitLines t).length = lineNumber t + 1 := by
  induction t using text_induction with
  | hline line h =>
    rw [splitLines_of_not_mem h, lineNumber_eq_zero.mpr h]
    rfl
  | hcons line rest h ih =>
    rw [splitLines_append, splitLines_of_not_mem h, List.length_append, ih, lineNumber_append,
      lineNumber_cons_newline, lineNumber_eq_zero.mpr h, List.length_singleton]
    omega

/-- Between its start and its end stands the line. -/
lemma getElem?_splitLines_of_lineStart {line : Text} (hstart : LineStart t l p)
    (hstop : LineStop t l (p ++ line)) : (splitLines t)[l]? = some line := by
  obtain ⟨-, hp, hstart⟩ := hstart
  obtain ⟨-, hline, hstop⟩ := hstop
  have hnot : '\n' ∉ line := by
    rw [← lineNumber_eq_zero]
    rw [lineNumber_append] at hline
    omega
  have hafter : (splitLines (p ++ line))[l]? = some line := by
    rcases hstart with rfl | ⟨p', rfl⟩
    · rw [List.nil_append, splitLines_of_not_mem hnot, ← hp]
      rfl
    · rw [lineNumber_concat_newline] at hp
      rw [List.append_assoc, List.singleton_append, splitLines_append, splitLines_of_not_mem hnot,
        List.getElem?_append_right (by rw [length_splitLines]; omega), length_splitLines, hp,
        Nat.sub_self]
      rfl
  rcases hstop with heq | ⟨rest, heq⟩
  · rw [← heq, hafter]
  · have hlt : l < (splitLines (p ++ line)).length := (List.getElem?_eq_some_iff.mp hafter).1
    rw [← heq, List.append_assoc, List.singleton_append, splitLines_append,
      List.getElem?_append_left hlt, hafter]

/-! ### Positions -/

/-- The position of a boundary counts the characters and the newlines before it. -/
lemma getElem?_positionsFrom (k line : Nat) (xs ys : Text) :
    (positionsFrom k line (xs ++ ys))[size xs]? = some ⟨k + xs.length, line + lineNumber xs⟩ := by
  induction xs generalizing k line with
  | nil =>
    cases ys with
    | nil => rfl
    | cons c ys =>
      rw [List.nil_append, positionsFrom, size_nil,
        List.getElem?_append_left (by rw [List.length_replicate]; exact c.utf8Size_pos),
        List.getElem?_replicate_of_lt c.utf8Size_pos]
      rfl
  | cons c xs ih =>
    rw [List.cons_append, positionsFrom, size_cons,
      List.getElem?_append_right (by rw [List.length_replicate]; exact Nat.le_add_right _ _),
      List.length_replicate, Nat.add_sub_cancel_left, ih, List.length_cons]
    by_cases hc : c = '\n'
    · rw [if_pos hc, hc, lineNumber_cons_newline]
      congr 2 <;> omega
    · rw [if_neg hc, lineNumber_cons_of_ne hc]
      congr 2
      omega

end

end Edit
