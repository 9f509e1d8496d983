import RpiPackage.Lib.Lines

/-!
# Texts and their lines

The text of a file is a list of characters.
-/

namespace Edit

abbrev Text := List Char

/-- `str::split('\n')`: what a newline ends, and the rest. -/
def splitLines (text : Text) : List Text :=
  (Lines.split '\n' text).1.map List.dropLast ++ [(Lines.split '\n' text).2]

/-- The lines that are compared, each with its newline. -/
def fromLines (text : Text) : List Text :=
  (Lines.split '\n' text).1 ++ [(Lines.split '\n' text).2].filter (· ≠ [])

def withoutNewline (line : Text) : Text :=
  if line.getLast? = some '\n' then line.dropLast else line

lemma length_fromLines_le (text : Text) :
    (fromLines text).length ≤ (splitLines text).length := by
  unfold fromLines splitLines
  rw [List.length_append, List.length_append, List.length_map, List.length_singleton]
  exact Nat.add_le_add_left (List.length_filter_le _ _) _

/-- A compared line is a line of the text and its newline. -/
lemma getElem?_splitLines {text : Text} {i : Nat} (h : i < (fromLines text).length) :
    (splitLines text)[i]? = (fromLines text)[i]?.map withoutNewline := by
  obtain ⟨hlines, hrest⟩ := Lines.split_spec '\n' text
  unfold fromLines at h ⊢
  unfold splitLines
  rcases Nat.lt_or_ge i (Lines.split '\n' text).1.length with hlt | hge
  · rw [List.getElem?_append_left (by simpa using hlt), List.getElem?_append_left hlt,
      List.getElem?_map, List.getElem?_eq_getElem hlt]
    obtain ⟨start, hstart⟩ := hlines _ (List.getElem_mem hlt)
    rw [Option.map_some, Option.map_some, hstart]
    simp [withoutNewline]
  · rw [List.getElem?_append_right (by simpa using hge), List.getElem?_append_right hge,
      List.length_map]
    by_cases hnil : (Lines.split '\n' text).2 = []
    · rw [hnil, List.length_append] at h
      simp at h
      omega
    · have hlast : (Lines.split '\n' text).2.getLast? ≠ some '\n' :=
        fun heq => hrest (List.mem_of_getLast? heq)
      rw [List.filter_cons_of_pos (by simpa using hnil)]
      cases i - (Lines.split '\n' text).1.length with
      | zero => simp [withoutNewline, hlast]
      | succ k => rfl

lemma splitLines_append (xs ys : Text) :
    splitLines (xs ++ '\n' :: ys) = splitLines xs ++ splitLines ys := by
  unfold splitLines
  rw [Lines.split_append_delim]
  simp

lemma splitLines_of_not_mem {line : Text} (h : '\n' ∉ line) : splitLines line = [line] := by
  unfold splitLines Lines.split
  rw [Lines.foldl_feed_of_not_mem h]
  rfl

/-- Lines that are joined are split again. -/
lemma splitLines_intercalate {lines : List Text} (hne : lines ≠ [])
    (h : ∀ line ∈ lines, '\n' ∉ line) : splitLines (List.intercalate ['\n'] lines) = lines := by
  induction lines with
  | nil => exact absurd rfl hne
  | cons line lines ih =>
    have hline := splitLines_of_not_mem (h line List.mem_cons_self)
    cases lines with
    | nil =>
      rw [List.intercalate_singleton]
      exact hline
    | cons line' lines =>
      rw [List.intercalate_cons_cons, List.append_assoc, List.singleton_append, splitLines_append,
        hline, ih (List.cons_ne_nil _ _) fun l hl => h l (List.mem_cons_of_mem _ hl)]
      rfl

/-- A text is one line, or a line and the text after its newline. -/
lemma line_cases (text : Text) :
    '\n' ∉ text ∨ ∃ line rest, '\n' ∉ line ∧ text = line ++ '\n' :: rest := by
  by_cases h : '\n' ∈ text
  · obtain ⟨line, rest, heq, hline⟩ := List.eq_append_cons_of_mem h
    exact .inr ⟨line, rest, hline, heq⟩
  · exact .inl h

/-- What holds of single lines, and of a text with one more line in front, holds of all texts. -/
lemma text_induction {P : Text → Prop} (hline : ∀ line, '\n' ∉ line → P line)
    (hcons : ∀ line rest, '\n' ∉ line → P rest → P (line ++ '\n' :: rest)) (text : Text) :
    P text := by
  suffices h : ∀ n, ∀ text : Text, text.length ≤ n → P text from h _ text (Nat.le_refl _)
  intro n
  induction n with
  | zero =>
    intro text hlen
    rw [List.length_eq_zero_iff.mp (Nat.le_zero.mp hlen)]
    exact hline [] List.not_mem_nil
  | succ n ih =>
    intro text hlen
    rcases line_cases text with h | ⟨line, rest, h, rfl⟩
    · exact hline text h
    · rw [List.length_append, List.length_cons] at hlen
      exact hcons line rest h (ih rest (by omega))

lemma not_mem_of_mem_splitLines {text : Text} : ∀ line ∈ splitLines text, '\n' ∉ line := by
  induction text using text_induction with
  | hline line h =>
    intro l hl
    rw [splitLines_of_not_mem h, List.mem_singleton] at hl
    rwa [hl]
  | hcons line rest h ih =>
    intro l hl
    rw [splitLines_append, splitLines_of_not_mem h, List.singleton_append, List.mem_cons] at hl
    rcases hl with rfl | hl
    · exact h
    · exact ih l hl

end Edit
