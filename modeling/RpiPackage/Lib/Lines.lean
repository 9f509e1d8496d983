import Mathlib.Data.List.Basic
import Mathlib.Tactic.Common

/-!
# Complete lines of a growing text

A text splits into the lines that a delimiter ends and the rest after the last delimiter. When the
text grows, only its rest can still change, so the split can be kept up to date from any chunks.
-/

namespace Lines

variable {α : Type*} [DecidableEq α] (delim : α)

def feed (state : List (List α) × List α) (a : α) : List (List α) × List α :=
  if a = delim then (state.1 ++ [state.2 ++ [a]], []) else (state.1, state.2 ++ [a])

/-- The complete lines of a text, each with its delimiter, and the rest. -/
def split (text : List α) : List (List α) × List α := text.foldl (feed delim) ([], [])

/-- A chunk up to its first delimiter, or all of it. -/
def takeLine : List α → List α
  | [] => []
  | a :: chunk => if a = delim then [a] else a :: takeLine chunk

variable {delim}

@[simp] lemma split_nil : split delim [] = ([], []) := rfl

lemma split_append (text chunk : List α) :
    split delim (text ++ chunk) = chunk.foldl (feed delim) (split delim text) :=
  List.foldl_append

lemma foldl_feed_of_not_mem {chunk : List α} (h : delim ∉ chunk)
    (state : List (List α) × List α) :
    chunk.foldl (feed delim) state = (state.1, state.2 ++ chunk) := by
  induction chunk generalizing state with
  | nil => simp
  | cons a chunk ih =>
    rw [List.mem_cons, not_or] at h
    rw [List.foldl_cons, feed, if_neg (Ne.symm h.1), ih h.2, List.append_assoc,
      List.singleton_append]

/-- The complete lines of a state stay in front. -/
lemma foldl_feed (chunk : List α) (lines : List (List α)) (rest : List α) :
    chunk.foldl (feed delim) (lines, rest) =
      (lines ++ (chunk.foldl (feed delim) ([], rest)).1,
        (chunk.foldl (feed delim) ([], rest)).2) := by
  induction chunk generalizing lines rest with
  | nil => simp
  | cons a chunk ih =>
    rw [List.foldl_cons, List.foldl_cons, feed, feed]
    split
    · rw [ih, List.nil_append, ih [rest ++ [a]], List.append_assoc]
    · exact ih lines (rest ++ [a])

/-- A delimiter splits the text into what stands before it and what stands after it. -/
lemma split_append_delim (text chunk : List α) :
    split delim (text ++ delim :: chunk) =
      ((split delim text).1 ++ [(split delim text).2 ++ [delim]] ++ (split delim chunk).1,
        (split delim chunk).2) := by
  rw [split_append, List.foldl_cons, feed, if_pos rfl, foldl_feed]
  rfl

/-- A chunk without a delimiter only makes the rest longer. -/
lemma split_append_of_not_mem {chunk : List α} (h : delim ∉ chunk) (text : List α) :
    split delim (text ++ chunk) = ((split delim text).1, (split delim text).2 ++ chunk) := by
  rw [split_append, foldl_feed_of_not_mem h]

/-- A chunk that ends in its only delimiter completes one line. -/
lemma split_append_line {chunk : List α} (h : delim ∉ chunk) (text : List α) :
    split delim (text ++ (chunk ++ [delim])) =
      ((split delim text).1 ++ [(split delim text).2 ++ (chunk ++ [delim])], []) := by
  rw [← List.append_assoc, split_append, List.foldl_cons, List.foldl_nil,
    split_append_of_not_mem h, feed, if_pos rfl, List.append_assoc]

/-- Lines and rest make up the text. -/
lemma flatten_split (text : List α) :
    (split delim text).1.flatten ++ (split delim text).2 = text := by
  suffices h : ∀ state : List (List α) × List α,
      (text.foldl (feed delim) state).1.flatten ++ (text.foldl (feed delim) state).2 =
        state.1.flatten ++ state.2 ++ text by
    simpa [split] using h ([], [])
  induction text with
  | nil => simp
  | cons a text ih =>
    intro state
    rw [List.foldl_cons, ih, feed]
    split <;> simp

/-- A delimiter ends every line, and the rest has none. -/
lemma split_spec (delim : α) (text : List α) :
    (∀ line ∈ (split delim text).1, ∃ start, line = start ++ [delim]) ∧
      delim ∉ (split delim text).2 := by
  suffices h : ∀ state : List (List α) × List α,
      (∀ line ∈ state.1, ∃ start, line = start ++ [delim]) ∧ delim ∉ state.2 →
      (∀ line ∈ (text.foldl (feed delim) state).1, ∃ start, line = start ++ [delim]) ∧
        delim ∉ (text.foldl (feed delim) state).2 by
    exact h ([], []) ⟨fun line hline => absurd hline List.not_mem_nil, List.not_mem_nil⟩
  induction text with
  | nil => exact fun state h => h
  | cons a text ih =>
    intro state ⟨hlines, hrest⟩
    rw [List.foldl_cons]
    apply ih
    unfold feed
    split
    next ha =>
      refine ⟨fun line hline => ?_, List.not_mem_nil⟩
      rcases List.mem_append.mp hline with hold | hnew
      · exact hlines line hold
      · exact ⟨state.2, by rw [List.mem_singleton.mp hnew, ha]⟩
    next ha =>
      refine ⟨hlines, fun hmem => ?_⟩
      rcases List.mem_append.mp hmem with hold | hnew
      · exact hrest hold
      · exact ha (List.mem_singleton.mp hnew).symm

/-- A reader takes a chunk without a delimiter, or a line that its only delimiter ends. -/
lemma takeLine_cases (chunk : List α) :
    delim ∉ takeLine delim chunk ∨ ∃ line, delim ∉ line ∧ takeLine delim chunk = line ++ [delim] := by
  induction chunk with
  | nil => exact .inl List.not_mem_nil
  | cons a chunk ih =>
    by_cases ha : a = delim
    · exact .inr ⟨[], List.not_mem_nil, by rw [takeLine, if_pos ha, ha, List.nil_append]⟩
    · rw [takeLine, if_neg ha]
      rcases ih with ih | ⟨line, hline, heq⟩
      · exact .inl (by simpa [Ne.symm ha] using ih)
      · exact .inr ⟨a :: line, by simpa [Ne.symm ha] using hline, by rw [heq, List.cons_append]⟩

lemma takeLine_prefix (chunk : List α) : takeLine delim chunk <+: chunk := by
  induction chunk with
  | nil => exact List.prefix_refl _
  | cons a chunk ih =>
    rw [takeLine]
    split
    · exact ⟨chunk, rfl⟩
    · exact (List.prefix_cons_inj a).mpr ih

lemma takeLine_ne_nil {chunk : List α} (h : chunk ≠ []) : takeLine delim chunk ≠ [] := by
  cases chunk with
  | nil => exact absurd rfl h
  | cons a chunk =>
    rw [takeLine]
    split <;> exact List.cons_ne_nil _ _

/-- What a reader takes either completes the line it is in or makes it longer. -/
lemma split_append_takeLine (text chunk : List α) (hne : takeLine delim chunk ≠ []) :
    split delim (text ++ takeLine delim chunk) =
      if ((split delim text).2 ++ takeLine delim chunk).getLast? = some delim then
        ((split delim text).1 ++ [(split delim text).2 ++ takeLine delim chunk], [])
      else ((split delim text).1, (split delim text).2 ++ takeLine delim chunk) := by
  rw [List.getLast?_append_of_ne_nil _ hne]
  rcases @takeLine_cases _ _ delim chunk with hnot | ⟨line, hline, heq⟩
  · rw [if_neg fun hlast => hnot (List.mem_of_getLast? hlast), split_append_of_not_mem hnot]
  · rw [heq, if_pos List.getLast?_concat, split_append_line hline]

end Lines
