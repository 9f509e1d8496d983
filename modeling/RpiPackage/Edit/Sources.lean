import RpiPackage.Edit.LineTable

/-!
# The sources of normalized characters

Every character of the view comes from a character of the original on the same line, newlines come
from newlines, and later characters come from the same or from later ones.
-/

namespace Edit

open Utf8

/-- What is relied on from NFKC: newlines are neither created nor removed, and an empty line stays
empty. -/
structure Nfkc.KeepsLines (nf : Nfkc) : Prop where
  expand_newline : nf.expand '\n' = ['\n']
  expand_other : ∀ c, c ≠ '\n' → '\n' ∉ nf.expand c
  all_lines : ∀ t : Text, lineNumber (nf.all t) = lineNumber t
  all_empty : ∀ (t : Text) (i : Nat),
    (splitLines t)[i]? = some [] → (splitLines (nf.all t))[i]? = some []

/-! ### Folded characters -/

section

lemma foldQuote_cases (c : Char) :
    foldQuote c = c ∨ foldQuote c = Char.ofNat 0x27 ∨ foldQuote c = Char.ofNat 0x22 ∨
      foldQuote c = '-' := by
  unfold foldQuote
  split
  · exact .inr (.inl rfl)
  · split
    · exact .inr (.inr (.inl rfl))
    · split
      · exact .inr (.inr (.inr rfl))
      · exact .inl rfl

lemma foldQuote_eq_newline {c : Char} : foldQuote c = '\n' ↔ c = '\n' := by
  constructor
  · intro h
    rcases foldQuote_cases c with heq | heq | heq | heq
    · rw [← heq, h]
    · exact absurd (heq.symm.trans h) (by decide)
    · exact absurd (heq.symm.trans h) (by decide)
    · exact absurd (heq.symm.trans h) (by decide)
  · rintro rfl
    decide

lemma foldChar_eq_newline {c : Char} : foldChar c = '\n' ↔ c = '\n' := by
  unfold foldChar
  split
  next hspace =>
    constructor
    · intro h
      exact absurd h (by decide)
    · rintro rfl
      exact absurd hspace (by decide)
  next => exact foldQuote_eq_newline

end

/-! ### Where characters come from -/

/-- A character of the view comes from the character of the content behind the prefix `p`. -/
structure ComesFrom (nf : Nfkc) (content p : Text) (c : Char) (n : SourceChar) : Prop where
  prefix_concat : p ++ [c] <+: content
  start : n.start = size p
  stop : n.stop = size (p ++ [c])
  newline : n.char = '\n' ↔ c = '\n'
  mem : n.char ∈ (nf.expand c).map foldQuote

/-- The lines of the characters in the view are those of their sources. -/
def Lined (nf : Nfkc) (content : Text) : Nat → List SourceChar → Prop
  | _, [] => True
  | line, n :: ns =>
    (∃ p c, ComesFrom nf content p c n ∧ lineNumber p = line) ∧
      Lined nf content (if n.char = '\n' then line + 1 else line) ns

def charsOf (ns : List SourceChar) : Text := ns.map (·.char)

section

variable {nf : Nfkc} {content rest p : Text} {c : Char} {line start : Nat}
  {ns ms : List SourceChar} {n : SourceChar} {v : ViewChars}

@[simp] lemma charsOf_cons (n : SourceChar) (ns : List SourceChar) :
    charsOf (n :: ns) = n.char :: charsOf ns := rfl

@[simp] lemma charsOf_append (ns ms : List SourceChar) :
    charsOf (ns ++ ms) = charsOf ns ++ charsOf ms :=
  List.map_append

lemma lined_append :
    Lined nf content line (ns ++ ms) ↔
      Lined nf content line ns ∧ Lined nf content (line + lineNumber (charsOf ns)) ms := by
  induction ns generalizing line with
  | nil => simp [Lined, charsOf]
  | cons n ns ih =>
    rw [List.cons_append, Lined, Lined, ih, and_assoc]
    by_cases hn : n.char = '\n'
    · rw [if_pos hn, charsOf_cons, hn, lineNumber_cons_newline, Nat.add_assoc, Nat.add_comm 1]
    · rw [if_neg hn, charsOf_cons, lineNumber_cons_of_ne hn]

/-- Without newlines the characters stay on one line. -/
lemma lined_of_forall (h : ∀ n ∈ ns, n.char ≠ '\n' ∧ ∃ p c, ComesFrom nf content p c n ∧
    lineNumber p = line) : Lined nf content line ns := by
  induction ns with
  | nil => trivial
  | cons n ns ih =>
    obtain ⟨hn, hcomes⟩ := h n List.mem_cons_self
    refine ⟨hcomes, ?_⟩
    rw [if_neg hn]
    exact ih fun m hm => h m (List.mem_cons_of_mem n hm)

lemma lineNumber_charsOf_eq_zero (h : ∀ n ∈ ns, n.char ≠ '\n') : lineNumber (charsOf ns) = 0 := by
  rw [lineNumber_eq_zero, charsOf, List.mem_map]
  rintro ⟨n, hn, hchar⟩
  exact h n hn hchar

/-- What holds when the content up to the prefix `p` has been read. -/
structure Read (nf : Nfkc) (content p : Text) (v : ViewChars) : Prop where
  lined : Lined nf content 0 v.chars
  lines : lineNumber (charsOf v.chars) = lineNumber p
  pending : ∀ n ∈ v.pending, n.char ≠ '\n' ∧ ∃ q c, ComesFrom nf content q c n ∧
    lineNumber q = lineNumber p
  rising : (v.chars ++ v.pending).Pairwise fun m n => m.start ≤ n.start
  behind : ∀ n ∈ v.chars ++ v.pending, n.start ≤ size p

lemma read_nil : Read nf content [] ⟨[], []⟩ :=
  ⟨trivial, rfl, fun _ h => absurd h List.not_mem_nil, List.Pairwise.nil,
    fun _ h => absurd h List.not_mem_nil⟩

/-- Characters that come from the next character of the content keep the order. -/
lemma pairwise_concat (h : ns.Pairwise fun m n => m.start ≤ n.start)
    (hbehind : ∀ m ∈ ns, m.start ≤ n.start) :
    (ns ++ [n]).Pairwise fun m n => m.start ≤ n.start := by
  rw [List.pairwise_append]
  refine ⟨h, List.pairwise_singleton _ _, fun m hm k hk => ?_⟩
  rw [List.mem_singleton.mp hk]
  exact hbehind m hm

/-- A character that is no newline is kept, or waits for a character behind it. -/
lemma Read.push (h : Read nf content p v) (hcomes : ComesFrom nf content p c n)
    (hn : n.char ≠ '\n') : Read nf content p (v.push n) := by
  have hbehind : ∀ m ∈ v.chars ++ v.pending, m.start ≤ n.start := by
    rw [hcomes.start]
    exact h.behind
  have hrising := pairwise_concat h.rising hbehind
  have hle : ∀ m ∈ v.chars ++ v.pending ++ [n], m.start ≤ size p := by
    intro m hm
    rcases List.mem_append.mp hm with hm | hm
    · exact h.behind m hm
    · rw [List.mem_singleton.mp hm, hcomes.start]
  unfold ViewChars.push
  rw [if_neg hn]
  split
  · rw [List.append_assoc] at hrising hle
    refine ⟨h.lined, h.lines, fun m hm => ?_, hrising, hle⟩
    rcases List.mem_append.mp hm with hm | hm
    · exact h.pending m hm
    · rw [List.mem_singleton.mp hm]
      exact ⟨hn, p, c, hcomes, rfl⟩
  · have hnew : ∀ m ∈ v.pending ++ [n], m.char ≠ '\n' ∧ ∃ q c, ComesFrom nf content q c m ∧
        lineNumber q = lineNumber p := by
      intro m hm
      rcases List.mem_append.mp hm with hm | hm
      · exact h.pending m hm
      · rw [List.mem_singleton.mp hm]
        exact ⟨hn, p, c, hcomes, rfl⟩
    constructor
    · show Lined nf content 0 (v.chars ++ v.pending ++ [n])
      rw [List.append_assoc, lined_append, Nat.zero_add, h.lines]
      exact ⟨h.lined, lined_of_forall hnew⟩
    · show lineNumber (charsOf (v.chars ++ v.pending ++ [n])) = lineNumber p
      have hzero := lineNumber_charsOf_eq_zero fun m hm => (hnew m hm).1
      rw [List.append_assoc, charsOf_append, lineNumber_append, hzero, Nat.add_zero]
      exact h.lines
    · exact fun _ hm => absurd hm List.not_mem_nil
    · rw [List.append_nil]
      exact hrising
    · rw [List.append_nil]
      exact hle

/-- A newline drops the whitespace before it. -/
lemma Read.push_newline (h : Read nf content p v) (hcomes : ComesFrom nf content p '\n' n)
    (hn : n.char = '\n') : Read nf content (p ++ ['\n']) (v.push n) := by
  have hstart : size p ≤ size (p ++ ['\n']) := size_mono (List.prefix_append _ _)
  have hbehind : ∀ m ∈ v.chars, m.start ≤ n.start := by
    intro m hm
    rw [hcomes.start]
    exact h.behind m (List.mem_append_left _ hm)
  unfold ViewChars.push
  rw [if_pos hn]
  constructor
  · show Lined nf content 0 (v.chars ++ [n])
    rw [lined_append, Nat.zero_add, h.lines]
    exact ⟨h.lined, ⟨p, '\n', hcomes, rfl⟩, trivial⟩
  · show lineNumber (charsOf (v.chars ++ [n])) = _
    rw [charsOf_append, lineNumber_append, lineNumber_append, h.lines, charsOf_cons, hn]
    rfl
  · exact fun _ hm => absurd hm List.not_mem_nil
  · rw [List.append_nil]
    exact pairwise_concat (List.pairwise_append.mp h.rising).1 hbehind
  · rw [List.append_nil]
    intro m hm
    rcases List.mem_append.mp hm with hm | hm
    · exact (h.behind m (List.mem_append_left _ hm)).trans hstart
    · rw [List.mem_singleton.mp hm, hcomes.start]
      exact hstart

lemma Read.foldl_push (h : Read nf content p v) (hns : ∀ n ∈ ns, n.char ≠ '\n' ∧
    ComesFrom nf content p c n) : Read nf content p (ns.foldl ViewChars.push v) := by
  induction ns generalizing v with
  | nil => exact h
  | cons n ns ih =>
    obtain ⟨hn, hcomes⟩ := hns n List.mem_cons_self
    exact ih (h.push hcomes hn) fun m hm => hns m (List.mem_cons_of_mem n hm)

/-- What has been read with the next character, when that is no newline. -/
lemma Read.concat (h : Read nf content p v) (hc : c ≠ '\n') : Read nf content (p ++ [c]) v := by
  have hlines : lineNumber (p ++ [c]) = lineNumber p := by
    rw [lineNumber_append, lineNumber_cons_of_ne hc, lineNumber_nil, Nat.add_zero]
  refine ⟨h.lined, by rw [hlines]; exact h.lines, by rw [hlines]; exact h.pending, h.rising,
    fun n hn => (h.behind n hn).trans (size_mono (List.prefix_append _ _))⟩

lemma comesFrom_sourceChars (hstarts : p ++ [c] <+: content) (hlaws : nf.KeepsLines) :
    ∀ n ∈ sourceChars nf (size p) c, ComesFrom nf content p c n := by
  intro n hn
  obtain ⟨m, hm, rfl⟩ := List.mem_map.mp hn
  refine ⟨hstarts, rfl, by rw [size_append, size_singleton], ?_, List.mem_map_of_mem hm⟩
  rw [foldQuote_eq_newline]
  by_cases hc : c = '\n'
  · rw [hc, hlaws.expand_newline, List.mem_singleton] at hm
    simp [hm, hc]
  · simp only [hc, iff_false]
    rintro rfl
    exact hlaws.expand_other c hc hm

lemma read_viewChars (hlaws : nf.KeepsLines) (hcontent : content = p ++ rest)
    (h : Read nf content p v) : Read nf content content (viewChars nf (size p) rest v) := by
  induction rest generalizing p v with
  | nil =>
    rw [List.append_nil] at hcontent
    rw [viewChars, hcontent]
    rwa [hcontent] at h
  | cons c rest ih =>
    have hstarts : p ++ [c] <+: content := ⟨rest, by rw [hcontent, List.append_assoc]; rfl⟩
    have hcomes := comesFrom_sourceChars hstarts hlaws
    have hnext : content = p ++ [c] ++ rest := by rw [hcontent, List.append_assoc]; rfl
    rw [viewChars, ← size_singleton, ← size_append]
    apply ih hnext
    by_cases hc : c = '\n'
    · subst hc
      unfold sourceChars at hcomes ⊢
      rw [hlaws.expand_newline] at hcomes ⊢
      exact h.push_newline (hcomes _ (List.mem_singleton_self _)) (foldQuote_eq_newline.mpr rfl)
    · refine Read.concat (h.foldl_push fun n hn => ⟨fun hnl => ?_, hcomes n hn⟩) hc
      exact hc ((hcomes n hn).newline.mp hnl)

end

end Edit
