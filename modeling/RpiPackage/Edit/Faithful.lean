import RpiPackage.Edit.Groups
import RpiPackage.Edit.Mapping

/-!
# Matches of the view are mapped back faithfully

The replacements for the matches of the view are ascending spans of the original that do not
overlap. Every match lies in the range of one group, and the text of a group is its range with its
own matches replaced.
-/

namespace Edit

open Utf8 NormalizedView

/-- Ascending spans of a text that are not empty and do not overlap. -/
structure Ascending (text : Text) (found : List (Nat × Nat)) : Prop where
  isMatch : ∀ span ∈ found, ∃ xs m ys, IsMatch text span xs m ys
  disjoint : found.Pairwise fun a b => a.2 ≤ b.1

/-- The range of a group takes in a match. -/
def NormalizedView.MappedSpan.holds (s : MappedSpan) (span : Nat × Nat) : Bool :=
  s.normalizedStart ≤ span.1 && span.2 ≤ s.normalizedStop

/-- A text from an offset on, with the matches in it replaced by the new text. -/
inductive Replaced (newText : Text) : Nat → List (Nat × Nat) → Text → Text → Prop where
  | nil {start : Nat} {gap : Text} : Replaced newText start [] gap gap
  | cons {start : Nat} {gap m old out : Text} {found : List (Nat × Nat)} :
      Replaced newText (start + size gap + size m) found old out →
      Replaced newText start ((start + size gap, start + size gap + size m) :: found)
        (gap ++ (m ++ old)) (gap ++ (newText ++ out))

section

variable {nf : Nfkc} {content text newText : Text} {found : List (Nat × Nat)} {span : Nat × Nat}
  {k n : Nat} {g : SpanGroup}

lemma Ascending.tail (h : Ascending text (span :: found)) : Ascending text found :=
  ⟨fun s hs => h.isMatch s (List.mem_cons_of_mem span hs), (List.pairwise_cons.mp h.disjoint).2⟩

lemma Ascending.sublist {found' : List (Nat × Nat)} (h : Ascending text found)
    (hsub : found'.Sublist found) : Ascending text found' :=
  ⟨fun s hs => h.isMatch s (hsub.subset hs), h.disjoint.sublist hsub⟩

lemma Ascending.lt (h : Ascending text found) (hspan : span ∈ found) : span.1 < span.2 := by
  obtain ⟨xs, m, ys, hmatch⟩ := h.isMatch span hspan
  have hpos := size_pos hmatch.ne_nil
  rw [hmatch.start, hmatch.stop, size_append]
  omega

lemma Ascending.le_of_lt (h : Ascending text found) {i j : Nat} {a b : Nat × Nat}
    (ha : found[i]? = some a) (hb : found[j]? = some b) (hij : i < j) : a.2 ≤ b.1 := by
  obtain ⟨hi, rfl⟩ := List.getElem?_eq_some_iff.mp ha
  obtain ⟨hj, rfl⟩ := List.getElem?_eq_some_iff.mp hb
  exact List.pairwise_iff_getElem.mp h.disjoint i j hi hj hij

/-! ### The spans of the matches -/

/-- The span of a match, by the position of the match. -/
def spanOf (nf : Nfkc) (content : Text) (found : List (Nat × Nat)) (k : Nat) : MappedSpan :=
  match found[k]? with
  | some span => (NormalizedView.new nf content).originalSpan (size content) span.1 span.2
  | none => ⟨0, 0, 0, 0⟩

lemma spanOf_eq (h : found[k]? = some span) :
    spanOf nf content found k =
      (NormalizedView.new nf content).originalSpan (size content) span.1 span.2 := by
  unfold spanOf
  rw [h]

lemma exists_mapped (hlaws : nf.KeepsLines)
    (h : Ascending (normalizeForFuzzyMatch nf content) found) (hk : found[k]? = some span) :
    ∃ xs m ys, IsMatch (normalizeForFuzzyMatch nf content) span xs m ys ∧
      Mapped content (normalizeForFuzzyMatch nf content) xs m (spanOf nf content found k) := by
  obtain ⟨xs, m, ys, hmatch⟩ := h.isMatch span (List.mem_of_getElem? hk)
  refine ⟨xs, m, ys, hmatch, ?_⟩
  rw [spanOf_eq hk]
  exact mapped_originalSpan hlaws hmatch

/-- A span takes in its own match. -/
lemma spanOf_holds (hlaws : nf.KeepsLines)
    (h : Ascending (normalizeForFuzzyMatch nf content) found) (hk : found[k]? = some span) :
    (spanOf nf content found k).normalizedStart ≤ span.1 ∧
      span.2 ≤ (spanOf nf content found k).normalizedStop := by
  obtain ⟨xs, m, ys, hmatch, hmapped⟩ := exists_mapped hlaws h hk
  obtain ⟨-, -, -, ⟨p, hp, hstart⟩, q, -, hq, hstop⟩ := hmapped.bounds hmatch
  rw [hstart, hstop, hmatch.start, hmatch.stop]
  exact ⟨size_mono hp, size_mono hq⟩

lemma spanOf_start_le_stop (hlaws : nf.KeepsLines)
    (h : Ascending (normalizeForFuzzyMatch nf content) found) (hk : k < found.length) :
    (spanOf nf content found k).start ≤ (spanOf nf content found k).stop := by
  obtain ⟨xs, m, ys, hmatch, hmapped⟩ := exists_mapped hlaws h (List.getElem?_eq_getElem hk)
  exact (hmapped.bounds hmatch).1

/-- Spans that follow one another in the original do so in the view. -/
lemma spanOf_normalized_le (hlaws : nf.KeepsLines)
    (h : Ascending (normalizeForFuzzyMatch nf content) found) {i j : Nat} (hij : i < j)
    (hj : j < found.length)
    (hstop : (spanOf nf content found i).stop ≤ (spanOf nf content found j).start) :
    (spanOf nf content found i).normalizedStop ≤ (spanOf nf content found j).normalizedStart := by
  have hi := List.getElem?_eq_getElem (hij.trans hj)
  obtain ⟨xs, m, ys, hmatch, hmapped⟩ := exists_mapped hlaws h hi
  obtain ⟨xs', m', ys', hmatch', hmapped'⟩ :=
    exists_mapped hlaws h (List.getElem?_eq_getElem hj)
  refine hmapped.normalized_le hlaws hmapped' hmatch hmatch' ?_ hstop
  rw [← hmatch.stop, ← hmatch'.start]
  exact h.le_of_lt hi (List.getElem?_eq_getElem hj) hij

/-! ### The groups -/

variable (nf content found) in
abbrev groupsOf : List SpanGroup := (NormalizedView.new nf content).groups (size content) found

lemma stacked_groups (hlaws : nf.KeepsLines)
    (h : Ascending (normalizeForFuzzyMatch nf content) found) :
    Stacked (spanOf nf content found) found.length (groupsOf nf content found).reverse := by
  unfold groupsOf groups
  rw [List.reverse_reverse]
  have hstack : Stacked (spanOf nf content found) (0 + found.length)
      ((NormalizedView.new nf content).groupsFrom (size content) [] 0 found) :=
    stacked_groupsFrom (NormalizedView.new nf content) (size content) Stacked.nil
      (fun l hl => spanOf_start_le_stop hlaws h (by omega)) fun l span hl => by
        rw [Nat.zero_add]
        exact spanOf_eq hl
  rwa [Nat.zero_add] at hstack

lemma isMerge_of_mem (hlaws : nf.KeepsLines)
    (h : Ascending (normalizeForFuzzyMatch nf content) found) (hg : g ∈ groupsOf nf content found) :
    IsMerge (spanOf nf content found) g.first g.next g.span ∧ g.next ≤ found.length := by
  have hstack := stacked_groups hlaws h
  have hg' := List.mem_reverse.mpr hg
  exact ⟨hstack.isMerge g hg', hstack.next_le g hg'⟩

/-- The ranges of the groups follow one another. -/
lemma groups_pairwise (hlaws : nf.KeepsLines)
    (h : Ascending (normalizeForFuzzyMatch nf content) found) :
    (groupsOf nf content found).Pairwise fun g g' => g.next ≤ g'.first ∧
      g.span.stop ≤ g'.span.start ∧ g.span.normalizedStop ≤ g'.span.normalizedStart := by
  have hpairs := List.pairwise_reverse.mp (stacked_groups hlaws h).pairwise
  refine hpairs.imp_of_mem fun {g g'} hg hg' hbefore => ⟨hbefore.1, hbefore.2, ?_⟩
  obtain ⟨hmerge, -⟩ := isMerge_of_mem hlaws h hg
  obtain ⟨hmerge', hnext'⟩ := isMerge_of_mem hlaws h hg'
  obtain ⟨i, hi, hi', hstop⟩ := hmerge.normalizedStop
  obtain ⟨j, hj, hj', hstart⟩ := hmerge'.normalizedStart
  rw [hstop, hstart]
  have hapart := hmerge.le_stop i hi hi'
  have hapart' := hmerge'.start_le j hj hj'
  exact spanOf_normalized_le hlaws h (by omega) (by omega) (hapart.trans (hbefore.2.trans hapart'))

lemma eq_or_rel_of_mem {α : Type*} {R : α → α → Prop} {l : List α} (h : l.Pairwise R) {a b : α}
    (ha : a ∈ l) (hb : b ∈ l) : a = b ∨ R a b ∨ R b a := by
  obtain ⟨i, hi, rfl⟩ := List.getElem_of_mem ha
  obtain ⟨j, hj, rfl⟩ := List.getElem_of_mem hb
  rcases Nat.lt_trichotomy i j with hlt | rfl | hgt
  · exact .inr (.inl (List.pairwise_iff_getElem.mp h i j hi hj hlt))
  · exact .inl rfl
  · exact .inr (.inr (List.pairwise_iff_getElem.mp h j i hj hi hgt))

lemma holds_of_mem (hlaws : nf.KeepsLines)
    (h : Ascending (normalizeForFuzzyMatch nf content) found) (hg : g ∈ groupsOf nf content found)
    (hk : found[k]? = some span) (hfirst : g.first ≤ k) (hnext : k < g.next) :
    g.span.normalizedStart ≤ span.1 ∧ span.2 ≤ g.span.normalizedStop := by
  obtain ⟨hmerge, -⟩ := isMerge_of_mem hlaws h hg
  obtain ⟨hstart, hstop⟩ := spanOf_holds hlaws h hk
  exact ⟨(hmerge.normalizedStart_le k hfirst hnext).trans hstart,
    hstop.trans (hmerge.le_normalizedStop k hfirst hnext)⟩

/-- A group takes in exactly the matches that it was built from. -/
lemma holds_iff (hlaws : nf.KeepsLines)
    (h : Ascending (normalizeForFuzzyMatch nf content) found) (hg : g ∈ groupsOf nf content found)
    (hk : found[k]? = some span) :
    g.span.holds span = true ↔ g.first ≤ k ∧ k < g.next := by
  have hlt := h.lt (List.mem_of_getElem? hk)
  unfold MappedSpan.holds
  rw [Bool.and_eq_true, decide_eq_true_iff, decide_eq_true_iff]
  constructor
  · rintro ⟨hstart, hstop⟩
    obtain ⟨g', hg', hfirst, hnext⟩ :=
      (stacked_groups hlaws h).exists_group (List.getElem?_eq_some_iff.mp hk).1
    have hmem := List.mem_reverse.mp hg'
    obtain ⟨hstart', hstop'⟩ := holds_of_mem hlaws h hmem hk hfirst hnext
    rcases eq_or_rel_of_mem (groups_pairwise hlaws h) hg hmem with rfl | hbefore | hbehind
    · exact ⟨hfirst, hnext⟩
    · have hle := hbefore.2.2
      omega
    · have hle := hbehind.2.2
      omega
  · rintro ⟨hfirst, hnext⟩
    exact holds_of_mem hlaws h hg hk hfirst hnext

/-- Every match lies in the range of exactly one group. -/
lemma existsUnique_group (hlaws : nf.KeepsLines)
    (h : Ascending (normalizeForFuzzyMatch nf content) found) (hspan : span ∈ found) :
    ∃! i : Nat, ∃ g, (groupsOf nf content found)[i]? = some g ∧ g.span.holds span = true := by
  obtain ⟨k, hk⟩ := List.getElem?_of_mem hspan
  obtain ⟨g, hg, hfirst, hnext⟩ :=
    (stacked_groups hlaws h).exists_group (List.getElem?_eq_some_iff.mp hk).1
  have hmem := List.mem_reverse.mp hg
  obtain ⟨i, hi⟩ := List.getElem?_of_mem hmem
  refine ⟨i, ⟨g, hi, (holds_iff hlaws h hmem hk).mpr ⟨hfirst, hnext⟩⟩, ?_⟩
  rintro j ⟨g', hj, hholds⟩
  obtain ⟨hfirst', hnext'⟩ := (holds_iff hlaws h (List.mem_of_getElem? hj) hk).mp hholds
  obtain ⟨hilt, rfl⟩ := List.getElem?_eq_some_iff.mp hi
  obtain ⟨hjlt, rfl⟩ := List.getElem?_eq_some_iff.mp hj
  have hpairs := List.pairwise_iff_getElem.mp (groups_pairwise hlaws h)
  rcases Nat.lt_trichotomy i j with hlt | heq | hgt
  · have hbefore := (hpairs i j hilt hjlt hlt).1
    omega
  · exact heq.symm
  · have hbefore := (hpairs j i hjlt hilt hgt).1
    omega

/-- The elements that pass a test are those between two positions. -/
lemma filter_eq_drop_take {α : Type*} {l : List α} {p : α → Bool} {i j : Nat} (hij : i ≤ j)
    (h : ∀ k a, l[k]? = some a → (p a = true ↔ i ≤ k ∧ k < j)) :
    l.filter p = (l.take j).drop i := by
  have hsplit : l = l.take i ++ ((l.take j).drop i ++ l.drop j) := by
    rw [← List.append_assoc]
    conv_lhs => rw [← List.take_append_drop j l]
    congr 1
    conv_lhs => rw [← List.take_append_drop i (l.take j), List.take_take, Nat.min_eq_left hij]
  have hbefore : (l.take i).filter p = [] := by
    rw [List.filter_eq_nil_iff]
    intro a ha hp
    obtain ⟨k, hk⟩ := List.getElem?_of_mem ha
    rw [List.getElem?_take] at hk
    split at hk
    next hlt =>
      have hbounds := (h k a hk).mp hp
      omega
    next => cases hk
  have hinside : ((l.take j).drop i).filter p = (l.take j).drop i := by
    rw [List.filter_eq_self]
    intro a ha
    obtain ⟨k, hk⟩ := List.getElem?_of_mem ha
    rw [List.getElem?_drop, List.getElem?_take] at hk
    split at hk
    next hlt => exact (h (i + k) a hk).mpr ⟨Nat.le_add_right i k, hlt⟩
    next => cases hk
  have hafter : (l.drop j).filter p = [] := by
    rw [List.filter_eq_nil_iff]
    intro a ha hp
    obtain ⟨k, hk⟩ := List.getElem?_of_mem ha
    rw [List.getElem?_drop] at hk
    have hbounds := (h (j + k) a hk).mp hp
    omega
  conv_lhs => rw [hsplit]
  rw [List.filter_append, List.filter_append, hbefore, hinside, hafter, List.nil_append,
    List.append_nil]

/-- The matches of a group. -/
lemma filter_holds (hlaws : nf.KeepsLines)
    (h : Ascending (normalizeForFuzzyMatch nf content) found)
    (hg : g ∈ groupsOf nf content found) :
    found.filter g.span.holds = (found.take g.next).drop g.first :=
  filter_eq_drop_take (Nat.le_of_lt (isMerge_of_mem hlaws h hg).1.lt)
    fun _ _ hk => holds_iff hlaws h hg hk

/-! ### The rebuilt text -/

/-- The text up to a boundary is rebuilt with its matches replaced. -/
lemma replaced_rebuild {v : NormalizedView} {p q : Text} (hp : p <+: q) (hq : q <+: v.text)
    (h : Ascending v.text found) (hbounds : ∀ span ∈ found, size p ≤ span.1 ∧ span.2 ≤ size q) :
    Replaced newText (size p) found (slice v.text (size p) (size q))
      (v.rebuild newText (size q) (size p) found) := by
  induction found generalizing p with
  | nil => exact .nil
  | cons span found ih =>
    obtain ⟨xs, m, ys, hmatch⟩ := h.isMatch span List.mem_cons_self
    obtain ⟨hstart, hstop⟩ := hbounds span List.mem_cons_self
    obtain ⟨hxs, hxsm⟩ := hmatch.prefixes
    rw [hmatch.start] at hstart
    rw [hmatch.stop] at hstop
    obtain ⟨gap, rfl⟩ := prefix_of_size_le (hp.trans hq) hxs hstart
    have hxsmq := prefix_of_size_le hxsm hq hstop
    have hnext := ih hxsmq h.tail fun s hs => by
      rw [← hmatch.stop]
      exact ⟨List.rel_of_pairwise_cons h.disjoint hs, (hbounds s (List.mem_cons_of_mem _ hs)).2⟩
    have hsplit : slice v.text (size p) (size q) =
        gap ++ (m ++ slice v.text (size (p ++ gap ++ m)) (size q)) := by
      rw [← slice_append_slice (List.prefix_append p gap)
        ((List.prefix_append _ m).trans hxsmq) hq, slice_between hxs,
        ← slice_append_slice (List.prefix_append (p ++ gap) m) hxsmq hq, slice_between hxsm]
    have hspan : span = (size p + size gap, size p + size gap + size m) := by
      rw [← size_append, ← size_append, ← hmatch.start, ← hmatch.stop]
    have hrebuild : v.rebuild newText (size q) (size p) (span :: found) =
        gap ++ (newText ++ v.rebuild newText (size q) (size (p ++ gap ++ m)) found) := by
      obtain ⟨first, last⟩ := span
      obtain rfl : first = size (p ++ gap) := hmatch.start
      obtain rfl : last = size (p ++ gap ++ m) := hmatch.stop
      rw [rebuild, slice_between hxs, List.append_assoc]
    rw [hsplit, hrebuild, hspan]
    apply Replaced.cons
    rw [← size_append, ← size_append]
    exact hnext

/-- The bounds of a group are boundaries. -/
lemma group_bounds (hlaws : nf.KeepsLines)
    (h : Ascending (normalizeForFuzzyMatch nf content) found)
    (hg : g ∈ groupsOf nf content found) :
    g.span.start ≤ g.span.stop ∧ (∃ p, p <+: content ∧ g.span.start = size p) ∧
      (∃ q, q <+: content ∧ g.span.stop = size q) ∧
      ∃ p q, p <+: q ∧ q <+: normalizeForFuzzyMatch nf content ∧
        g.span.normalizedStart = size p ∧ g.span.normalizedStop = size q := by
  obtain ⟨hmerge, hnext⟩ := isMerge_of_mem hlaws h hg
  have hbounds (k : Nat) (hk : k < g.next) :
      ∃ xs m ys span, IsMatch (normalizeForFuzzyMatch nf content) span xs m ys ∧
        Mapped content (normalizeForFuzzyMatch nf content) xs m (spanOf nf content found k) := by
    obtain ⟨xs, m, ys, hmatch, hmapped⟩ :=
      exists_mapped hlaws h (List.getElem?_eq_getElem (show k < found.length by omega))
    exact ⟨xs, m, ys, _, hmatch, hmapped⟩
  refine ⟨hmerge.start_le_stop fun k hk => spanOf_start_le_stop hlaws h (by omega), ?_, ?_, ?_⟩
  · obtain ⟨k, -, hk, hstart⟩ := hmerge.start
    obtain ⟨xs, m, ys, span, hmatch, hmapped⟩ := hbounds k hk
    rw [hstart]
    exact (hmapped.bounds hmatch).2.1
  · obtain ⟨k, -, hk, hstop⟩ := hmerge.stop
    obtain ⟨xs, m, ys, span, hmatch, hmapped⟩ := hbounds k hk
    rw [hstop]
    exact (hmapped.bounds hmatch).2.2.1
  · obtain ⟨k, -, hk, hstart⟩ := hmerge.normalizedStart
    obtain ⟨l, -, hl, hstop⟩ := hmerge.normalizedStop
    obtain ⟨xs, m, ys, span, hmatch, hmapped⟩ := hbounds k hk
    obtain ⟨xs', m', ys', span', hmatch', hmapped'⟩ := hbounds l hl
    obtain ⟨-, -, -, ⟨p, hp, hpstart⟩, -⟩ := hmapped.bounds hmatch
    obtain ⟨-, -, -, -, q, hq, -, hqstop⟩ := hmapped'.bounds hmatch'
    have hptext := hp.trans hmatch.prefixes.1
    refine ⟨p, q, prefix_of_size_le hptext hq ?_, hq, hstart.trans hpstart, hstop.trans hqstop⟩
    have hfirst := List.getElem?_eq_getElem (show g.first < found.length by
      have hlt := hmerge.lt
      omega)
    obtain ⟨hle, hle'⟩ := holds_of_mem hlaws h hg hfirst (Nat.le_refl _) hmerge.lt
    have hlt := h.lt (List.mem_of_getElem? hfirst)
    rw [← hpstart, ← hqstop, ← hstart, ← hstop]
    omega

/-- The text of a group is its range with its own matches replaced. -/
lemma replaced_replacement (hlaws : nf.KeepsLines)
    (h : Ascending (normalizeForFuzzyMatch nf content) found) (newText : Text)
    (hg : g ∈ groupsOf nf content found) :
    Replaced newText g.span.normalizedStart (found.filter g.span.holds)
      (slice (normalizeForFuzzyMatch nf content) g.span.normalizedStart g.span.normalizedStop)
      ((NormalizedView.new nf content).replacement found newText g).text := by
  obtain ⟨-, -, -, p, q, hp, hq, hstart, hstop⟩ := group_bounds hlaws h hg
  unfold replacement
  simp only [← filter_holds hlaws h hg, hstart, hstop]
  refine replaced_rebuild (v := NormalizedView.new nf content) hp hq (h.sublist List.filter_sublist)
    fun span hspan => ?_
  obtain ⟨-, hholds⟩ := List.mem_filter.mp hspan
  unfold MappedSpan.holds at hholds
  rw [Bool.and_eq_true, decide_eq_true_iff, decide_eq_true_iff, hstart, hstop] at hholds
  exact hholds

/-! ### Clean matches -/

lemma cleanSpan_eq {sources : List (Nat × Nat)} {xs m ys : Text}
    (hsources : (NormalizedView.new nf content).sources = some sources)
    (h : IsMatch (normalizeForFuzzyMatch nf content) span xs m ys) :
    (NormalizedView.new nf content).cleanSpan span.1 span.2 =
      if isClean sources xs.length ((xs ++ m).length - 1) then
        some ⟨(source sources xs.length).1, (source sources ((xs ++ m).length - 1)).2, span.1, span.2⟩
      else none := by
  unfold cleanSpan
  rw [hsources, Option.bind_some]
  simp only [h.positionAt_start, h.positionAt_stop]

/-- A clean match is mapped to the characters from its first to its last source. -/
lemma originalSpan_of_clean {sources : List (Nat × Nat)} {xs m ys : Text}
    (hsources : (NormalizedView.new nf content).sources = some sources)
    (h : IsMatch (normalizeForFuzzyMatch nf content) span xs m ys)
    (hclean : ((NormalizedView.new nf content).cleanSpan span.1 span.2).isSome = true) :
    isClean sources xs.length ((xs ++ m).length - 1) = true ∧
      (NormalizedView.new nf content).originalSpan (size content) span.1 span.2 =
        ⟨(source sources xs.length).1, (source sources ((xs ++ m).length - 1)).2, span.1,
          span.2⟩ := by
  unfold originalSpan
  rw [cleanSpan_eq hsources h] at hclean ⊢
  split at hclean
  next hends => exact ⟨hends, by rw [if_pos hends]; rfl⟩
  next => cases hclean

/-- Clean matches that follow one another come from characters that do. -/
lemma clean_stop_le_start (hlaws : nf.KeepsLines) {sources : List (Nat × Nat)} {span' : Nat × Nat}
    (hsources : (NormalizedView.new nf content).sources = some sources)
    (h : Ascending (normalizeForFuzzyMatch nf content) found) {i j : Nat} (hij : i < j)
    (hi : found[i]? = some span) (hj : found[j]? = some span')
    (hclean : ((NormalizedView.new nf content).cleanSpan span.1 span.2).isSome = true)
    (hclean' : ((NormalizedView.new nf content).cleanSpan span'.1 span'.2).isSome = true) :
    (spanOf nf content found i).stop ≤ (spanOf nf content found j).start := by
  have hsourced := sourced_new hlaws hsources
  obtain ⟨xs, m, ys, hmatch⟩ := h.isMatch span (List.mem_of_getElem? hi)
  obtain ⟨xs', m', ys', hmatch'⟩ := h.isMatch span' (List.mem_of_getElem? hj)
  obtain ⟨hends, hspan⟩ := originalSpan_of_clean hsources hmatch hclean
  obtain ⟨-, hspan'⟩ := originalSpan_of_clean hsources hmatch' hclean'
  obtain ⟨p, c, q, d, hp, hq, -, -, hqsource, -⟩ := hsourced.ends hmatch
  obtain ⟨p', c', q', d', hp', -, -, hpsource', -⟩ := hsourced.ends hmatch'
  rw [spanOf_eq hi, spanOf_eq hj, hspan, hspan']
  show (source sources _).2 ≤ (source sources _).1
  rw [hqsource, hpsource']
  -- The next character after the first match comes from a later one of the original.
  have hbefore : xs ++ m <+: xs' := by
    apply prefix_of_size_le hmatch.prefixes.2 hmatch'.prefixes.1
    rw [← hmatch.stop, ← hmatch'.start]
    exact h.le_of_lt hi hj hij
  have hlength := hbefore.length_le
  have hpos : 0 < (xs ++ m).length := by
    rw [List.length_append]
    have hm := List.length_pos_iff.mpr hmatch.ne_nil
    omega
  have hinside : xs'.length < sources.length := by
    rw [hsourced.length, hmatch'.text_eq, List.length_append, List.length_append]
    have hm' := List.length_pos_iff.mpr hmatch'.ne_nil
    omega
  unfold isClean at hends
  rw [Bool.and_eq_true] at hends
  have hend := hends.2
  rw [Bool.or_eq_true, decide_eq_true_iff, decide_eq_true_iff, Nat.sub_add_cancel hpos,
    hqsource] at hend
  have hnext : (source sources (xs ++ m).length).1 ≠ size q := by
    rcases hend with hlast | hne
    · omega
    · exact hne
  have hle := hsourced.rising ((xs ++ m).length - 1) (xs ++ m).length (by omega) (by omega)
  have hle' := hsourced.rising (xs ++ m).length xs'.length hlength hinside
  rw [hqsource] at hle
  rw [hpsource'] at hle'
  have hlt : size q < size p' := by
    show size q < size p'
    have hle : size q ≤ (source sources (xs ++ m).length).1 := hle
    have hle' : (source sources (xs ++ m).length).1 ≤ size p' := hle'
    omega
  show size (q ++ [d]) ≤ size p'
  by_contra hgt
  have hp₀ : p' <+: content := (List.prefix_append _ _).trans hp'
  have hbad := size_le_of_lt_concat hp₀ hq (Nat.lt_of_not_le hgt)
  omega

/-- A group of clean matches has one match. -/
lemma group_of_clean (hlaws : nf.KeepsLines) {sources : List (Nat × Nat)}
    (hsources : (NormalizedView.new nf content).sources = some sources)
    (h : Ascending (normalizeForFuzzyMatch nf content) found)
    (hg : g ∈ groupsOf nf content found)
    (hclean : ∀ span ∈ found.filter g.span.holds,
      ((NormalizedView.new nf content).cleanSpan span.1 span.2).isSome = true) :
    g.next = g.first + 1 := by
  obtain ⟨hmerge, hnext⟩ := isMerge_of_mem hlaws h hg
  have hlt := hmerge.lt
  have hcleanAt (k : Nat) (hk : k < found.length) (hfirst : g.first ≤ k) (hk' : k < g.next) :
      ((NormalizedView.new nf content).cleanSpan (found[k]).1 (found[k]).2).isSome = true := by
    apply hclean
    rw [List.mem_filter]
    exact ⟨List.getElem_mem hk,
      (holds_iff hlaws h hg (List.getElem?_eq_getElem hk)).mpr ⟨hfirst, hk'⟩⟩
  by_contra hne
  obtain ⟨a, b, ha, hak, hkb, hb, hlink⟩ := hmerge.linked (g.first + 1) (by omega) (by omega)
  have hapart := clean_stop_le_start hlaws hsources h (show a < b by omega)
    (List.getElem?_eq_getElem (show a < found.length by omega))
    (List.getElem?_eq_getElem (show b < found.length by omega))
    (hcleanAt a (by omega) ha (by omega)) (hcleanAt b (by omega) (by omega) hb)
  omega

end

/-! ### The whole mapping -/

/-- What the replacements for some matches of the view are. -/
structure MapsBack (nf : Nfkc) (content : Text) (found : List (Nat × Nat)) (newText : Text)
    (groups : List SpanGroup) (out : List Replacement) : Prop where
  ascending : out.Pairwise fun a b => a.stop ≤ b.start
  boundaries : ∀ r ∈ out, r.start ≤ r.stop ∧ isBoundary r.start content = true ∧
    isBoundary r.stop content = true
  exactlyOne : ∀ span ∈ found, ∃! i : Nat, ∃ g, groups[i]? = some g ∧ g.span.holds span = true
  /-- A group is returned as its span, and its range with exactly its own matches replaced. -/
  replaced : List.Forall₂ (fun g r => r.start = g.span.start ∧ r.stop = g.span.stop ∧
    Replaced newText g.span.normalizedStart (found.filter g.span.holds)
      (slice (normalizeForFuzzyMatch nf content) g.span.normalizedStart g.span.normalizedStop)
      r.text) groups out
  /-- A group of clean matches has one match, and spans the characters that this comes from. -/
  clean : ∀ sources, (NormalizedView.new nf content).sources = some sources →
    Sourced nf content sources ∧
    ∀ g ∈ groups, (∀ span ∈ found.filter g.span.holds,
        ((NormalizedView.new nf content).cleanSpan span.1 span.2).isSome = true) →
      ∃ span xs m ys, found.filter g.span.holds = [span] ∧
        IsMatch (normalizeForFuzzyMatch nf content) span xs m ys ∧
        g.span.start = (source sources xs.length).1 ∧
        g.span.stop = (source sources ((xs ++ m).length - 1)).2

lemma asciiNfkc_keepsLines : asciiNfkc.KeepsLines where
  expand_newline := rfl
  expand_other := by
    intro c hc hmem
    exact hc (List.mem_singleton.mp hmem).symm
  all_lines := fun _ => rfl
  all_empty := fun _ _ h => h

end Edit
