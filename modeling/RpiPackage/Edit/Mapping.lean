import RpiPackage.Edit.Sources

/-!
# Matches and the original text

A match in the view is mapped to the original characters it comes from, or to whole lines. Spans of
the original that do not overlap come from ranges of the view that do not overlap.
-/

namespace Edit

open Utf8 NormalizedView

/-! ### The view of a text -/

section

variable {nf : Nfkc} {content xs ys : Text} {l : Nat}

lemma trimEnd_sublist (line : Text) : (trimEnd line).Sublist line :=
  (List.rdropWhile_prefix _ _).sublist

/-- The view's lines are the normalized ones, trimmed and folded. -/
lemma splitLines_normalize (nf : Nfkc) (t : Text) :
    splitLines (normalizeForFuzzyMatch nf t) =
      (splitLines (nf.all t)).map fun line => (trimEnd line).map foldChar := by
  have hmap (lines : List Text) : (List.intercalate ['\n'] lines).map foldChar =
      List.intercalate ['\n'] (lines.map (·.map foldChar)) := by
    induction lines with
    | nil => rfl
    | cons line lines ih =>
      cases lines with
      | nil => simp
      | cons line' lines =>
        rw [List.intercalate_cons_cons, List.map_append, ih, List.map_append]
        exact List.intercalate_cons_cons.symm
  unfold normalizeForFuzzyMatch
  rw [hmap, List.map_map, splitLines_intercalate]
  · rfl
  · rw [Ne, List.map_eq_nil_iff]
    simp [splitLines]
  · intro line hline
    obtain ⟨line', hline', rfl⟩ := List.mem_map.mp hline
    intro hmem
    obtain ⟨c, hc, hfold⟩ := List.mem_map.mp hmem
    rw [foldChar_eq_newline.mp hfold] at hc
    exact not_mem_of_mem_splitLines line' hline' ((trimEnd_sublist line').subset hc)

lemma lineNumber_normalize (hlaws : nf.KeepsLines) (t : Text) :
    lineNumber (normalizeForFuzzyMatch nf t) = lineNumber t := by
  have hlen := congrArg List.length (splitLines_normalize nf t)
  rw [List.length_map, length_splitLines, length_splitLines, hlaws.all_lines] at hlen
  omega

/-- The start and the end of an empty line are the same in the view. -/
lemma empty_line_normalize (hlaws : nf.KeepsLines) {p q q' : Text} (hstart : LineStart content l p)
    (hstop : LineStop content l p) (hstart' : LineStart (normalizeForFuzzyMatch nf content) l q)
    (hstop' : LineStop (normalizeForFuzzyMatch nf content) l q') : q = q' := by
  obtain ⟨line, rfl⟩ := hstart'.prefix_stop hstop' (Nat.le_refl l)
  have hline := getElem?_splitLines_of_lineStart hstart' hstop'
  rw [← List.append_nil p] at hstop
  have hempty := hlaws.all_empty content l (getElem?_splitLines_of_lineStart hstart hstop)
  rw [splitLines_normalize, List.getElem?_map, hempty] at hline
  rw [← Option.some.inj hline]
  exact (List.append_nil q).symm

lemma positionAt_new (h : normalizeForFuzzyMatch nf content = xs ++ ys) :
    (NormalizedView.new nf content).positionAt (size xs) = ⟨xs.length, lineNumber xs⟩ := by
  unfold positionAt
  show (positionsFrom 0 0 (normalizeForFuzzyMatch nf content)).getD (size xs) _ = _
  rw [h, List.getD_eq_getElem?_getD, getElem?_positionsFrom, Option.getD_some, Nat.zero_add,
    Nat.zero_add]

/-- Where the characters of the view come from, when that is known. -/
structure Sourced (nf : Nfkc) (content : Text) (sources : List (Nat × Nat)) : Prop where
  length : sources.length = (normalizeForFuzzyMatch nf content).length
  comes : ∀ xs d ys, normalizeForFuzzyMatch nf content = xs ++ d :: ys →
    ∃ p c, p ++ [c] <+: content ∧ source sources xs.length = (size p, size (p ++ [c])) ∧
      lineNumber p = lineNumber xs ∧ (d = '\n' ↔ c = '\n') ∧ d ∈ (nf.expand c).map foldQuote
  rising : ∀ i j, i ≤ j → j < sources.length → (source sources i).1 ≤ (source sources j).1

lemma sourced_new (hlaws : nf.KeepsLines) {sources : List (Nat × Nat)}
    (h : (NormalizedView.new nf content).sources = some sources) : Sourced nf content sources := by
  have hread : Read nf content content (viewChars nf 0 content ⟨[], []⟩) :=
    read_viewChars hlaws rfl read_nil
  unfold NormalizedView.new at h
  simp only [] at h
  split at h
  next htext =>
    obtain rfl := Option.some.inj h
    generalize (viewChars nf 0 content ⟨[], []⟩) = v at htext hread
    have hchars : charsOf v.chars = normalizeForFuzzyMatch nf content := htext
    constructor
    · rw [List.length_map, ← hchars, charsOf, List.length_map]
    · intro xs d ys heq
      rw [← hchars] at heq
      obtain ⟨ns, ms, hsplit, hns, hms⟩ := List.map_eq_append_iff.mp heq
      obtain ⟨n, ms, rfl, hn, -⟩ := List.map_eq_cons_iff.mp hms
      have hlined := hread.lined
      rw [hsplit, lined_append] at hlined
      obtain ⟨p, c, hcomes, hline⟩ := hlined.2.1
      refine ⟨p, c, hcomes.prefix_concat, ?_, ?_, hn ▸ hcomes.newline, hn ▸ hcomes.mem⟩
      · unfold source
        rw [hsplit, List.map_append, List.map_cons, ← hns, List.getD_eq_getElem?_getD,
          List.length_map, List.getElem?_append_right (by rw [List.length_map]), List.length_map,
          Nat.sub_self, List.getElem?_cons_zero, Option.getD_some, hcomes.start, hcomes.stop]
      · rw [hline, Nat.zero_add, charsOf, hns]
    · intro i j hij hj
      have hrising := (List.pairwise_append.mp hread.rising).1
      rw [List.length_map] at hj
      have hi := Nat.lt_of_le_of_lt hij hj
      unfold source
      rw [List.getD_eq_getElem?_getD, List.getD_eq_getElem?_getD, List.getElem?_map,
        List.getElem?_map, List.getElem?_eq_getElem hi, List.getElem?_eq_getElem hj]
      rcases Nat.eq_or_lt_of_le hij with rfl | hlt
      · exact Nat.le_refl _
      · exact List.pairwise_iff_getElem.mp hrising i j hi hj hlt
  next => cases h

end

/-! ### Mapped matches -/

/-- A match in a text: what stands before it, the match itself and what stands after it. -/
structure IsMatch (text : Text) (span : Nat × Nat) (xs m ys : Text) : Prop where
  text_eq : text = xs ++ (m ++ ys)
  ne_nil : m ≠ []
  start : span.1 = size xs
  stop : span.2 = size (xs ++ m)

/-- How the span of a match `m` behind `xs` is mapped: to the characters from the first to the last
one of its sources, or to whole lines. -/
inductive Mapped (content text xs m : Text) : MappedSpan → Prop where
  | clean {p q : Text} {c d : Char} : p ++ [c] <+: content → q ++ [d] <+: content →
      size p ≤ size q → lineNumber (p ++ [c]) = lineNumber (xs ++ m.take 1) →
      lineNumber q = lineNumber (xs ++ m.dropLast) →
      Mapped content text xs m ⟨size p, size (q ++ [d]), size xs, size (xs ++ m)⟩
  | lines {p q p' q' : Text} : LineStart content (lineNumber xs) p →
      LineStop content (lineNumber (xs ++ m)) q → LineStart text (lineNumber xs) p' →
      LineStop text (lineNumber (xs ++ m)) q' →
      Mapped content text xs m ⟨size p, size q, size p', size q'⟩

section

variable {nf : Nfkc} {content text xs m ys xs' m' : Text} {span : Nat × Nat}
  {mapped mapped' : MappedSpan} {sources : List (Nat × Nat)}

lemma lineNumber_concat_congr {p q : Text} {c d : Char} (hline : lineNumber p = lineNumber q)
    (hnewline : d = '\n' ↔ c = '\n') : lineNumber (p ++ [c]) = lineNumber (q ++ [d]) := by
  rw [lineNumber_append, lineNumber_append, hline]
  congr 1
  by_cases hc : c = '\n'
  · rw [hc, hnewline.mpr hc]
  · rw [lineNumber_cons_of_ne hc, lineNumber_cons_of_ne fun hd => hc (hnewline.mp hd)]

lemma IsMatch.positionAt_start
    (h : IsMatch (normalizeForFuzzyMatch nf content) span xs m ys) :
    (NormalizedView.new nf content).positionAt span.1 = ⟨xs.length, lineNumber xs⟩ := by
  rw [h.start]
  exact positionAt_new h.text_eq

lemma IsMatch.positionAt_stop
    (h : IsMatch (normalizeForFuzzyMatch nf content) span xs m ys) :
    (NormalizedView.new nf content).positionAt span.2 =
      ⟨(xs ++ m).length, lineNumber (xs ++ m)⟩ := by
  rw [h.stop]
  exact positionAt_new (by rw [h.text_eq, List.append_assoc])

/-- The sources of the first and of the last character of a match. -/
lemma Sourced.ends (h : Sourced nf content sources)
    (hmatch : IsMatch (normalizeForFuzzyMatch nf content) span xs m ys) :
    ∃ p c q d, p ++ [c] <+: content ∧ q ++ [d] <+: content ∧ size p ≤ size q ∧
      source sources xs.length = (size p, size (p ++ [c])) ∧
      source sources ((xs ++ m).length - 1) = (size q, size (q ++ [d])) ∧
      lineNumber (p ++ [c]) = lineNumber (xs ++ m.take 1) ∧
      lineNumber q = lineNumber (xs ++ m.dropLast) := by
  obtain ⟨a, m', ha⟩ := List.exists_cons_of_ne_nil hmatch.ne_nil
  obtain ⟨m'', b, hb⟩ := (List.eq_nil_or_concat m).resolve_left hmatch.ne_nil
  rw [List.concat_eq_append] at hb
  have htext := hmatch.text_eq
  obtain ⟨p, c, hp, hpsource, hpline, hpnewline, -⟩ := h.comes xs a (m' ++ ys) (by rw [htext, ha]; rfl)
  obtain ⟨q, d, hq, hqsource, hqline, -, -⟩ :=
    h.comes (xs ++ m'') b ys (by rw [htext, hb]; simp)
  have hlength : (xs ++ m'').length = (xs ++ m).length - 1 := by
    rw [hb, List.length_append, List.length_append, List.length_append, List.length_singleton]
    omega
  rw [hlength] at hqsource
  refine ⟨p, c, q, d, hp, hq, ?_, hpsource, hqsource, ?_, by rw [hqline, hb, List.dropLast_concat]⟩
  · have hrising := h.rising xs.length ((xs ++ m).length - 1) (by
      rw [List.length_append, ha, List.length_cons]
      omega) (by
      rw [h.length, htext, List.length_append, List.length_append, List.length_append, ha,
        List.length_cons]
      omega)
    rwa [hpsource, hqsource] at hrising
  · rw [ha]
    exact lineNumber_concat_congr hpline hpnewline

/-- Every match is mapped. -/
lemma mapped_originalSpan (hlaws : nf.KeepsLines)
    (h : IsMatch (normalizeForFuzzyMatch nf content) span xs m ys) :
    Mapped content (normalizeForFuzzyMatch nf content) xs m
      ((NormalizedView.new nf content).originalSpan (size content) span.1 span.2) := by
  have htextEq := h.text_eq
  have hline : lineNumber (xs ++ m) ≤ lineNumber (normalizeForFuzzyMatch nf content) := by
    rw [htextEq, ← List.append_assoc]
    exact lineNumber_mono (List.prefix_append _ _)
  have hline' : lineNumber xs ≤ lineNumber (normalizeForFuzzyMatch nf content) := by
    rw [lineNumber_append] at hline
    omega
  have hlines : Mapped content (normalizeForFuzzyMatch nf content) xs m
      ((NormalizedView.new nf content).lineSpan (size content) span.1 span.2) := by
    unfold lineSpan
    rw [h.positionAt_start, h.positionAt_stop]
    obtain ⟨p', hp', hpeq'⟩ := exists_lineStart hline'
    obtain ⟨q', hq', hqeq'⟩ := exists_lineStop hline
    rw [lineNumber_normalize hlaws] at hline hline'
    obtain ⟨p, hp, hpeq⟩ := exists_lineStart hline'
    obtain ⟨q, hq, hqeq⟩ := exists_lineStop hline
    have hlineMap := Mapped.lines hp hq hp' hq'
    rwa [← hpeq, ← hqeq, ← hpeq', ← hqeq'] at hlineMap
  unfold originalSpan cleanSpan
  cases hsources : (NormalizedView.new nf content).sources with
  | none => exact hlines
  | some sources =>
    rw [Option.bind_some]
    simp only [h.positionAt_start, h.positionAt_stop]
    split
    · obtain ⟨p, c, q, d, hp, hq, hle, hpsource, hqsource, hpline, hqline⟩ :=
        (sourced_new hlaws hsources).ends h
      have hclean : Mapped content (normalizeForFuzzyMatch nf content) xs m _ :=
        Mapped.clean hp hq hle hpline hqline
      rw [Option.getD_some, hpsource, hqsource, h.start, h.stop]
      exact hclean
    · exact hlines

lemma IsMatch.prefixes (h : IsMatch text span xs m ys) :
    xs <+: text ∧ xs ++ m <+: text := by
  rw [h.text_eq, ← List.append_assoc]
  exact ⟨(List.prefix_append xs m).trans (List.prefix_append _ _), List.prefix_append _ _⟩

/-- A mapped span has boundaries of the content, and takes in its match. -/
lemma Mapped.bounds (h : Mapped content text xs m mapped) (hmatch : IsMatch text span xs m ys) :
    mapped.start ≤ mapped.stop ∧ (∃ p, p <+: content ∧ mapped.start = size p) ∧
      (∃ q, q <+: content ∧ mapped.stop = size q) ∧
      (∃ p', p' <+: xs ∧ mapped.normalizedStart = size p') ∧
      ∃ q', q' <+: text ∧ xs ++ m <+: q' ∧ mapped.normalizedStop = size q' := by
  obtain ⟨hxs, hxsm⟩ := hmatch.prefixes
  have hline : lineNumber xs ≤ lineNumber (xs ++ m) :=
    lineNumber_mono (List.prefix_append _ _)
  cases h with
  | @clean p q c d hp hq hle _ _ =>
    refine ⟨?_, ⟨p, (List.prefix_append _ _).trans hp, rfl⟩, ⟨_, hq, rfl⟩,
      ⟨xs, List.prefix_refl _, rfl⟩, _, hxsm, List.prefix_refl _, rfl⟩
    show size p ≤ size (q ++ [d])
    rw [size_append]
    omega
  | @lines p q p' q' hp hq hp' hq' =>
    refine ⟨size_mono (hp.prefix_stop hq hline), ⟨p, hp.1, rfl⟩, ⟨q, hq.1, rfl⟩,
      ⟨p', ?_, rfl⟩, q', hq'.1, ?_, rfl⟩
    · exact prefix_of_size_le hp'.1 hxs ((hp'.size_le_iff hxs).mpr (Nat.le_refl _))
    · exact prefix_of_size_le hxsm hq'.1 ((hq'.size_le_iff hxsm).mpr (Nat.le_refl _))

/-- A span of the original before another one comes from a range of the view before the other's. -/
lemma Mapped.normalized_le (hlaws : nf.KeepsLines)
    (h : Mapped content (normalizeForFuzzyMatch nf content) xs m mapped)
    (h' : Mapped content (normalizeForFuzzyMatch nf content) xs' m' mapped')
    (hmatch : IsMatch (normalizeForFuzzyMatch nf content) span xs m ys) {span' : Nat × Nat}
    {ys' : Text} (hmatch' : IsMatch (normalizeForFuzzyMatch nf content) span' xs' m' ys')
    (hle : size (xs ++ m) ≤ size xs') (hstop : mapped.stop ≤ mapped'.start) :
    mapped.normalizedStop ≤ mapped'.normalizedStart := by
  obtain ⟨hxs, hxsm⟩ := hmatch.prefixes
  obtain ⟨hxs', hxsm'⟩ := hmatch'.prefixes
  have hbefore : xs ++ m <+: xs' := prefix_of_size_le hxsm hxs' hle
  cases h with
  | @clean p q c d hp hq hpq hpline hqline =>
    cases h' with
    | clean _ _ _ _ _ => exact hle
    | @lines r _ r' _ hr _ hr' _ =>
      show size (xs ++ m) ≤ size r'
      have hstop : size (q ++ [d]) ≤ size r := hstop
      by_contra hlt
      obtain ⟨m₀, b, hb⟩ := (List.eq_nil_or_concat m).resolve_left hmatch.ne_nil
      rw [List.concat_eq_append] at hb
      rw [hb, List.dropLast_concat] at hqline
      rw [hb, ← List.append_assoc] at hlt hxsm
      have hinside := size_le_of_lt_concat hr'.1 hxsm (Nat.lt_of_not_le hlt)
      have hxs₀ : xs ++ m₀ <+: normalizeForFuzzyMatch nf content :=
        (List.prefix_append _ _).trans hxsm
      have hline := (hr'.size_le_iff hxs₀).mp hinside
      have hq₀ : q <+: content := (List.prefix_append _ _).trans hq
      have hrq := (hr.size_le_iff hq₀).mpr (hline.trans_eq hqline.symm)
      have hd := d.utf8Size_pos
      rw [size_append, size_singleton] at hstop
      omega
  | @lines p q p' q' hp hq hp' hq' =>
    cases h' with
    | @clean r _ c _ hr _ _ hrline _ =>
      show size q' ≤ size xs'
      have hstop : size q ≤ size r := hstop
      by_contra hlt
      obtain ⟨a, m₀, ha⟩ := List.exists_cons_of_ne_nil hmatch'.ne_nil
      have hnext : xs' ++ [a] <+: normalizeForFuzzyMatch nf content := by
        rw [ha] at hxsm'
        exact (List.prefix_append_right_inj xs').mpr ⟨m₀, rfl⟩ |>.trans hxsm'
      have hinside : size (xs' ++ [a]) ≤ size q' := by
        by_contra hlt'
        exact hlt (size_le_of_lt_concat hq'.1 hnext (Nat.lt_of_not_le hlt'))
      have hline := (hq'.size_le_iff hnext).mp hinside
      rw [ha] at hrline
      have hrq := (hq.size_le_iff hr).mpr (hrline.trans_le hline)
      have hc := c.utf8Size_pos
      rw [size_append, size_singleton] at hrq
      omega
    | @lines r _ r' _ hr _ hr' _ =>
      show size q' ≤ size r'
      have hstop : size q ≤ size r := hstop
      have hlines : lineNumber (xs ++ m) ≤ lineNumber xs' := lineNumber_mono hbefore
      rcases Nat.eq_or_lt_of_le hlines with heq | hlt
      · -- Both take in one line, so the original line between them is empty.
        rw [← heq] at hr hr'
        have hsame : r = q := prefix_eq_of_size_eq hr.1 hq.1
          (Nat.le_antisymm (size_mono (hr.prefix_stop hq (Nat.le_refl _))) hstop)
        rw [← hsame] at hq
        rw [empty_line_normalize hlaws hr hq hr' hq']
      · by_contra hgt
        have hline := (hq'.size_le_iff hr'.1).mp (Nat.le_of_lt (Nat.lt_of_not_le hgt))
        rw [hr'.2.1] at hline
        omega

end

end Edit
