import RpiPackage.Edit.Resolved
import RpiPackage.Lib.First

/-!
# Ambiguous matches

An edit for one occurrence is applied when the scan finds one. The scan steps over the whole text
of an occurrence, so it does not see another one that starts inside it.
-/

namespace Edit

open Utf8

/-- A text starts at exactly one position of another one. -/
def StartsOnce (needle text : Text) : Prop := ∃! p, Occurs needle text p

/-- Another occurrence starts inside the first one. -/
def OverlapsFirst (needle text : Text) : Prop :=
  ∃ p q, find needle text = some p ∧ Occurs needle text q ∧ p < q ∧ q < p + size needle

/-- The text that an edit matched and the text that was searched: the old text itself when it
occurs literally. -/
def matchedText (nf : Nfkc) (content old : Text) : Option (Text × Text) :=
  matched nf content old (searchView nf content (fuzzyFindText nf content old).usedFuzzyMatch)

section

variable {nf : Nfkc} {notFound : Nat → Text → String} {path : String} {needle content old : Text}

lemma exists_find {p : Nat} (h : Occurs needle content p) : ∃ i, find needle content = some i := by
  cases hfind : find needle content with
  | none => exact absurd h (find_eq_none.mp hfind p)
  | some i => exact ⟨i, rfl⟩

/-- When the scan finds one occurrence, all others start inside the first one. -/
lemma startsOnce_iff_of_scan (h : (findAllSpans content needle).length = 1) :
    StartsOnce needle content ↔ ¬OverlapsFirst needle content := by
  obtain ⟨span, hspan⟩ := List.length_eq_one_iff.mp h
  have hne : needle ≠ [] := ne_nil_of_mem_findAllSpans (hspan ▸ List.mem_singleton_self span)
  have hscan : Scanned needle 0 content (findAllSpans content needle) := scanned_findAllSpans hne
  rw [hspan] at hscan
  obtain ⟨p, hp, hpair⟩ := hscan.occurs span (List.mem_singleton_self span)
  have hcover : ∀ q, Occurs needle content q → p ≤ q ∧ q < p + size needle := by
    intro q hq
    obtain ⟨span', hspan', hle, hlt⟩ := hscan.covers q hq
    rw [List.mem_singleton.mp hspan', hpair] at hle hlt
    simp only [Nat.zero_add] at hle hlt
    exact ⟨hle, hlt⟩
  obtain ⟨i, hfind⟩ := exists_find hp
  obtain ⟨hi, hmin⟩ := occurs_of_find hfind
  obtain rfl : i = p := Nat.le_antisymm (hmin p hp) (hcover i hi).1
  constructor
  · rintro ⟨r, -, hunique⟩ ⟨p', q, hfind', hq, hlt, -⟩
    obtain rfl := Option.some.inj (hfind.symm.trans hfind')
    have hsame : i = q := (hunique i hi).trans (hunique q hq).symm
    omega
  · intro hoverlap
    refine ⟨i, hi, fun q hq => ?_⟩
    obtain ⟨hle, hlt⟩ := hcover q hq
    by_contra hne'
    exact hoverlap ⟨i, q, hfind, hq, by omega, hlt⟩

lemma applyEdits_eq_ok {edits : List EditRequest} {applied : AppliedEdits}
    (h : applyEdits nf notFound content edits path = .ok applied) :
    failuresOf nf notFound path content (normalizeEdits edits) = [] := by
  unfold applyEdits at h
  simp only [] at h
  split at h
  · cases h
  next hfailures => simpa using hfailures

lemma mem_normalizeEdits {edits : List EditRequest} {i : Nat} {edit : EditRequest}
    (h : edits[i]? = some edit) :
    ⟨i, normalizeToLf edit.oldText, normalizeToLf edit.newText, edit.replaceAll⟩ ∈
      normalizeEdits edits := by
  unfold normalizeEdits
  rw [List.mem_map]
  exact ⟨(edit, i), List.mem_zipIdx_iff_getElem?.mpr h, rfl⟩

end

/-- In a call that succeeds, the text that an edit for one occurrence matched starts at exactly one
position of the text it was searched in if and only if no occurrence starts inside the first one. -/
theorem startsOnce_iff_of_applied (nf : Nfkc) (notFound : Nat → Text → String) (content : Text)
    (edits : List EditRequest) (path : String) (applied : AppliedEdits)
    (h : applyEdits nf notFound content edits path = .ok applied) (i : Nat) (edit : EditRequest)
    (hedit : edits[i]? = some edit) (hone : edit.replaceAll = false) :
    ∃ needle searched,
      matchedText nf content (normalizeToLf edit.oldText) = some (needle, searched) ∧
        (StartsOnce needle searched ↔ ¬OverlapsFirst needle searched) := by
  have hresolved := forall₂_resolved (applyEdits_eq_ok h)
  obtain ⟨plan, -, hplan⟩ := First.exists_of_forall₂ hresolved.flip (mem_normalizeEdits hedit)
  obtain ⟨searched, hmatched, -, hunique, -, -⟩ := hplan.matched
  rw [hplan.normalized] at hmatched
  exact ⟨plan.needle, searched, hmatched, startsOnce_iff_of_scan (hunique hone)⟩

def notFoundText (_ : Nat) (_ : Text) : String := "not found"

/-- The result of one edit of one occurrence. -/
def applyOne (content old new : Text) : Except ApplyFailure AppliedEdits :=
  applyEdits asciiNfkc notFoundText content [⟨old, new, false⟩] "f"

theorem startsOnce_iff_of_ab :
    ∃ applied, applyOne ['a', 'b'] ['a'] ['c'] = .ok applied ∧
      ∃ needle searched,
        matchedText asciiNfkc ['a', 'b'] (normalizeToLf ['a']) = some (needle, searched) ∧
          (StartsOnce needle searched ↔ ¬OverlapsFirst needle searched) := by
  have hok : ∃ applied, applyOne ['a', 'b'] ['a'] ['c'] = .ok applied := ⟨_, rfl⟩
  obtain ⟨applied, happlied⟩ := hok
  exact ⟨applied, happlied, startsOnce_iff_of_applied asciiNfkc notFoundText _ _ "f" applied happlied
    0 ⟨['a'], ['c'], false⟩ rfl rfl⟩

/-- An old text that overlaps itself is replaced although it starts at two positions. -/
theorem exists_applied_twice :
    ∃ applied, applyOne ['a', 'a', 'a'] ['a', 'a'] ['b'] = .ok applied ∧
      matchedText asciiNfkc ['a', 'a', 'a'] (normalizeToLf ['a', 'a']) =
        some (['a', 'a'], ['a', 'a', 'a']) ∧
      ¬StartsOnce ['a', 'a'] ['a', 'a', 'a'] := by
  refine ⟨_, rfl, rfl, ?_⟩
  rintro ⟨p, -, hunique⟩
  have hzero := hunique 0 ⟨[], ['a'], rfl, rfl⟩
  have hone := hunique 1 ⟨['a'], [], rfl, rfl⟩
  omega

end Edit
