import RpiPackage.Edit.Apply
import RpiPackage.Lib.Result

/-!
# Resolved edits

What a scan for occurrences finds, and what is known about every edit of a call that succeeds.
-/

namespace Edit

open Utf8

section

variable {needle rest content : Text} {fuel start p : Nat} {span : Nat × Nat}

/-! ### The scan -/

/-- The scan steps over the text of an occurrence. -/
lemma spansFrom_succ_of_find {i : Nat} {xs ys : Text} (hrest : rest = xs ++ (needle ++ ys))
    (hi : size xs = i) (hfind : find needle rest = some i) :
    spansFrom needle (fuel + 1) start rest =
      (start + i, start + i + size needle) :: spansFrom needle fuel (start + i + size needle) ys := by
  have hdrop : dropBytes (i + size needle) rest = ys := by
    rw [hrest, ← hi, ← size_append, ← List.append_assoc, dropBytes_append]
  rw [spansFrom, hfind]
  show _ :: spansFrom needle fuel _ (dropBytes (i + size needle) rest) = _
  rw [hdrop]

/-- The spans are occurrences that do not overlap, and every occurrence starts inside one of them. -/
structure Scanned (needle : Text) (start : Nat) (rest : Text) (spans : List (Nat × Nat)) : Prop where
  occurs : ∀ span ∈ spans, ∃ p, Occurs needle rest p ∧
    span = (start + p, start + p + size needle)
  covers : ∀ p, Occurs needle rest p → ∃ span ∈ spans, span.1 ≤ start + p ∧ start + p < span.2
  disjoint : spans.Pairwise fun a b => a.2 ≤ b.1

lemma scanned_spansFrom (hne : needle ≠ []) (hfuel : rest.length < fuel) :
    Scanned needle start rest (spansFrom needle fuel start rest) := by
  have hpos := size_pos hne
  have hlen := List.length_pos_iff.mpr hne
  induction fuel generalizing start rest with
  | zero => exact absurd hfuel (Nat.not_lt_zero _)
  | succ fuel ih =>
    cases hfind : find needle rest with
    | none =>
      rw [spansFrom, hfind]
      exact ⟨fun _ h => absurd h List.not_mem_nil,
        fun p hp => absurd hp (find_eq_none.mp hfind p), List.Pairwise.nil⟩
    | some i =>
      obtain ⟨⟨xs, ys, hrest, hi⟩, hmin⟩ := occurs_of_find hfind
      rw [spansFrom_succ_of_find hrest hi hfind]
      have hys : ys.length < fuel := by
        rw [hrest, List.length_append, List.length_append] at hfuel
        omega
      have htail := @ih ys (start + i + size needle) hys
      constructor
      · intro span hspan
        rcases List.mem_cons.mp hspan with rfl | hspan
        · exact ⟨i, ⟨xs, ys, hrest, hi⟩, rfl⟩
        · obtain ⟨p, hp, rfl⟩ := htail.occurs span hspan
          refine ⟨i + size needle + p, ?_, by rw [Prod.mk.injEq]; omega⟩
          rw [hrest, ← List.append_assoc, ← hi, ← size_append]
          exact occurs_append_iff.mpr hp
      · intro p hp
        have hle := hmin p hp
        rcases Nat.lt_or_ge p (i + size needle) with hlt | hge
        · exact ⟨_, List.mem_cons_self, by show start + i ≤ _; omega, by show _ < start + i + _; omega⟩
        · obtain ⟨q, rfl⟩ := Nat.exists_eq_add_of_le hge
          have hq : Occurs needle ys q := by
            rw [hrest, ← List.append_assoc, ← hi, ← size_append] at hp
            exact occurs_append_iff.mp hp
          obtain ⟨span, hspan, hfirst, hlast⟩ := htail.covers q hq
          exact ⟨span, List.mem_cons_of_mem _ hspan, by omega, by omega⟩
      · refine List.Pairwise.cons (fun span hspan => ?_) htail.disjoint
        obtain ⟨p, -, rfl⟩ := htail.occurs span hspan
        exact Nat.le_add_right _ _

lemma scanned_findAllSpans (hne : needle ≠ []) :
    Scanned needle 0 content (findAllSpans content needle) := by
  unfold findAllSpans
  rw [if_neg (by simpa using hne)]
  exact scanned_spansFrom hne (Nat.lt_succ_self _)

lemma ne_nil_of_mem_findAllSpans (h : span ∈ findAllSpans content needle) : needle ≠ [] := by
  rintro rfl
  exact absurd h List.not_mem_nil

end

/-! ### Resolved edits -/

/-- The view that an edit is matched in. -/
def searchView (nf : Nfkc) (content : Text) (normalizedMatch : Bool) : Option NormalizedView :=
  if normalizedMatch then some (.new nf content) else none

/-- An edit and the plan it is resolved to. -/
structure Resolved (nf : Nfkc) (content : Text) (e : NormalizedEdit) (plan : Plan) : Prop where
  notEmpty : e.old ≠ []
  changes : e.old ≠ e.new
  index : plan.index = e.index
  newText : plan.newText = e.new
  normalized : plan.normalizedMatch = (fuzzyFindText nf content e.old).usedFuzzyMatch
  matched : ∃ searched,
    matched nf content e.old (searchView nf content plan.normalizedMatch) =
        some (plan.needle, searched) ∧
      findAllSpans searched plan.needle ≠ [] ∧
      (e.replaceAll = false → (findAllSpans searched plan.needle).length = 1) ∧
      plan.matchCount = (findAllSpans searched plan.needle).length ∧
      plan.spans = replacementsFor content (searchView nf content plan.normalizedMatch)
        (findAllSpans searched plan.needle) e.new

section

variable {nf : Nfkc} {notFound : Nat → Text → String} {path : String} {content : Text}
  {edits : List NormalizedEdit} {e : NormalizedEdit} {plan : Plan} {normalizedMatch : Bool}

lemma validate_eq_none : validate path e = none ↔ e.old ≠ [] ∧ e.old ≠ e.new := by
  unfold validate
  split
  next h => simp [h]
  next hne =>
    split
    next h => simp [h]
    next hchange => simp [hne, hchange]

/-- An edit that needs the view gets it. -/
lemma filter_viewFor (he : e ∈ edits) (hprobe : probe nf path content e = some normalizedMatch) :
    ((viewFor nf path content edits).filter fun _ => normalizedMatch) =
      searchView nf content normalizedMatch := by
  cases normalizedMatch with
  | false => exact Option.filter_eq_none_iff.mpr (by simp)
  | true =>
    have hmem : some true ∈ edits.map (probe nf path content) := hprobe ▸ List.mem_map_of_mem he
    unfold viewFor
    rw [if_pos (List.contains_iff_mem.mpr hmem)]
    rfl

lemma planFor_eq_ok {view : Option NormalizedView} {needle : Text} {found : List (Nat × Nat)}
    (h : planFor notFound path content view e normalizedMatch needle found = .ok plan) :
    found ≠ [] ∧ (e.replaceAll = false → found.length = 1) ∧
      plan = ⟨e.index, needle, replacementsFor content view found e.new, e.new, found.length,
        normalizedMatch⟩ := by
  unfold planFor at h
  rw [Result.ite_error_eq_ok, Result.ite_error_eq_ok, Result.ite_error_eq_ok] at h
  obtain ⟨hne, hunique, -, hplan⟩ := h
  refine ⟨hne, fun hone => ?_, (Except.ok.inj hplan).symm⟩
  have hpos := List.length_pos_iff.mpr hne
  have hle : ¬1 < found.length := fun hlt => hunique ⟨hone, hlt⟩
  omega

lemma resolve_eq_ok {view : Option NormalizedView}
    (hview : (view.filter fun _ => normalizedMatch) = searchView nf content normalizedMatch)
    (hprobe : probe nf path content e = some normalizedMatch)
    (h : resolve nf notFound path content view e normalizedMatch = .ok plan) :
    Resolved nf content e plan := by
  unfold probe at hprobe
  split at hprobe
  · cases hprobe
  next hvalid =>
    obtain ⟨hnotEmpty, hchanges⟩ := validate_eq_none.mp hvalid
    unfold resolve at h
    rw [hview] at h
    cases hmatched : matched nf content e.old (searchView nf content normalizedMatch) with
    | none =>
      simp only [hmatched] at h
      cases h
    | some pair =>
      obtain ⟨needle, searched⟩ := pair
      simp only [hmatched] at h
      obtain ⟨hne, hunique, rfl⟩ := planFor_eq_ok h
      exact ⟨hnotEmpty, hchanges, rfl, rfl, (Option.some.inj hprobe).symm, searched, hmatched, hne,
        hunique, rfl, rfl⟩

/-- In a call that succeeds every edit is resolved, in order. -/
lemma forall₂_resolved (h : failuresOf nf notFound path content edits = []) :
    List.Forall₂ (Resolved nf content) edits (plansOf nf notFound path content edits) := by
  unfold failuresOf at h
  rw [List.append_eq_nil_iff, List.append_eq_nil_iff] at h
  obtain ⟨⟨hvalid, houtcomes⟩, -⟩ := h
  unfold plansOf
  unfold outcomes at houtcomes ⊢
  have hview : ∀ e ∈ edits, ∀ b, probe nf path content e = some b →
      ((viewFor nf path content edits).filter fun _ => b) = searchView nf content b :=
    fun e he b hb => filter_viewFor he hb
  generalize viewFor nf path content edits = view at hview houtcomes ⊢
  induction edits with
  | nil => exact List.Forall₂.nil
  | cons e edits ih =>
    have he : validate path e = none := by
      by_contra hne
      obtain ⟨failure, hfailure⟩ := Option.ne_none_iff_exists'.mp hne
      rw [List.filterMap_cons_some hfailure] at hvalid
      cases hvalid
    rw [List.filterMap_cons_none he] at hvalid
    have hprobe : probe nf path content e = some (fuzzyFindText nf content e.old).usedFuzzyMatch := by
      unfold probe
      rw [he]
    have houtcome : outcome nf notFound path content view e =
        some (resolve nf notFound path content view e
          (fuzzyFindText nf content e.old).usedFuzzyMatch) := by
      unfold outcome
      rw [hprobe, Option.map_some]
    rw [List.filterMap_cons_some houtcome] at houtcomes ⊢
    cases hresolve : resolve nf notFound path content view e
        (fuzzyFindText nf content e.old).usedFuzzyMatch with
    | error failure =>
      rw [hresolve] at houtcomes
      cases houtcomes
    | ok plan =>
      rw [hresolve] at houtcomes
      have hplan := resolve_eq_ok (hview e List.mem_cons_self _ hprobe) hprobe hresolve
      exact .cons hplan (ih hvalid (fun o ho b hb => hview o (List.mem_cons_of_mem e ho) b hb)
        houtcomes)

end

end Edit
