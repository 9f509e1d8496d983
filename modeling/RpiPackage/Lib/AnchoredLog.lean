import RpiPackage.Lib.Result
import RpiPackage.Lib.Rust

/-!
# Logs read from their newest base record

A log is a list of records, some of which could not be parsed. A base record is complete in
itself, so a reader starts at the newest one: what precedes it is ignored, parsable or not, and
everything after it must parse. `select` is this reading; `selectIndexed` computes it from the
positions of the parsed and of the unparsed records, as a program with two arrays does.
-/

namespace AnchoredLog

universe u

variable {ε ρ : Type u} (isBase : ρ → Bool)

/-- The newest base record of a log with what follows it. -/
def newest : List (Except ε ρ) → Option (ρ × List (Except ε ρ))
  | [] => none
  | .error _ :: log => newest log
  | .ok r :: log => (newest log).or (if isBase r then some (r, log) else none)

/-- All records of a log, or its first error. -/
def sequence (log : List (Except ε ρ)) : Except ε (List ρ) := log.mapM id

/-- The records a reader replays. -/
def select (log : List (Except ε ρ)) : Except ε (List ρ) :=
  match newest isBase log with
  | some (base, suffix) => (base :: ·) <$> sequence suffix
  | none => sequence log

/-! ### The reading by positions -/

/-- The parsed records and the errors of a log, each with its position. -/
def splitIndexed : Nat → List (Except ε ρ) → List (Nat × ρ) × List (Nat × ε)
  | _, [] => ([], [])
  | i, .ok r :: log => ((i, r) :: (splitIndexed (i + 1) log).1, (splitIndexed (i + 1) log).2)
  | i, .error e :: log => ((splitIndexed (i + 1) log).1, (i, e) :: (splitIndexed (i + 1) log).2)

/-- The first error after a position. -/
def firstAfter (position : Nat) (invalid : List (Nat × ε)) : Option (Nat × ε) :=
  invalid.find? fun p => decide (position < p.1)

def selectIndexed (records : List (Nat × ρ)) (invalid : List (Nat × ε)) :
    Except ε (List (Nat × ρ)) :=
  match Rust.rposition (fun p => isBase p.2) records with
  | some k =>
    match firstAfter ((records[k]?.map Prod.fst).getD 0) invalid with
    | some (_, e) => .error e
    | none => .ok (records.drop k)
  | none =>
    match invalid.head? with
    | some (_, e) => .error e
    | none => .ok records

/-! ### Sequencing -/

@[simp] lemma sequence_nil : sequence ([] : List (Except ε ρ)) = .ok [] := rfl

@[simp] lemma sequence_ok_cons (r : ρ) (log : List (Except ε ρ)) :
    sequence (.ok r :: log) = (r :: ·) <$> sequence log := by
  simp only [sequence, List.mapM_cons, id, Result.ok_bind]
  cases List.mapM id log <;> rfl

@[simp] lemma sequence_error_cons (e : ε) (log : List (Except ε ρ)) :
    sequence (.error e :: log) = .error e := by
  simp [sequence, List.mapM_cons]

lemma sequence_map_ok (rs : List ρ) : sequence (ε := ε) (rs.map .ok) = .ok rs :=
  Result.mapM_map_ok (g := Except.ok) (fun _ => rfl) rs

lemma sequence_eq_ok {log : List (Except ε ρ)} {rs : List ρ} :
    sequence log = .ok rs ↔ log = rs.map .ok := by
  constructor
  · intro h
    induction log generalizing rs with
    | nil => cases h; rfl
    | cons x log ih =>
      cases x with
      | error e => simp at h
      | ok r =>
        rw [sequence_ok_cons, Result.map_eq_ok] at h
        obtain ⟨rs', hrs, rfl⟩ := h
        rw [ih hrs, List.map_cons]
  · rintro rfl
    exact sequence_map_ok rs

lemma sequence_append_ok (log : List (Except ε ρ)) (r : ρ) :
    sequence (log ++ [.ok r]) = (· ++ [r]) <$> sequence log := by
  induction log with
  | nil => rfl
  | cons x log ih =>
    cases x with
    | error e => simp
    | ok r' =>
      rw [List.cons_append, sequence_ok_cons, sequence_ok_cons, ih]
      cases sequence log <;> rfl

lemma sequence_append_error (log : List (Except ε ρ)) (e : ε) :
    ∃ e', sequence (log ++ [.error e]) = .error e' := by
  induction log with
  | nil => exact ⟨e, rfl⟩
  | cons x log ih =>
    cases x with
    | error e' => exact ⟨e', by simp⟩
    | ok r =>
      obtain ⟨e', h⟩ := ih
      exact ⟨e', by rw [List.cons_append, sequence_ok_cons, h]; rfl⟩

/-- One unparsed record makes the whole sequence an error. -/
lemma sequence_of_mem_error {log : List (Except ε ρ)} {e : ε} (h : .error e ∈ log) :
    ∃ e', sequence log = .error e' := by
  rcases hs : sequence log with e' | rs
  · exact ⟨e', rfl⟩
  · rw [sequence_eq_ok] at hs
    simp [hs] at h

/-! ### The newest base -/

lemma newest_append_base {b : ρ} (hb : isBase b = true) (log : List (Except ε ρ)) :
    newest isBase (log ++ [.ok b]) = some (b, []) := by
  induction log with
  | nil => simp [newest, hb]
  | cons x log ih => rcases x with e | r <;> simp [newest, ih]

lemma newest_append_of_not_base {x : Except ε ρ} (hx : ∀ r, x = .ok r → isBase r = false)
    (log : List (Except ε ρ)) :
    newest isBase (log ++ [x]) = (newest isBase log).map fun p => (p.1, p.2 ++ [x]) := by
  induction log with
  | nil =>
    rcases x with e | r
    · rfl
    · simp [newest, hx r rfl]
  | cons y log ih =>
    rcases y with e | r
    · simpa [newest] using ih
    · simp only [List.cons_append, newest, ih, Option.map_or]
      by_cases hr : isBase r = true <;> simp [hr]

/-- What the reader starts from splits the log: a base, and no base after it. -/
lemma newest_eq_some {log : List (Except ε ρ)} {b : ρ} {suffix : List (Except ε ρ)} :
    newest isBase log = some (b, suffix) ↔
      ∃ before, log = before ++ .ok b :: suffix ∧ isBase b = true ∧
        newest isBase suffix = none := by
  induction log with
  | nil => simp [newest]
  | cons x log ih =>
    constructor
    · intro h
      rcases x with e | r
      · obtain ⟨before, rfl, hb, hs⟩ := ih.mp h
        exact ⟨.error e :: before, rfl, hb, hs⟩
      · rw [newest, Option.or_eq_some_iff] at h
        rcases h with h | ⟨hn, h⟩
        · obtain ⟨before, rfl, hb, hs⟩ := ih.mp h
          exact ⟨.ok r :: before, rfl, hb, hs⟩
        · obtain ⟨hr, hp⟩ := Option.ite_none_right_eq_some.mp h
          obtain ⟨rfl, rfl⟩ := Prod.mk.inj (Option.some.inj hp)
          exact ⟨[], rfl, hr, hn⟩
    · rintro ⟨before, heq, hb, hs⟩
      cases before with
      | nil =>
        obtain ⟨rfl, rfl⟩ := List.cons.inj heq
        simp [newest, hs, hb]
      | cons y before =>
        obtain ⟨rfl, rfl⟩ := List.cons.inj heq
        have hn : newest isBase (before ++ .ok b :: suffix) = some (b, suffix) :=
          ih.mpr ⟨before, rfl, hb, hs⟩
        rcases x with e | r
        · exact hn
        · exact (congrArg (Option.or · _) hn).trans Option.some_or

lemma newest_eq_none {log : List (Except ε ρ)} :
    newest isBase log = none ↔ ∀ r, .ok r ∈ log → isBase r = false := by
  induction log with
  | nil => simp [newest]
  | cons x log ih =>
    rcases x with e | r
    · simpa [newest] using ih
    · rw [newest, Option.or_eq_none_iff, ih]
      simp only [List.mem_cons, Except.ok.injEq]
      constructor
      · rintro ⟨h, hr⟩ s (rfl | hs)
        · simpa using hr
        · exact h s hs
      · exact fun h => ⟨fun s hs => h s (.inr hs), by simp [h r (.inl rfl)]⟩

/-- A reading succeeds from the newest base when all that follows it parses, and without a base when
the whole log does. -/
lemma select_eq_ok {log : List (Except ε ρ)} {rs : List ρ} :
    select isBase log = .ok rs ↔
      (∃ before b suffix, log = before ++ .ok b :: suffix.map .ok ∧ isBase b = true ∧
        (∀ r ∈ suffix, isBase r = false) ∧ rs = b :: suffix) ∨
      (log = rs.map .ok ∧ ∀ r ∈ rs, isBase r = false) := by
  have hmap : ∀ suffix : List ρ, newest isBase (ε := ε) (suffix.map .ok) = none ↔
      ∀ r ∈ suffix, isBase r = false := by
    intro suffix
    rw [newest_eq_none]
    simp
  unfold select
  cases hn : newest isBase log with
  | some found =>
    obtain ⟨before, rfl, hb, hs⟩ := (newest_eq_some isBase).mp hn
    simp only [Result.map_eq_ok, sequence_eq_ok]
    constructor
    · rintro ⟨suffix, hsuffix, rfl⟩
      rw [hsuffix] at hs ⊢
      exact .inl ⟨before, found.1, suffix, rfl, hb, (hmap suffix).mp hs, rfl⟩
    · rintro (⟨before', b, suffix, heq, hb', hs', rfl⟩ | ⟨heq, hnone⟩)
      · have hn' := (newest_eq_some isBase).mpr ⟨before', heq, hb', (hmap suffix).mpr hs'⟩
        obtain rfl := Option.some.inj (hn.symm.trans hn')
        exact ⟨suffix, rfl, rfl⟩
      · rw [heq, (hmap rs).mpr hnone] at hn
        cases hn
  | none =>
    simp only [sequence_eq_ok]
    constructor
    · rintro rfl
      exact .inr ⟨rfl, (hmap rs).mp hn⟩
    · rintro (⟨before, b, suffix, rfl, hb, -, -⟩ | ⟨rfl, -⟩)
      · have := (newest_eq_none isBase).mp hn b (by simp)
        simp [hb] at this
      · rfl

/-- Whatever precedes a base record is ignored. -/
lemma select_append_of_base {b : ρ} (hb : isBase b = true) (before suffix : List (Except ε ρ)) :
    select isBase (before ++ .ok b :: suffix) = select isBase (.ok b :: suffix) := by
  cases hn : newest isBase suffix with
  | some found =>
    obtain ⟨mid, rfl, hf, hs⟩ := (newest_eq_some isBase).mp hn
    have h₁ : newest isBase (before ++ .ok b :: (mid ++ .ok found.1 :: found.2)) = some found :=
      (newest_eq_some isBase).mpr ⟨before ++ .ok b :: mid, by simp, hf, hs⟩
    have h₂ : newest isBase (.ok b :: (mid ++ .ok found.1 :: found.2)) = some found :=
      (newest_eq_some isBase).mpr ⟨.ok b :: mid, by simp, hf, hs⟩
    rw [select, h₁, select, h₂]
  | none =>
    have h₁ : newest isBase (before ++ .ok b :: suffix) = some (b, suffix) :=
      (newest_eq_some isBase).mpr ⟨before, rfl, hb, hn⟩
    have h₂ : newest isBase (.ok b :: suffix) = some (b, suffix) :=
      (newest_eq_some isBase).mpr ⟨[], rfl, hb, hn⟩
    rw [select, h₁, select, h₂]

/-- Appending a base record restarts the log there. -/
lemma select_append_base {b : ρ} (hb : isBase b = true) (log : List (Except ε ρ)) :
    select isBase (log ++ [.ok b]) = .ok [b] := by
  rw [select, newest_append_base isBase hb]
  rfl

/-- Appending another record extends what is replayed. -/
lemma select_append_ok {r : ρ} (hr : isBase r = false) (log : List (Except ε ρ)) :
    select isBase (log ++ [.ok r]) = (· ++ [r]) <$> select isBase log := by
  have hn := newest_append_of_not_base isBase (ε := ε) (x := .ok r)
    (fun s hs => Except.ok.inj hs ▸ hr) log
  rw [select, hn, select]
  cases newest isBase log with
  | none => exact sequence_append_ok log r
  | some found =>
    simp only [Option.map_some]
    rw [sequence_append_ok]
    cases sequence found.2 <;> rfl

/-- Appending an unparsed record spoils the log. -/
lemma select_append_error (log : List (Except ε ρ)) (e : ε) :
    ∃ e', select isBase (log ++ [.error e]) = .error e' := by
  have hn := newest_append_of_not_base isBase (x := .error e) nofun log
  rw [select, hn]
  cases newest isBase log with
  | none => exact sequence_append_error log e
  | some found =>
    obtain ⟨e', he⟩ := sequence_append_error found.2 e
    exact ⟨e', by simp [he]⟩

/-! ### The two readings agree -/

lemma le_of_mem_splitIndexed (i : Nat) (log : List (Except ε ρ)) :
    (∀ p ∈ (splitIndexed i log).1, i ≤ p.1) ∧ ∀ p ∈ (splitIndexed i log).2, i ≤ p.1 := by
  induction log generalizing i with
  | nil => simp [splitIndexed]
  | cons x log ih =>
    obtain ⟨h₁, h₂⟩ := ih (i + 1)
    have h₁' : ∀ p ∈ (splitIndexed (i + 1) log).1, i ≤ p.1 := fun p hp =>
      Nat.le_of_succ_le (h₁ p hp)
    have h₂' : ∀ p ∈ (splitIndexed (i + 1) log).2, i ≤ p.1 := fun p hp =>
      Nat.le_of_succ_le (h₂ p hp)
    rcases x with e | r <;> simp only [splitIndexed, List.forall_mem_cons, le_refl, true_and] <;>
      exact ⟨h₁', h₂'⟩

lemma sequence_eq_splitIndexed (i : Nat) (log : List (Except ε ρ)) :
    sequence log =
      match (splitIndexed i log).2.head? with
      | some (_, e) => .error e
      | none => .ok ((splitIndexed i log).1.map Prod.snd) := by
  induction log generalizing i with
  | nil => rfl
  | cons x log ih =>
    rcases x with e | r
    · simp [splitIndexed]
    · rw [sequence_ok_cons, ih (i + 1)]
      simp only [splitIndexed]
      cases (splitIndexed (i + 1) log).2.head? <;> rfl

lemma rposition_eq_none_iff (i : Nat) (log : List (Except ε ρ)) :
    Rust.rposition (fun p => isBase p.2) (splitIndexed i log).1 = none ↔
      newest isBase log = none := by
  induction log generalizing i with
  | nil => simp [splitIndexed, newest, Rust.rposition]
  | cons x log ih =>
    rcases x with e | r
    · exact ih (i + 1)
    · rw [newest, Option.or_eq_none_iff, ← ih (i + 1)]
      simp only [splitIndexed, Rust.rposition]
      cases Rust.rposition (fun p => isBase p.2) (splitIndexed (i + 1) log).1 <;> simp

lemma getElem?_of_rposition {α : Type*} {p : α → Bool} {as : List α} {k : Nat}
    (h : Rust.rposition p as = some k) : ∃ a, as[k]? = some a ∧ a ∈ as := by
  induction as generalizing k with
  | nil => cases h
  | cons b as ih =>
    rw [Rust.rposition] at h
    split at h
    · obtain rfl := Option.some.inj h
      obtain ⟨a, ha, hmem⟩ := ih ‹_›
      exact ⟨a, by simpa using ha, List.mem_cons_of_mem _ hmem⟩
    · obtain rfl : 0 = k := by simp_all
      exact ⟨b, rfl, List.mem_cons_self⟩

lemma firstAfter_eq_head? {position : Nat} {invalid : List (Nat × ε)}
    (h : ∀ p ∈ invalid, position + 1 ≤ p.1) : firstAfter position invalid = invalid.head? := by
  cases invalid with
  | nil => rfl
  | cons p ps =>
    have := h p List.mem_cons_self
    exact List.find?_cons_of_pos (decide_eq_true this)

theorem selectIndexed_eq_select (i : Nat) (log : List (Except ε ρ)) :
    List.map Prod.snd <$> selectIndexed isBase (splitIndexed i log).1 (splitIndexed i log).2 =
      select isBase log := by
  induction log generalizing i with
  | nil => rfl
  | cons x log ih =>
    have hnone := rposition_eq_none_iff isBase (i + 1) log
    have hrec := ih (i + 1)
    obtain ⟨hrecords, hinvalid⟩ := le_of_mem_splitIndexed (i + 1) log
    cases hp : Rust.rposition (fun p => isBase p.2) (splitIndexed (i + 1) log).1 with
    | some k =>
      -- the newest base lies in the rest, so the first record changes nothing
      have hne : newest isBase log ≠ none := fun h => by simp [hnone.mpr h] at hp
      obtain ⟨found, hn⟩ := Option.ne_none_iff_exists'.mp hne
      obtain ⟨a, ha, hmem⟩ := getElem?_of_rposition hp
      have hle := hrecords a hmem
      have hsel : select isBase (x :: log) = select isBase log := by
        rcases x with e | r <;> simp only [select, newest, hn, Option.some_or]
      rw [hsel, ← hrec]
      rcases x with e | r
      · have : ¬a.1 < i := by omega
        simp [splitIndexed, selectIndexed, firstAfter, hp, ha, this]
      · simp [splitIndexed, selectIndexed, Rust.rposition, hp]
    | none =>
      have hn := hnone.mp hp
      rcases x with e | r
      · simp [splitIndexed, selectIndexed, hp, select, newest, hn]
      · have hseq := sequence_eq_splitIndexed (i + 1) log
        by_cases hr : isBase r = true
        · have hfind : firstAfter i _ = _ := firstAfter_eq_head? hinvalid
          simp only [splitIndexed, selectIndexed, Rust.rposition, hp, hr, if_true,
            List.getElem?_cons_zero, Option.map_some, Option.getD_some, hfind, List.drop_zero,
            select, newest, hn, Option.none_or, hseq]
          cases (splitIndexed (i + 1) log).2.head? <;> rfl
        · simp only [splitIndexed, selectIndexed, Rust.rposition, hp, hr, Bool.false_eq_true,
            if_false, select, newest, hn, Option.none_or, sequence_ok_cons, hseq]
          cases (splitIndexed (i + 1) log).2.head? <;> rfl

end AnchoredLog
