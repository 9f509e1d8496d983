import Mathlib.Algebra.Order.Group.Abs
import Mathlib.Algebra.Order.Ring.Int
import RpiPackage.Antigravity.Subset

/-!
# The bounds of integers

While the fields of a merged schema are gone through, each bound of the result says what the bounds
that were met so far say of an integer.
-/

namespace Antigravity.Schema

open Json Json.Value

variable {p : Platform} {convert : Value → Value} {options : Options} {lower : Bool}
  {fields input result done : Fields} {f : String × Value} {key : String} {value : Value}
  {hints : List String} {n : Int} {x : Rat}

/-- A bound that a number is on the right side of. -/
def Holds (lower : Bool) (bound x : Rat) : Prop := if lower then bound ≤ x else x ≤ bound

/-- A number within the bounds of a schema. -/
structure Satisfies (p : Platform) (fields : Fields) (x : Rat) : Prop where
  inclusive : ∀ lower q, (fields.lookup (inclusive lower)).bind (asF64 p) = some q → Holds lower q x
  exclusive : ∀ lower q, (fields.lookup (exclusive lower)).bind (asF64 p) = some q →
    Holds lower q x ∧ q ≠ x

/-- The bounds are integers of at most 53 bits, also when the exclusive ones are shifted. -/
structure IntegerBounds (p : Platform) (fields : Fields) : Prop where
  inclusive : ∀ lower v, fields.lookup (inclusive lower) = some v →
    ∃ n : Int, asF64 p v = some (n : Rat) ∧ |n| ≤ maxSafe
  exclusive : ∀ lower v, fields.lookup (exclusive lower) = some v →
    ∃ n : Int, asF64 p v = some (n : Rat) ∧ |n| ≤ maxSafe ∧ |shifted lower n| ≤ maxSafe

/-! ### Integers as doubles -/

lemma asF64_integer (h : |n| ≤ maxSafe) : asF64 p (integer n) = some (n : Rat) := by
  rw [maxSafe, abs_le] at h
  cases n with
  | ofNat k =>
    have hk : k ≤ 2 ^ 53 := by
      have hle := h.2
      rw [Int.ofNat_eq_natCast] at hle
      omega
    have hsmall : k < 2 ^ 64 := by omega
    rw [integer, asF64, UInt64.toNat_ofNat_of_lt' hsmall, Binary64.nearest_of_le hk]
    rfl
  | negSucc k =>
    have hk : k + 1 ≤ 2 ^ 53 := by
      have hle := h.1
      omega
    have hint : (Int64.ofInt (.negSucc k)).toInt = .negSucc k := by
      rw [Int64.toInt_ofInt_of_le] <;> omega
    rw [integer, asF64, hint, if_pos (Int.negSucc_lt_zero k), Int.natAbs_negSucc,
      Binary64.nearest_of_le hk]
    simp [Int.negSucc_eq]

lemma finiteNumber_integer (h : |n| ≤ maxSafe) : asF64 p (finiteNumber p (n : Rat)) = some (n : Rat) := by
  rw [finiteNumber, if_pos ⟨Rat.den_intCast n, h⟩]
  exact asF64_integer h

lemma shifted_integer (lower : Bool) (n : Int) : shifted lower (n : Rat) = if lower then n + 1 else n - 1 := by
  rw [shifted, Rat.floor_intCast, Rat.ceil_intCast]

/-- The tighter of two bounds says what both say. -/
lemma holds_tighter {a b : Rat} : Holds lower (tighter lower a b) x ↔ Holds lower a x ∧ Holds lower b x := by
  cases lower
  · exact le_min_iff
  · exact max_le_iff

lemma tighter_cases (lower : Bool) (a b : Rat) : tighter lower a b = a ∨ tighter lower a b = b := by
  cases lower
  · exact min_choice a b
  · exact max_choice a b

/-- An integer beyond an exclusive bound is at the shifted one or beyond. -/
lemma holds_shifted (m : Int) : Holds lower (shifted lower (n : Rat)) m ↔ Holds lower n m ∧ (n : Rat) ≠ m := by
  rw [shifted_integer]
  cases lower
  · simp only [Holds, Bool.false_eq_true, ↓reduceIte]
    norm_cast
    omega
  · simp only [Holds, ↓reduceIte]
    norm_cast
    omega

/-! ### Bounds of the result -/

/-- What a field of the merged schema says of a number, as far as one side is concerned. An exclusive
bound is merged with the inclusive one. -/
structure Says (p : Platform) (lower : Bool) (input : Fields) (f : String × Value) (x : Rat) : Prop where
  within : f.1 = inclusive lower ∨ f.1 = exclusive lower → ∀ q,
    (input.lookup (inclusive lower)).bind (asF64 p) = some q → Holds lower q x
  beyond : f.1 = exclusive lower → ∀ q,
    (input.lookup (exclusive lower)).bind (asF64 p) = some q → Holds lower q x ∧ q ≠ x

/-- The bound of the result is an integer, and says what the fields that were met say. -/
structure Tracks (p : Platform) (lower : Bool) (input result done : Fields) : Prop where
  integer : ∀ v, result.lookup (inclusive lower) = some v →
    ∃ n : Int, asF64 p v = some (n : Rat) ∧ |n| ≤ maxSafe
  tells : ∀ x : Int, (∀ q, (result.lookup (inclusive lower)).bind (asF64 p) = some q → Holds lower q x) ↔
    ∀ f ∈ done, Says p lower input f x

lemma inclusive_ne_exclusive (lower lower' : Bool) : inclusive lower ≠ exclusive lower' := by
  cases lower <;> cases lower' <;> decide

/-- A field that is no bound of this side says nothing of it. -/
lemma Says.of_ne (h : f.1 ≠ inclusive lower) (h' : f.1 ≠ exclusive lower) : Says p lower input f x :=
  ⟨fun hkey => absurd hkey (not_or.mpr ⟨h, h'⟩), fun hkey => absurd hkey h'⟩

lemma Tracks.append_of_lookup {result' : Fields} (h : Tracks p lower input result done)
    (hsame : result'.lookup (inclusive lower) = result.lookup (inclusive lower))
    (hmeans : ∀ x : Int, Says p lower input f x) : Tracks p lower input result' (done ++ [f]) := by
  refine ⟨fun v hv => h.integer v (hsame ▸ hv), fun x => ?_⟩
  rw [hsame, h.tells x, List.forall_mem_append]
  refine (and_iff_left fun g hg => ?_).symm
  rw [List.mem_singleton.mp hg]
  exact hmeans x

/-- What becomes of an inclusive bound. -/
lemma outcome_inclusive (hmove : options.moveNumericConstraintsToDescription = false)
    (hvalue : asF64 p value = some x) :
    ∃ v, outcome p convert options input result (inclusive lower) value = ([], some (inclusive lower, v)) ∧
      match (result.lookup (inclusive lower)).bind (asF64 p) with
      | some old => v = finiteNumber p (tighter lower old x)
      | none => v = value := by
  cases value with
  | number n =>
    have hkeep : outcome p convert options input result (inclusive lower) (.number n) =
        keep p convert input result (inclusive lower) (.number n) := by
      unfold outcome
      cases lower <;> simp [inclusive, told, includedBound, isExclusive, numeric, hmove, allowed]
    rw [hkeep]
    unfold keep
    cases hold : (result.lookup (inclusive lower)).bind (asF64 p) with
    | none => cases lower <;> simp [inclusive, hvalue, show _ = none from hold]
    | some old => cases lower <;> simp [inclusive, hvalue, show _ = some old from hold]
  | null | bool | string | array | object => cases hvalue

/-- What becomes of an exclusive bound. -/
lemma outcome_exclusive (hmove : options.moveNumericConstraintsToDescription = false)
    (htype : p.uppercase (string p (index (.object input) "type")) = "INTEGER")
    (hvalue : asF64 p value = some x) (hsafe : |shifted lower x| ≤ maxSafe) :
    outcome p convert options input result (exclusive lower) value = ([], some (inclusive lower,
      finiteNumber p (((input.lookup (inclusive lower)).bind (asF64 p)).elim (shifted lower x : Rat)
        fun existing => tighter lower existing (shifted lower x)))) := by
  have hexisting : asF64 p (index (.object input) (inclusive lower)) =
      (input.lookup (inclusive lower)).bind (asF64 p) := by
    rw [index, get_object]
    cases input.lookup (inclusive lower) <;> rfl
  have hbound : includedBound p options input (exclusive lower) value = some (inclusive lower,
      finiteNumber p (((input.lookup (inclusive lower)).bind (asF64 p)).elim (shifted lower x : Rat)
        fun existing => tighter lower existing (shifted lower x))) := by
    rw [← hexisting]
    unfold includedBound
    rw [hmove, htype, hvalue]
    cases lower <;> simp [isExclusive, exclusive, hsafe]
  unfold outcome
  rw [hbound]
  cases lower <;> simp [exclusive, told]

lemma Becomes.key_ne {key' : String} {value' : Value} (h : Becomes p convert options input key value key' value')
    (hinclusive : key ≠ inclusive lower) (hexclusive : key ≠ exclusive lower) : key' ≠ inclusive lower := by
  cases h with
  | @bound lower' hkey x =>
    intro heq
    obtain rfl : lower' = lower := by
      cases lower' <;> cases lower <;> first | rfl | exact absurd heq (by decide)
    exact hkey.elim hinclusive hexclusive
  | other => exact hinclusive
  | constant | union | type | untyped | properties | items | required =>
    cases lower <;> decide

/-- A bound that is merged says what an exclusive bound and the inclusive one beside it say. -/
lemma Tracks.exclusive (hnodup : (input.map Prod.fst).Nodup) (hbounds : IntegerBounds p input)
    (hmove : options.moveNumericConstraintsToDescription = false)
    (htype : p.uppercase (string p (index (.object input) "type")) = "INTEGER")
    (hf : (exclusive lower, value) ∈ input) (s : Fields × List String) :
    Tracks p lower input (step p convert options input s (exclusive lower, value)).1
      (done ++ [(exclusive lower, value)]) := by
  have hlookup := lookup_of_mem hnodup hf
  obtain ⟨n, hn, -, hsafe⟩ := hbounds.exclusive lower value hlookup
  -- the merged bound
  obtain ⟨m, hm, hmsafe, hholds⟩ : ∃ m : Int,
      (((input.lookup (inclusive lower)).bind (asF64 p)).elim (shifted lower (n : Rat) : Rat)
        fun existing => tighter lower existing (shifted lower (n : Rat))) = m ∧ |m| ≤ maxSafe ∧
      ∀ x : Int, Holds lower m x ↔ Holds lower (shifted lower (n : Rat)) x ∧
        ∀ q, (input.lookup (inclusive lower)).bind (asF64 p) = some q → Holds lower q x := by
    cases hexisting : (input.lookup (inclusive lower)).bind (asF64 p) with
    | none => exact ⟨shifted lower n, rfl, hsafe, fun x => by simp⟩
    | some existing =>
      obtain ⟨v, hv, hasF64⟩ := Option.bind_eq_some_iff.mp hexisting
      obtain ⟨k, hk, hksafe⟩ := hbounds.inclusive lower v hv
      obtain rfl := Option.some.inj (hasF64.symm.trans hk)
      have htells : ∀ x : Int, Holds lower (tighter lower k (shifted lower (n : Rat))) x ↔
          Holds lower (shifted lower (n : Rat)) x ∧ ∀ q, some (k : Rat) = some q → Holds lower q x := by
        intro x
        rw [holds_tighter, and_comm]
        simp
      rcases tighter_cases lower (k : Rat) (shifted lower (n : Rat)) with h | h
      · exact ⟨k, h, hksafe, fun x => by rw [← htells x, h]⟩
      · exact ⟨shifted lower n, h, hsafe, fun x => by rw [← htells x, h]⟩
  have hstep : (step p convert options input s (Schema.exclusive lower, value)).1 =
      setField s.1 (Schema.inclusive lower) (finiteNumber p m) := by
    rw [step, outcome_exclusive hmove htype hn hsafe, hm]
    rfl
  have hfinite := finiteNumber_integer (p := p) hmsafe
  rw [hstep]
  refine ⟨fun v hv => ?_, fun x => ?_⟩
  · rw [lookup_setField, if_pos rfl] at hv
    obtain rfl := Option.some.inj hv
    exact ⟨m, hfinite, hmsafe⟩
  · rw [lookup_setField, if_pos rfl, Option.bind_some, hfinite]
    have hmeans : Holds lower m x ↔ ∀ g ∈ done ++ [(Schema.exclusive lower, value)], Says p lower input g x := by
      rw [hholds x, holds_shifted]
      constructor
      · rintro ⟨hbeyond, hwithin⟩ g -
        refine ⟨fun _ => hwithin, fun _ q hq => ?_⟩
        rw [hlookup, Option.bind_some, hn] at hq
        obtain rfl := Option.some.inj hq
        exact hbeyond
      · intro h
        have hf := h (Schema.exclusive lower, value) (by simp)
        refine ⟨hf.beyond rfl n ?_, hf.within (.inr rfl)⟩
        rw [hlookup, Option.bind_some, hn]
    rw [← hmeans]
    simp

/-- An inclusive bound adds what it says. -/
lemma Tracks.inclusive {s : Fields × List String} (h : Tracks p lower input s.1 done)
    (hnodup : (input.map Prod.fst).Nodup) (hbounds : IntegerBounds p input)
    (hmove : options.moveNumericConstraintsToDescription = false)
    (hf : (inclusive lower, value) ∈ input) :
    Tracks p lower input (step p convert options input s (inclusive lower, value)).1
      (done ++ [(inclusive lower, value)]) := by
  have hlookup := lookup_of_mem hnodup hf
  obtain ⟨n, hn, hsafe⟩ := hbounds.inclusive lower value hlookup
  have hmeans : ∀ x : Int, Says p lower input (Schema.inclusive lower, value) x ↔ Holds lower n x := by
    intro x
    constructor
    · intro h
      refine h.within (.inl rfl) n ?_
      rw [hlookup, Option.bind_some, hn]
    · intro h
      refine ⟨fun _ q hq => ?_, fun hkey => absurd hkey (inclusive_ne_exclusive lower lower)⟩
      rw [hlookup, Option.bind_some, hn] at hq
      exact Option.some.inj hq ▸ h
  obtain ⟨v, houtcome, hv⟩ := @outcome_inclusive p convert options lower input s.1 value n hmove hn
  have hstep : (step p convert options input s (Schema.inclusive lower, value)).1 =
      setField s.1 (Schema.inclusive lower) v := by
    rw [step, houtcome]
    rfl
  -- the new bound is an integer, and says what the old one and this one say
  obtain ⟨m, hm, hmsafe, hholds⟩ : ∃ m : Int, asF64 p v = some (m : Rat) ∧ |m| ≤ maxSafe ∧
      ∀ x : Int, Holds lower m x ↔
        (∀ q, (s.1.lookup (Schema.inclusive lower)).bind (asF64 p) = some q → Holds lower q x) ∧
          Holds lower n x := by
    cases hold : (s.1.lookup (Schema.inclusive lower)).bind (asF64 p) with
    | none =>
      rw [hold] at hv
      obtain rfl : v = value := hv
      exact ⟨n, hn, hsafe, fun x => by simp⟩
    | some old =>
      rw [hold] at hv
      obtain rfl : v = finiteNumber p (tighter lower old n) := hv
      obtain ⟨w, hw, hasF64⟩ := Option.bind_eq_some_iff.mp hold
      obtain ⟨k, hk, hksafe⟩ := h.integer w hw
      obtain rfl := Option.some.inj (hasF64.symm.trans hk)
      have htells : ∀ x : Int, Holds lower (tighter lower (k : Rat) n) x ↔
          (∀ q, some (k : Rat) = some q → Holds lower q x) ∧ Holds lower n x := by
        intro x
        rw [holds_tighter]
        simp
      rcases tighter_cases lower (k : Rat) (n : Rat) with h | h
      · exact ⟨k, by rw [h]; exact finiteNumber_integer hksafe, hksafe, fun x => by rw [← htells x, h]⟩
      · exact ⟨n, by rw [h]; exact finiteNumber_integer hsafe, hsafe, fun x => by rw [← htells x, h]⟩
  rw [hstep]
  refine ⟨fun w hw => ?_, fun x => ?_⟩
  · rw [lookup_setField, if_pos rfl] at hw
    obtain rfl := Option.some.inj hw
    exact ⟨m, hm, hmsafe⟩
  · have hbound : (∀ q, ((setField s.1 (Schema.inclusive lower) v).lookup (Schema.inclusive lower)).bind
        (asF64 p) = some q → Holds lower q x) ↔ Holds lower m x := by
      rw [lookup_setField, if_pos rfl, Option.bind_some, hm]
      simp
    rw [hbound, hholds x, h.tells x, List.forall_mem_append, ← hmeans x]
    refine and_congr_right fun _ => ⟨fun h g hg => ?_, fun h => h _ List.mem_cons_self⟩
    rw [List.mem_singleton.mp hg]
    exact h

/-- A bound of the result is tracked over one field. -/
lemma Tracks.step {s : Fields × List String} (h : Tracks p lower input s.1 done)
    (hnodup : (input.map Prod.fst).Nodup) (hbounds : IntegerBounds p input)
    (hmove : options.moveNumericConstraintsToDescription = false)
    (htype : p.uppercase (string p (index (.object input) "type")) = "INTEGER") (hf : f ∈ input) :
    Tracks p lower input (step p convert options input s f).1 (done ++ [f]) := by
  obtain ⟨key, value⟩ := f
  by_cases hinclusive : key = Schema.inclusive lower
  · subst hinclusive
    exact h.inclusive hnodup hbounds hmove hf
  · by_cases hexclusive : key = Schema.exclusive lower
    · subst hexclusive
      exact .exclusive hnodup hbounds hmove htype hf s
    · apply h.append_of_lookup _ fun x => .of_ne hinclusive hexclusive
      rw [Schema.step]
      cases houtcome : outcome p convert options input s.1 key value with
      | mk hints assigned =>
        cases assigned with
        | none => rfl
        | some g =>
          have hne := (becomes_of_outcome houtcome).key_ne hinclusive hexclusive
          exact (lookup_setField s.1 g.1 _ g.2).trans (if_neg hne.symm)

/-- A bound of the result says what the fields of the merged schema say. -/
lemma tracks_collect (hnodup : (input.map Prod.fst).Nodup) (hbounds : IntegerBounds p input)
    (hmove : options.moveNumericConstraintsToDescription = false)
    (htype : p.uppercase (string p (index (.object input) "type")) = "INTEGER") (hints : List String) :
    Tracks p lower input (collect p convert options input hints).1 (Script.entries input) := by
  have hrun : ∀ fields : Fields, (∀ f ∈ fields, f ∈ input) →
      Tracks p lower input (fields.foldl (Schema.step p convert options input) ([], hints)).1 fields := by
    intro fields hfields
    induction fields using List.reverseRecOn with
    | nil => exact ⟨fun v hv => (nomatch hv), fun x => by simp⟩
    | append_singleton fields f ih =>
      rw [List.foldl_append, List.foldl_cons, List.foldl_nil]
      exact (ih fun g hg => hfields g (List.mem_append_left _ hg)).step hnodup hbounds hmove htype
        (hfields f (by simp))
  exact hrun _ fun f hf => (Script.entries_perm input).mem_iff.mp hf

/-! ### Bounds of the rewritten schema -/

lemma lookup_extend {more : Fields} (h : more.lookup key = none) :
    (extend fields more).lookup key = fields.lookup key := by
  induction more generalizing fields with
  | nil => rfl
  | cons g more ih =>
    obtain ⟨name, v⟩ := g
    rw [List.lookup_cons] at h
    by_cases hkey : key = name
    · rw [hkey, beq_self_eq_true] at h
      cases h
    · rw [beq_false_of_ne hkey] at h
      rw [extend, List.foldl_cons]
      exact (ih h).trans ((lookup_setField fields name key v).trans (if_neg hkey))

lemma lookup_narrow {base selected : Fields} (hselected : selected.lookup key = none)
    (hkey : key ≠ "description") : (narrow base selected).lookup key = base.lookup key := by
  rw [narrow]
  split
  · exact lookup_extend hselected
  · rw [lookup_setField, if_neg hkey]
    exact lookup_extend hselected

lemma bound_ne (lower : Bool) : inclusive lower ≠ "description" ∧ inclusive lower ≠ "items" ∧
    inclusive lower ≠ "required" ∧ inclusive lower ≠ "type" ∧ inclusive lower ≠ "enum" ∧
    inclusive lower ≠ "anyOf" := by
  cases lower <;> decide

/-- A union is narrowed without a new bound where no branch has one. -/
lemma lookup_flattenUnion (h : ∀ any, fields.lookup "anyOf" = some (.array any) →
    ∀ branch, .object branch ∈ any → branch.lookup (inclusive lower) = none) :
    (flattenUnion p fields).1.lookup (inclusive lower) = fields.lookup (inclusive lower) := by
  obtain ⟨hdescription, -, -, htype, henum, hanyOf⟩ := bound_ne lower
  have hbase : (remove fields "anyOf").lookup (inclusive lower) = fields.lookup (inclusive lower) :=
    lookup_remove_of_ne hanyOf
  rw [flattenUnion]
  split
  · rfl
  · rename_i any hany
    obtain ⟨hbind, -⟩ := Option.filter_eq_some_iff.mp hany
    obtain ⟨v, hlookup, hv⟩ := Option.bind_eq_some_iff.mp hbind
    obtain rfl := asArray_eq_some.mp hv
    dsimp only
    split
    · exact hbase
    · rename_i first rest hbranches
      split
      · show ((setField (setField _ _ _) _ _).lookup _) = _
        rw [lookup_setField, if_neg henum, lookup_setField, if_neg htype, hbase]
      · show ((narrow _ _).lookup _) = _
        have hmem := select_mem (p := p) first rest
        rw [← hbranches] at hmem
        obtain ⟨x, hx, hobject⟩ := List.mem_filterMap.mp hmem
        cases x with
        | object branch =>
          obtain rfl := Option.some.inj hobject
          rw [lookup_narrow (h any hlookup _ hx) hdescription, hbase]
        | null | bool | number | string | array => cases hobject

lemma lookup_restrictRequired (hkey : key ≠ "required") :
    (restrictRequired fields).lookup key = fields.lookup key := by
  rw [restrictRequired]
  split
  · dsimp only
    split
    · exact lookup_remove_of_ne hkey
    · rw [lookup_setField, if_neg hkey]
  · rfl

lemma lookup_addHints (hkey : key ≠ "description") (hints : List String) :
    (addHints fields hints).lookup key = fields.lookup key := by
  rw [addHints]
  split
  · rfl
  · rw [lookup_setField, if_neg hkey]

lemma lookup_addItems (hkey : key ≠ "items") : (addItems fields).lookup key = fields.lookup key := by
  rw [addItems]
  split
  · rw [lookup_setField, if_neg hkey]
  · rfl

/-- The unions of a merged schema. -/
def IsUnion (input : Fields) (xs : List Value) : Prop :=
  input.lookup "anyOf" = some (.array xs) ∨ input.lookup "oneOf" = some (.array xs)

/-- No branch of a union that is narrowed has a bound. -/
def UnionsUnbounded (convert : Value → Value) (options : Options) (input : Fields) : Prop :=
  options.claudeValidated = true → ∀ xs, IsUnion input xs → ∀ x ∈ xs, ∀ branch,
    convert x = .object branch → ∀ lower, branch.lookup (inclusive lower) = none

lemma union_of_collect (hnodup : (input.map Prod.fst).Nodup) {ys : List Value}
    (h : (collect p convert options input hints).1.lookup "anyOf" = some (.array ys)) :
    ∃ xs, IsUnion input xs ∧ ys = xs.map convert := by
  obtain ⟨⟨key, value⟩, hg, hbecomes⟩ := (collect_becomes input hints).1 _ (Assoc.mem_of_lookup h)
  have hlookup := lookup_of_mem hnodup hg
  generalize hkey' : ("anyOf", Value.array ys).1 = key' at hbecomes
  generalize hvalue' : ("anyOf", Value.array ys).2 = value' at hbecomes
  cases hbecomes with
  | @union xs hkey hvalue =>
    refine ⟨xs, ?_, Value.array.inj hvalue'⟩
    obtain rfl : value = .array xs := hvalue
    rcases hkey with rfl | rfl
    · exact .inr hlookup
    · exact .inl hlookup
  | @bound lower => exact absurd hkey'.symm (bound_ne lower).2.2.2.2.2
  | other _ _ _ _ _ hunion =>
    obtain rfl : Value.array ys = value := hvalue'
    cases hunion hkey'.symm
  | constant | type | untyped | properties | items | required =>
    exact absurd (show "anyOf" = _ from hkey') (by decide)

/-- The bounds of a rewritten schema are those that were collected. -/
lemma lookup_convertObject (hnodup : (fields.map Prod.fst).Nodup)
    (hunions : UnionsUnbounded convert options (mergeAllOf p fields).1) :
    (convertObject p convert options fields).lookup (inclusive lower) =
      (collect p convert options (mergeAllOf p fields).1 (mergeAllOf p fields).2).1.lookup
        (inclusive lower) := by
  obtain ⟨hdescription, hitems, hrequired, -⟩ := bound_ne lower
  rw [convertObject]
  dsimp only
  rw [lookup_addItems hitems, lookup_addHints hdescription]
  cases hclaude : options.claudeValidated with
  | false => rfl
  | true =>
    show (restrictRequired _).lookup _ = _
    rw [lookup_restrictRequired hrequired]
    apply lookup_flattenUnion
    intro any hany branch hbranch
    obtain ⟨xs, hxs, rfl⟩ := union_of_collect (drawn_mergeAllOf hnodup).nodup hany
    obtain ⟨x, hx, hconvert⟩ := List.mem_map.mp hbranch
    exact hunions hclaude xs hxs x hx branch hconvert lower

lemma tells_all_iff {x : Rat} : (∀ lower, ∀ f ∈ input, Says p lower input f x) ↔ Satisfies p input x := by
  constructor
  · intro h
    refine ⟨fun lower q hq => ?_, fun lower q hq => ?_⟩
    · obtain ⟨v, hv, -⟩ := Option.bind_eq_some_iff.mp hq
      exact (h lower _ (Assoc.mem_of_lookup hv)).within (.inl rfl) q hq
    · obtain ⟨v, hv, -⟩ := Option.bind_eq_some_iff.mp hq
      exact (h lower _ (Assoc.mem_of_lookup hv)).beyond rfl q hq
  · exact fun h lower f _ => ⟨fun _ => h.inclusive lower, fun _ => h.exclusive lower⟩

/-- An integer is within the bounds of a rewritten schema just where it is within those of the merged
one. -/
lemma satisfies_convertObject (hnodup : (fields.map Prod.fst).Nodup)
    (hallowed : ∀ f ∈ convertObject p convert options fields, allowed f.1 = true)
    (hbounds : IntegerBounds p (mergeAllOf p fields).1)
    (hmove : options.moveNumericConstraintsToDescription = false)
    (htype : p.uppercase (string p (index (.object (mergeAllOf p fields).1) "type")) = "INTEGER")
    (hunions : UnionsUnbounded convert options (mergeAllOf p fields).1) (x : Int) :
    Satisfies p (convertObject p convert options fields) x ↔ Satisfies p (mergeAllOf p fields).1 x := by
  have htracks := fun lower => @tracks_collect p convert options lower (mergeAllOf p fields).1
    (drawn_mergeAllOf hnodup).nodup hbounds hmove htype (mergeAllOf p fields).2
  have hmem : ∀ f, f ∈ Script.entries (mergeAllOf p fields).1 ↔ f ∈ (mergeAllOf p fields).1 := fun f =>
    (Script.entries_perm _).mem_iff
  have hside : ∀ lower, (∀ q, ((convertObject p convert options fields).lookup (inclusive lower)).bind
      (asF64 p) = some q → Holds lower q x) ↔
      ∀ f ∈ (mergeAllOf p fields).1, Says p lower (mergeAllOf p fields).1 f x := by
    intro lower
    rw [lookup_convertObject hnodup hunions, (htracks lower).tells x]
    simp only [hmem]
  rw [← @tells_all_iff p (mergeAllOf p fields).1]
  constructor
  · exact fun h lower => (hside lower).mp (h.inclusive lower)
  · refine fun h => ⟨fun lower => (hside lower).mpr (h lower), fun lower q hq => ?_⟩
    obtain ⟨v, hv, -⟩ := Option.bind_eq_some_iff.mp hq
    have hfalse := hallowed _ (Assoc.mem_of_lookup hv)
    cases lower <;> cases hfalse

/-- Every object that is reached from a rewritten schema is in the subset, and the bounds of a merged
schema of an integer say the same after it. -/
theorem toGeminiSchema_in_subset (p : Platform) (options : Options) (schema : Fields)
    (hproper : (Value.object schema).Proper fun _ => True) :
    ∃ out, toGeminiSchema p options (.object schema) = .object out ∧
      (∀ node, Reaches (.object out) node → InSubset p options node) ∧
      let input := (mergeAllOf p schema).1
      (IntegerBounds p input → options.moveNumericConstraintsToDescription = false →
        (∃ s, input.lookup "type" = some (.string s) ∧ p.uppercase s = "INTEGER") →
        UnionsUnbounded (toGeminiSchema p options) options input →
        ∀ x : Int, Satisfies p out x ↔ Satisfies p input x) := by
  have hout : toGeminiSchema p options (.object schema) =
      .object (convertObject p (toGeminiSchema p options) options schema) := toGeminiSchema_object hproper.1
  have hconverted : Converted p options (toGeminiSchema p options (.object schema)) :=
    converted_toGeminiSchema hproper
  rw [hout] at hconverted
  refine ⟨_, hout, hconverted, fun hbounds hmove htype hunions x => ?_⟩
  obtain ⟨s, hs, hupper⟩ := htype
  apply satisfies_convertObject hproper.1 _ hbounds hmove _ hunions
  · exact fun f hf => ((hconverted _ (.here _)).fields f hf).allowed
  · rw [index, get_object, hs]
    exact hupper

/-! ### Schemas of numbers and of names -/

def plainUpper (c : Char) : Char := if c.toNat < 128 then c.toUpper else c

lemma plainUpper_plainUpper (c : Char) : plainUpper (plainUpper c) = plainUpper c := by
  have hsmall : ∀ n < 128, plainUpper (plainUpper (Char.ofNat n)) = plainUpper (Char.ofNat n) := by
    decide +kernel
  by_cases hc : c.toNat < 128
  · rw [← Char.ofNat_toNat c]
    exact hsmall _ hc
  · have hupper : plainUpper c = c := if_neg hc
    rw [hupper, hupper]

/-- Letters without accents, and no doubles. -/
def plainPlatform : Platform where
  toUppercase c := (plainUpper c).toString
  toLowercase s := s.map Char.toLower
  double _ := 0
  text x := toString x.num
  script s := s
  uppercase_ascii c hc := by rw [plainUpper, if_pos hc]
  uppercase_stable c d hd := by
    obtain rfl : d = plainUpper c := by simpa using hd
    rw [plainUpper_plainUpper]

def digit : Fields :=
  [("type", .string "integer"), ("minimum", .number (.posInt 0)),
    ("exclusiveMaximum", .number (.posInt 10))]

theorem toGeminiSchema_in_subset_digit : ∃ out,
    toGeminiSchema plainPlatform ⟨false, false⟩ (.object digit) = .object out ∧
      ∀ x : Int, Satisfies plainPlatform out x ↔ Satisfies plainPlatform digit x := by
  have hproper : (Value.object digit).Proper fun _ => True := ⟨by decide, by simp [digit, ProperFields, Proper]⟩
  obtain ⟨out, hout, -, hsame⟩ := toGeminiSchema_in_subset plainPlatform ⟨false, false⟩ digit hproper
  refine ⟨out, hout, hsame ⟨fun lower v hv => ?_, fun lower v hv => ?_⟩ rfl
    ⟨"integer", rfl, by decide +kernel⟩ fun hclaude => absurd hclaude (by decide)⟩
  · cases lower
    · cases hv
    · obtain rfl : Value.number (.posInt 0) = v := Option.some.inj hv
      exact ⟨0, by decide +kernel, by decide⟩
  · cases lower
    · obtain rfl : Value.number (.posInt 10) = v := Option.some.inj hv
      exact ⟨10, by decide +kernel, by decide, by decide +kernel⟩
    · cases hv

/-- A name stays required where there is no property at all, and an exclusive bound whose shifted one
has 54 bits is lost. -/
theorem names_and_bounds_lost :
    (∃ out, toGeminiSchema plainPlatform ⟨false, false⟩ (.object
        [("properties", .object []), ("required", .array [.string "path"])]) = .object out ∧
      out.lookup "properties" = some (.object []) ∧
      out.lookup "required" = some (.array [.string "path"])) ∧
    ∃ out, toGeminiSchema plainPlatform ⟨false, false⟩ (.object
        [("type", .string "integer"), ("exclusiveMinimum", .number (.posInt 9007199254740991))]) =
          .object out ∧ Satisfies plainPlatform out 0 ∧ ¬Satisfies plainPlatform
        [("type", .string "integer"), ("exclusiveMinimum", .number (.posInt 9007199254740991))] 0 := by
  refine ⟨⟨_, toGeminiSchema_object (by decide), by rfl, by rfl⟩, _, toGeminiSchema_object (by decide), ?_, ?_⟩
  · have hinclusive : ∀ lower, (convertObject plainPlatform (toGeminiSchema plainPlatform ⟨false, false⟩)
        ⟨false, false⟩ [("type", .string "integer"),
          ("exclusiveMinimum", .number (.posInt 9007199254740991))]).lookup (inclusive lower) = none := by
      intro lower
      cases lower <;> rfl
    have hexclusive : ∀ lower, (convertObject plainPlatform (toGeminiSchema plainPlatform ⟨false, false⟩)
        ⟨false, false⟩ [("type", .string "integer"),
          ("exclusiveMinimum", .number (.posInt 9007199254740991))]).lookup (exclusive lower) = none := by
      intro lower
      cases lower <;> rfl
    refine ⟨fun lower q hq => ?_, fun lower q hq => ?_⟩
    · rw [hinclusive] at hq
      cases hq
    · rw [hexclusive] at hq
      cases hq
  · intro h
    have hbound : (9007199254740991 : Rat) ≤ 0 := (h.exclusive true 9007199254740991 (by decide +kernel)).1
    exact absurd hbound (by decide +kernel)

end Antigravity.Schema
