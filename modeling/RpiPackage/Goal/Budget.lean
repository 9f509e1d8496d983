import Mathlib.Algebra.GroupWithZero.Nat
import RpiPackage.Goal.State
import RpiPackage.Lib.Json

/-!
# Budgets

How the budgets of a goal are given: as numbers of turns and minutes to the tool, and as a duration
to the command. A duration is a number of minutes, or a sequence of numbers with their units.
-/

namespace GoalState

open Json Result

/-! ### Durations -/

/-- Of the letters that are not ASCII only those whose lower case is matter, and no unit is. -/
def lowercase (cs : List Char) : List Char := cs.map Char.toLower

def unitMs (c : Char) : Except String Int64 :=
  match c with
  | 's' => .ok 1000
  | 'm' => .ok 60000
  | 'h' => .ok 3600000
  | 'd' => .ok 86400000
  | c => .error ("unknown duration unit `" ++ c.toString ++ "` (use s/m/h/d)")

/-- The rest of a duration, behind what has been added up and the digits of a number. -/
def durationFrom (spec : String) (total : Int64) (number : List Char) (sawUnit : Bool) :
    List Char → Except String Int64
  | [] => do
    failIf (number ≠ []) ("duration `" ++ spec ++ "` is missing a unit (s/m/h/d)")
    failIf (sawUnit = false) ("invalid duration `" ++ spec ++ "`")
    return total
  | c :: cs =>
    if c.isDigit then durationFrom spec total (number ++ [c]) sawUnit cs
    else do
      let unit ← unitMs c
      let value ← okOr (Rust.parseI64 number) ("invalid duration `" ++ spec ++ "`")
      durationFrom spec (Rust.saturatingAdd total (Rust.saturatingMul value unit)) [] true cs

def parseDurationMs (spec : String) : Except String Int64 := do
  let spec := String.ofList (lowercase (Rust.trimChars spec.toList))
  failIf (spec = "") "empty duration"
  match Rust.parseI64 spec.toList with
  | some minutes => return Rust.saturatingMul minutes 60000
  | none => durationFrom spec 0 [] false spec.toList

/-! ### Parameters -/

def paramU32 (params : Value) (key : String) : Option UInt32 :=
  ((params.get key).bind Value.asU64).map UInt64.toUInt32

/-- The goal that the parameters ask for, at the time at which its deadline is worked out. -/
def startGoal (params : Value) (now : Int64) : Except String Operation := do
  let title ← okOr ((params.get "title").bind Value.asStr) "goal title is required"
  let notes := ((params.get "notes").bind Value.asStr).getD ""
  let maxTurns := (paramU32 params "maxTurns").filter fun n => decide (0 < n)
  let deadlineMs := ((paramU32 params "maxMinutes").filter fun n => decide (0 < n)).map
    fun minutes => Rust.saturatingAdd now (Int64.ofNat minutes.toNat * 60000)
  return .start title notes maxTurns deadlineMs

def limitGoal (params : Value) : Except String Operation := do
  let maxTurns := ((params.get "maxTurns").bind Value.asU64).map fun v => max v.toUInt32 1
  let maxMinutes := ((params.get "maxMinutes").bind Value.asU64).map fun v => v.toInt64 * 60000
  failIf (maxTurns = none ∧ maxMinutes = none) "limit requires `maxTurns` and/or `maxMinutes`"
  return .setLimits (maxTurns.map some) (maxMinutes.map some)

/-- The command `time`, where nothing at all clears the deadline. -/
def timeCommand (spec : String) : Except String Operation := do
  let ms ← parseDurationMs spec
  return .setLimits none (some (if ms = 0 then none else some ms))

/-- An operation from its call to the goals that it writes. -/
def Operation.result (op : Operation) (now : Int64) (goals : Goals) :
    Except String (Goals × Goal) :=
  op.admitted >>= fun op => op.perform now goals

/-! ### What a duration says -/

/-- A number with its unit. -/
structure Term where
  digits : List Char
  unit : Char

namespace Term

def text (t : Term) : List Char := t.digits ++ [t.unit]

def units : List (Char × Nat) := [('s', 1000), ('m', 60000), ('h', 3600000), ('d', 86400000)]

def ms (t : Term) : Nat := Nat.ofDigitChars 10 t.digits 0 * (units.lookup t.unit).getD 0

structure Valid (t : Term) : Prop where
  nonempty : t.digits ≠ []
  digits : ∀ c ∈ t.digits, c.isDigit = true
  small : Nat.ofDigitChars 10 t.digits 0 < 2 ^ 63
  unit : ∃ n, (t.unit, n) ∈ units

end Term

/-- What an accepted duration is, and how long it takes at most. -/
def Denotes (cs : List Char) (ms : Int) : Prop :=
  (∃ minutes : Int64, Rust.IsInteger cs minutes.toInt ∧
      ms = Rust.clamp64 (minutes.toInt * 60000)) ∨
    ∃ terms : List Term, terms ≠ [] ∧ (∀ t ∈ terms, t.Valid) ∧ cs = terms.flatMap Term.text ∧
      ms = min (((terms.map Term.ms).sum : Nat) : Int) (2 ^ 63 - 1)

section

variable {spec : String} {total unit r : Int64} {number cs : List Char} {sawUnit : Bool}

lemma unitMs_eq_ok {c : Char} :
    unitMs c = .ok unit ↔ ∃ n, (c, n) ∈ Term.units ∧ unit = Int64.ofNat n := by
  unfold unitMs Term.units
  split <;> simp_all [eq_comm]

lemma lookup_of_mem_units {c : Char} {n : Nat} (h : (c, n) ∈ Term.units) :
    (Term.units.lookup c).getD 0 = n := by
  simp only [Term.units, List.mem_cons, List.not_mem_nil, or_false, Prod.mk.injEq] at h
  rcases h with ⟨rfl, rfl⟩ | ⟨rfl, rfl⟩ | ⟨rfl, rfl⟩ | ⟨rfl, rfl⟩ <;> rfl

lemma isDigit_of_mem_units {c : Char} {n : Nat} (h : (c, n) ∈ Term.units) : c.isDigit = false := by
  simp only [Term.units, List.mem_cons, List.not_mem_nil, or_false, Prod.mk.injEq] at h
  rcases h with ⟨rfl, -⟩ | ⟨rfl, -⟩ | ⟨rfl, -⟩ | ⟨rfl, -⟩ <;> decide

lemma Term.Valid.isDigit_unit {t : Term} (h : t.Valid) : t.unit.isDigit = false := by
  obtain ⟨n, hn⟩ := h.unit
  exact isDigit_of_mem_units hn

lemma takeWhile_isDigit {c : Char} (h : ∀ d ∈ number, d.isDigit = true) (hc : c.isDigit = false)
    (cs : List Char) : (number ++ c :: cs).takeWhile Char.isDigit = number := by
  rw [List.takeWhile_append_of_pos h, List.takeWhile_cons_of_neg (by rw [hc]; exact Bool.false_ne_true),
    List.append_nil]

/-- Digits and the character behind them can be told from a text. -/
lemma digits_inj {digits : List Char} {c d : Char} {ds : List Char}
    (hnumber : ∀ d ∈ number, d.isDigit = true) (hc : c.isDigit = false)
    (hdigits : ∀ d ∈ digits, d.isDigit = true) (hd : d.isDigit = false)
    (h : number ++ c :: cs = digits ++ d :: ds) : number = digits ∧ c = d ∧ cs = ds := by
  have hsame : number = digits := by
    rw [← takeWhile_isDigit hnumber hc cs, h, takeWhile_isDigit hdigits hd]
  obtain ⟨hunit, hrest⟩ := List.cons.inj (List.append_cancel_left (hsame ▸ h))
  exact ⟨hsame, hunit, hrest⟩

lemma parseI64_of_digits (h : ∀ c ∈ number, c.isDigit = true) :
    Rust.parseI64 number = some r ↔
      number ≠ [] ∧ r.toInt = Nat.ofDigitChars 10 number 0 := by
  rw [Rust.parseI64_eq_some]
  constructor
  · rintro ⟨digits, hne, hdigits, ⟨rfl, -⟩ | ⟨rfl | rfl, hr⟩⟩
    · exact absurd (h '-' List.mem_cons_self) (by decide)
    · exact absurd (h '+' List.mem_cons_self) (by decide)
    · exact ⟨hne, hr⟩
  · rintro ⟨hne, hr⟩
    exact ⟨number, hne, h, .inr ⟨.inr rfl, hr⟩⟩

/-- What a term adds. -/
def Term.added (total : Int64) (t : Term) : Int64 :=
  Rust.saturatingAdd total (Rust.saturatingMul (Int64.ofNat (Nat.ofDigitChars 10 t.digits 0))
    (Int64.ofNat ((Term.units.lookup t.unit).getD 0)))

lemma durationFrom_unit {c : Char} (h : ∀ c ∈ number, c.isDigit = true) (hc : c.isDigit = false) :
    durationFrom spec total number sawUnit (c :: cs) = .ok r ↔
      (⟨number, c⟩ : Term).Valid ∧
        durationFrom spec (Term.added total ⟨number, c⟩) [] true cs = .ok r := by
  rw [durationFrom, if_neg (by rw [hc]; exact Bool.false_ne_true), bind_eq_ok]
  constructor
  · rintro ⟨unit, hunit, hrest⟩
    obtain ⟨value, hvalue, hrest⟩ := bind_eq_ok.mp hrest
    obtain ⟨hne, hdigits⟩ := (parseI64_of_digits h).mp (okOr_eq_ok.mp hvalue)
    obtain ⟨n, hn, rfl⟩ := unitMs_eq_ok.mp hunit
    have hlt := value.toInt_lt
    have hsmall : Nat.ofDigitChars 10 number 0 < 2 ^ 63 := by omega
    refine ⟨⟨hne, h, hsmall, ⟨n, hn⟩⟩, ?_⟩
    have hvalue : value = Int64.ofNat (Nat.ofDigitChars 10 number 0) := by
      rw [← Int64.toInt_inj, Int64.toInt_ofNat_of_lt hsmall, hdigits]
    rw [Term.added, lookup_of_mem_units hn, ← hvalue]
    exact hrest
  · rintro ⟨hvalid, hrest⟩
    obtain ⟨n, hn⟩ := hvalid.unit
    refine ⟨Int64.ofNat n, unitMs_eq_ok.mpr ⟨n, hn, rfl⟩, ?_⟩
    refine bind_eq_ok.mpr ⟨Int64.ofNat (Nat.ofDigitChars 10 number 0),
      okOr_eq_ok.mpr ((parseI64_of_digits h).mpr
        ⟨hvalid.nonempty, Int64.toInt_ofNat_of_lt hvalid.small⟩), ?_⟩
    rw [Term.added, lookup_of_mem_units hn] at hrest
    exact hrest

/-- The rest of a duration is accepted if it completes the number before it to terms. -/
lemma durationFrom_eq_ok (h : ∀ c ∈ number, c.isDigit = true) :
    durationFrom spec total number sawUnit cs = .ok r ↔
      ∃ terms : List Term, (∀ t ∈ terms, t.Valid) ∧ number ++ cs = terms.flatMap Term.text ∧
        (terms = [] → sawUnit = true) ∧ r = terms.foldl Term.added total := by
  induction cs generalizing total number sawUnit with
  | nil =>
    rw [durationFrom, check_bind_eq_ok, check_bind_eq_ok, failIf_eq_ok, failIf_eq_ok, pure_eq_ok,
      not_not, Bool.not_eq_false, Except.ok.injEq, List.append_nil]
    constructor
    · rintro ⟨rfl, hsaw, rfl⟩
      exact ⟨[], by simp, rfl, fun _ => hsaw, rfl⟩
    · rintro ⟨terms, hvalid, htext, hsaw, rfl⟩
      cases terms with
      | nil => exact ⟨htext, hsaw rfl, rfl⟩
      | cons t terms =>
        have hunit : t.unit ∈ number := by
          rw [htext]
          simp [Term.text]
        exact absurd (h _ hunit) (by
          rw [(hvalid t List.mem_cons_self).isDigit_unit]; exact Bool.false_ne_true)
  | cons c cs ih =>
    by_cases hc : c.isDigit = true
    · have hnumber : ∀ d ∈ number ++ [c], d.isDigit = true := by
        intro d hd
        rcases List.mem_append.mp hd with hd | hd
        · exact h d hd
        · exact List.mem_singleton.mp hd ▸ hc
      rw [durationFrom, if_pos hc, ih hnumber, List.append_assoc, List.singleton_append]
    · rw [Bool.not_eq_true] at hc
      rw [durationFrom_unit h hc, ih (by simp)]
      constructor
      · rintro ⟨hvalid, terms, hterms, htext, -, rfl⟩
        refine ⟨⟨number, c⟩ :: terms, ?_, ?_, by simp, rfl⟩
        · intro t ht
          rcases List.mem_cons.mp ht with rfl | ht
          · exact hvalid
          · exact hterms t ht
        · rw [List.flatMap_cons, ← htext]
          simp [Term.text]
      · rintro ⟨terms, hterms, htext, -, rfl⟩
        cases terms with
        | nil => simp at htext
        | cons t terms =>
          have hvalid := hterms t List.mem_cons_self
          rw [List.flatMap_cons, Term.text, List.append_assoc, List.singleton_append] at htext
          obtain ⟨rfl, rfl, hrest⟩ := digits_inj h hc hvalid.digits hvalid.isDigit_unit htext
          exact ⟨hvalid, terms, fun t ht => hterms t (List.mem_cons_of_mem _ ht), hrest,
            fun _ => rfl, rfl⟩

/-! ### How long it takes -/

lemma Term.toInt_added {t : Term} (ht : t.Valid) {n : Nat}
    (htotal : total.toInt = min (n : Int) (2 ^ 63 - 1)) :
    (Term.added total t).toInt = min ((n + t.ms : Nat) : Int) (2 ^ 63 - 1) := by
  obtain ⟨unit, hunit⟩ := ht.unit
  have hlookup := lookup_of_mem_units hunit
  have hsmall : unit < 2 ^ 63 := by
    revert hunit
    simp only [Term.units, List.mem_cons, List.not_mem_nil, or_false, Prod.mk.injEq]
    omega
  unfold Term.added Term.ms
  rw [Rust.toInt_saturatingAdd, Rust.toInt_saturatingMul, hlookup,
    Int64.toInt_ofNat_of_lt ht.small, Int64.toInt_ofNat_of_lt hsmall, htotal]
  unfold Rust.clamp64
  have hpos : 0 ≤ (Nat.ofDigitChars 10 t.digits 0 : Int) * unit :=
    Int.mul_nonneg (Int.natCast_nonneg _) (Int.natCast_nonneg _)
  push_cast
  omega

lemma toInt_foldl_added {terms : List Term} (h : ∀ t ∈ terms, t.Valid) {n : Nat}
    (htotal : total.toInt = min (n : Int) (2 ^ 63 - 1)) :
    (terms.foldl Term.added total).toInt =
      min ((n + (terms.map Term.ms).sum : Nat) : Int) (2 ^ 63 - 1) := by
  induction terms generalizing total n with
  | nil => exact htotal
  | cons t terms ih =>
    rw [List.foldl_cons, List.map_cons, List.sum_cons, ← Nat.add_assoc]
    exact ih (fun t ht => h t (List.mem_cons_of_mem _ ht))
      (Term.toInt_added (h t List.mem_cons_self) htotal)

lemma getLast_isInteger {n : Int} (h : Rust.IsInteger cs n) :
    ∃ c, cs.getLast? = some c ∧ c.isDigit = true := by
  obtain ⟨digits, hne, hdigits, hcs⟩ := h
  obtain ⟨digits, c, rfl⟩ := (List.eq_nil_or_concat' digits).resolve_left hne
  refine ⟨c, ?_, hdigits c (by simp)⟩
  rcases hcs with ⟨rfl, -⟩ | ⟨rfl | rfl, -⟩
  · simp [List.getLast?_cons]
  · simp [List.getLast?_cons]
  · simp

/-- A sequence of terms ends with a unit, and so it is no number. -/
lemma not_isInteger_terms {terms : List Term} (hne : terms ≠ []) (h : ∀ t ∈ terms, t.Valid) (n : Int) :
    ¬Rust.IsInteger (terms.flatMap Term.text) n := by
  intro hinteger
  obtain ⟨c, hlast, hdigit⟩ := getLast_isInteger hinteger
  obtain ⟨terms, t, rfl⟩ := (List.eq_nil_or_concat' terms).resolve_left hne
  have hunit : c = t.unit := by
    simpa [Term.text, eq_comm] using hlast
  rw [hunit, (h t (by simp)).isDigit_unit] at hdigit
  exact absurd hdigit Bool.false_ne_true

/-- A duration is accepted exactly if it is a signed number of minutes or a sequence of numbers
with units, and it takes as long as it says, as far as that can be held. -/
lemma parseDurationMs_eq_ok {ms : Int64} :
    parseDurationMs spec = .ok ms ↔
      Denotes (lowercase (Rust.trimChars spec.toList)) ms.toInt := by
  have hzero : (0 : Int64).toInt = min ((0 : Nat) : Int) (2 ^ 63 - 1) := rfl
  unfold parseDurationMs
  dsimp only
  generalize lowercase (Rust.trimChars spec.toList) = cs
  rw [check_bind_eq_ok, failIf_eq_ok, String.toList_ofList]
  cases hminutes : Rust.parseI64 cs with
  | some minutes =>
    have hinteger := Rust.parseI64_eq_some.mp hminutes
    constructor
    · rintro ⟨-, hms⟩
      obtain rfl := Except.ok.inj hms
      exact .inl ⟨minutes, hinteger, Rust.toInt_saturatingMul minutes 60000⟩
    · intro hdenotes
      rcases hdenotes with ⟨minutes', hinteger', hms⟩ | ⟨terms, hne, hterms, rfl, hms⟩
      · have hsame := Rust.parseI64_eq_some.mpr hinteger'
        rw [hminutes, Option.some.injEq] at hsame
        obtain rfl := hsame
        obtain ⟨c, hlast, -⟩ := getLast_isInteger hinteger
        refine ⟨?_, congrArg Except.ok ?_⟩
        · intro hempty
          rw [String.ofList_eq_empty_iff] at hempty
          rw [hempty] at hlast
          cases hlast
        · rw [← Int64.toInt_inj, Rust.toInt_saturatingMul, hms]
          rfl
      · exact absurd hinteger (not_isInteger_terms hne hterms _)
  | none =>
    dsimp only
    rw [durationFrom_eq_ok (by simp), List.nil_append]
    constructor
    · rintro ⟨-, terms, hterms, htext, hne, rfl⟩
      refine .inr ⟨terms, fun h => Bool.false_ne_true (hne h), hterms, htext, ?_⟩
      rw [toInt_foldl_added hterms hzero, Nat.zero_add]
    · intro hdenotes
      rcases hdenotes with ⟨minutes, hinteger, -⟩ | ⟨terms, hne, hterms, htext, hms⟩
      · rw [Rust.parseI64_eq_some.mpr hinteger] at hminutes
        cases hminutes
      · refine ⟨?_, terms, hterms, htext, fun h => absurd h hne, ?_⟩
        · intro hempty
          rw [String.ofList_eq_empty_iff] at hempty
          obtain ⟨t, ht⟩ := List.exists_mem_of_ne_nil terms hne
          rw [hempty, eq_comm, List.flatMap_eq_nil_iff] at htext
          exact absurd (htext t ht) (by simp [Term.text])
        · rw [← Int64.toInt_inj, toInt_foldl_added hterms hzero, Nat.zero_add, hms]

/-! ### What is stored -/

/-- The number that a parameter gives, if it gives one. -/
def given (params : Value) (key : String) : Option Nat :=
  ((params.get key).bind Value.asU64).map UInt64.toNat

lemma paramU32_eq (params : Value) (key : String) :
    (paramU32 params key).map UInt32.toNat = (given params key).map (· % 2 ^ 32) := by
  unfold paramU32 given
  rw [Option.map_map, Option.map_map]
  rfl

lemma map_filter_pos (o : Option UInt32) :
    (o.filter fun n => decide (0 < n)).map UInt32.toNat =
      (o.map UInt32.toNat).filter fun n => decide (0 < n) := by
  cases o with
  | none => rfl
  | some n =>
    have hiff : 0 < n ↔ 0 < n.toNat := UInt32.lt_iff_toNat_lt
    by_cases h : 0 < n <;> simp [Option.filter, h, hiff.mp, ← hiff]

/-- A number of minutes from now on, or the last moment that can be held. -/
def deadlineIn (now ms : Int) : Int := min (now + ms) (2 ^ 63 - 1)

lemma toInt_deadlineIn {now ms : Int64} (h : 0 ≤ ms.toInt) :
    (Rust.saturatingAdd now ms).toInt = deadlineIn now.toInt ms.toInt := by
  have hge := now.le_toInt
  rw [Rust.toInt_saturatingAdd]
  unfold Rust.clamp64 deadlineIn
  omega

lemma toInt_minutes {n : Nat} (h : n * 60000 < 2 ^ 63) :
    (Int64.ofNat n * 60000).toInt = (n * 60000 : Nat) := by
  have hmul : Int64.ofNat n * 60000 = Int64.ofNat (n * 60000) := by
    rw [Int64.ofNat_mul]
    rfl
  rw [hmul, Int64.toInt_ofNat_of_lt h]

lemma stored_of_start {params : Value} {now later : Int64} {goals goals' : Goals} {goal : Goal}
    (h : (startGoal params now >>= fun op => op.result later goals) = .ok (goals', goal)) :
    goals'.active = some goal ∧
      goal.maxTurns.map UInt32.toNat =
        ((given params "maxTurns").map (· % 2 ^ 32)).filter (fun n => decide (0 < n)) ∧
      goal.deadlineMs.map Int64.toInt =
        (((given params "maxMinutes").map (· % 2 ^ 32)).filter fun n => decide (0 < n)).map
          fun minutes => deadlineIn now.toInt (minutes * 60000 : Nat) := by
  obtain ⟨op, hop, h⟩ := bind_eq_ok.mp h
  unfold startGoal at hop
  obtain ⟨title, -, hop⟩ := bind_eq_ok.mp hop
  obtain rfl := Except.ok.inj hop
  obtain ⟨op, hop, h⟩ := bind_eq_ok.mp h
  obtain ⟨title, -, hop⟩ := bind_eq_ok.mp hop
  obtain ⟨notes, -, hop⟩ := bind_eq_ok.mp hop
  obtain rfl := Except.ok.inj hop
  obtain ⟨rfl, rfl⟩ := Prod.mk.inj (Except.ok.inj h)
  refine ⟨rfl, ?_, ?_⟩
  · rw [map_filter_pos, paramU32_eq]
  · rw [← paramU32_eq, ← map_filter_pos, Option.map_map, Option.map_map]
    apply Option.map_congr
    intro minutes _
    have hlt := minutes.toNat_lt
    have hms := @toInt_minutes minutes.toNat (by omega)
    rw [Function.comp_apply, toInt_deadlineIn (by omega), hms]
    rfl

lemma deadline_applyLimits (goal : Goal) (now : Int64) (maxTurns : Option (Option UInt32))
    (ms : Int64) :
    (applyLimits goal now maxTurns (some (some ms))).deadlineMs.map Int64.toInt =
      if 0 < ms.toInt then some (deadlineIn now.toInt ms.toInt) else none := by
  have hiff : 0 < ms ↔ 0 < ms.toInt := Int64.lt_iff_toInt_lt
  unfold applyLimits
  by_cases h : 0 < ms
  · have hpos := hiff.mp h
    have hle : 0 ≤ ms.toInt := Int.le_of_lt hpos
    simp [Option.filter, h, hpos, toInt_deadlineIn hle]
  · simp [Option.filter, h, ← hiff]

lemma stored_of_limit {params : Value} {now : Int64} {goals goals' : Goals} {goal : Goal}
    (h : (limitGoal params >>= fun op => op.result now goals) = .ok (goals', goal)) :
    goals'.active = some goal ∧
      (∀ n, given params "maxTurns" = some n →
        goal.maxTurns.map UInt32.toNat = some (max 1 (n % 2 ^ 32))) ∧
      ∀ minutes, given params "maxMinutes" = some minutes → minutes * 60000 < 2 ^ 63 →
        goal.deadlineMs.map Int64.toInt =
          if minutes = 0 then none else some (deadlineIn now.toInt (minutes * 60000 : Nat)) := by
  obtain ⟨op, hop, h⟩ := bind_eq_ok.mp h
  unfold limitGoal at hop
  rw [check_bind_eq_ok] at hop
  obtain rfl := Except.ok.inj hop.2
  obtain ⟨op, hop, h⟩ := bind_eq_ok.mp h
  obtain rfl := Except.ok.inj hop
  obtain ⟨active, -, h⟩ := bind_eq_ok.mp h
  obtain ⟨rfl, rfl⟩ := Prod.mk.inj (Except.ok.inj h)
  refine ⟨rfl, ?_, ?_⟩
  · intro n hn
    obtain ⟨v, hv, rfl⟩ := Option.map_eq_some_iff.mp hn
    have hsize := v.toUInt32.toNat_lt
    have hmax : (max v.toUInt32 1).toNat = max 1 (v.toNat % 2 ^ 32) := by
      rw [Rust.toNat_max32, Nat.max_comm]
      rfl
    have hpos : 0 < max v.toUInt32 1 := by
      rw [UInt32.lt_iff_toNat_lt, hmax]
      exact Nat.lt_of_lt_of_le Nat.zero_lt_one (Nat.le_max_left _ _)
    unfold applyLimits
    rw [hv]
    simp [Option.filter, hpos, hmax]
  · intro minutes hminutes hsmall
    obtain ⟨v, hv, rfl⟩ := Option.map_eq_some_iff.mp hminutes
    have hint : v.toInt64 = Int64.ofNat v.toNat := by
      rw [← UInt64.toInt64_ofNat', UInt64.ofNat_toNat]
    have hms := toInt_minutes hsmall
    rw [← hint] at hms
    rw [hv, Option.map_some, Option.map_some, deadline_applyLimits, hms]
    by_cases hzero : v.toNat = 0
    · rw [if_pos hzero, if_neg (by omega)]
    · rw [if_neg hzero, if_pos (by omega)]

lemma stored_of_time {now : Int64} {goals goals' : Goals} {goal : Goal}
    (h : (timeCommand spec >>= fun op => op.result now goals) = .ok (goals', goal)) :
    goals'.active = some goal ∧ ∃ ms, parseDurationMs spec = .ok ms ∧
      goal.deadlineMs.map Int64.toInt =
        if 0 < ms.toInt then some (deadlineIn now.toInt ms.toInt) else none := by
  obtain ⟨op, hop, h⟩ := bind_eq_ok.mp h
  obtain ⟨ms, hms, hop⟩ := bind_eq_ok.mp hop
  obtain rfl := Except.ok.inj hop
  obtain ⟨op, hop, h⟩ := bind_eq_ok.mp h
  obtain rfl := Except.ok.inj hop
  obtain ⟨active, -, h⟩ := bind_eq_ok.mp h
  obtain ⟨rfl, rfl⟩ := Prod.mk.inj (Except.ok.inj h)
  refine ⟨rfl, ms, hms, ?_⟩
  by_cases hzero : ms = 0
  · rw [if_pos hzero, hzero]
    rfl
  · rw [if_neg hzero]
    exact deadline_applyLimits active now none ms

/-- The numbers of turns and minutes that the tool is given keep their meaning as far as they are
`u32`, and so do all durations that the command accepts. -/
theorem budget_inputs :
    (∀ params now later goals goals' goal,
      (startGoal params now >>= fun op => op.result later goals) = .ok (goals', goal) →
        goals'.active = some goal ∧
          goal.maxTurns.map UInt32.toNat =
            ((given params "maxTurns").map (· % 2 ^ 32)).filter (fun n => decide (0 < n)) ∧
          goal.deadlineMs.map Int64.toInt =
            (((given params "maxMinutes").map (· % 2 ^ 32)).filter fun n => decide (0 < n)).map
              fun minutes => deadlineIn now.toInt (minutes * 60000 : Nat)) ∧
      (∀ params now goals goals' goal,
        (limitGoal params >>= fun op => op.result now goals) = .ok (goals', goal) →
          goals'.active = some goal ∧
            (∀ n, given params "maxTurns" = some n →
              goal.maxTurns.map UInt32.toNat = some (max 1 (n % 2 ^ 32))) ∧
            ∀ minutes, given params "maxMinutes" = some minutes → minutes * 60000 < 2 ^ 63 →
              goal.deadlineMs.map Int64.toInt =
                if minutes = 0 then none
                else some (deadlineIn now.toInt (minutes * 60000 : Nat))) ∧
      (∀ spec now goals goals' goal,
        (timeCommand spec >>= fun op => op.result now goals) = .ok (goals', goal) →
          goals'.active = some goal ∧ ∃ ms, parseDurationMs spec = .ok ms ∧
            goal.deadlineMs.map Int64.toInt =
              if 0 < ms.toInt then some (deadlineIn now.toInt ms.toInt) else none) ∧
      ∀ spec ms, parseDurationMs spec = .ok ms ↔
        Denotes (lowercase (Rust.trimChars spec.toList)) ms.toInt := by
  refine ⟨?_, ?_, ?_, ?_⟩
  · intro params now later goals goals' goal h
    exact stored_of_start h
  · intro params now goals goals' goal h
    exact stored_of_limit h
  · intro spec now goals goals' goal h
    exact stored_of_time h
  · intro spec ms
    exact parseDurationMs_eq_ok

end

/-- A tool call that asks for more turns than there are. -/
def manyTurns : Value :=
  .object [("title", .string "ship"), ("maxTurns", .number (.posInt 4294967301))]

/-- A number of turns that is too large is cut down to its lower half, and a duration may be
negative. -/
theorem budget_inputs_cut :
    given manyTurns "maxTurns" = some 4294967301 ∧
      ((startGoal manyTurns 0 >>= fun op => op.result 0 .default).toOption.map
        fun r => r.2.maxTurns) = some (some 5) ∧
      (parseDurationMs "-5").toOption = some (-300000) := by
  decide +kernel

end GoalState
