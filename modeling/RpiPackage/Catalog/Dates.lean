import Mathlib.Tactic.IntervalCases
import RpiPackage.Lib.Calendar
import RpiPackage.Lib.Decimal

/-!
# Timestamps of sessions

The file name of a session and the date in a list of sessions are computed from milliseconds by two
copies of the same arithmetic, which counts years from March on. The dates are those of the
calendar, so that the names of the sessions with one id are ordered as their timestamps are.
-/

namespace Catalog

open Calendar

/-- `{n:0width}` -/
def padded (width : Nat) (n : Int) : String :=
  let sign := if n < 0 then "-" else ""
  let digits := n.natAbs.repr
  sign ++ String.ofList (List.replicate (width - (sign.length + digits.length)) '0') ++ digits

/-- The years 0 through 9999. -/
def InRange (ms : Int) : Prop := -62167219200000 ≤ ms ∧ ms ≤ 253402300799999

instance (ms : Int) : Decidable (InRange ms) := inferInstanceAs (Decidable (_ ∧ _))

structure Fields where
  year : Int
  month : Int
  day : Int
  hour : Int
  minute : Int
  second : Int
  milli : Int

/-- What `filename` computes. A division by a positive number is Euclidean here, as `div_euclid` is;
where the source truncates, the dividend is not negative. -/
def filenameFields (ms : Int) : Fields :=
  let seconds := ms / 1000
  let z := seconds / 86400 + 719468
  let era := z / 146097
  let doe := z - era * 146097
  let yoe := (doe - doe / 1460 + doe / 36524 - doe / 146096) / 365
  let year := yoe + era * 400
  let doy := doe - (365 * yoe + yoe / 4 - yoe / 100)
  let mp := (5 * doy + 2) / 153
  let day := doy - (153 * mp + 2) / 5 + 1
  let month := mp + if mp < 10 then 3 else -9
  let year := year + if month ≤ 2 then 1 else 0
  let time := seconds % 86400
  { year, month, day
    hour := time / 3600
    minute := (time / 60) % 60
    second := time % 60
    milli := ms % 1000 }

def filename (ms : Int) (id : String) : Option String :=
  if InRange ms then
    let f := filenameFields ms
    some (padded 4 f.year ++ "-" ++ padded 2 f.month ++ "-" ++ padded 2 f.day ++ "T" ++
      padded 2 f.hour ++ "-" ++ padded 2 f.minute ++ "-" ++ padded 2 f.second ++ "-" ++
      padded 3 f.milli ++ "Z_" ++ id ++ ".jsonl")
  else none

/-- What `utc_date` computes. -/
def utcDateFields (ms : Int) : Fields :=
  let seconds := ms / 1000
  let days := seconds / 86400
  let time := seconds % 86400
  let z := days + 719468
  let era := z / 146097
  let doe := z - era * 146097
  let yoe := (doe - doe / 1460 + doe / 36524 - doe / 146096) / 365
  let year := yoe + era * 400
  let doy := doe - (365 * yoe + yoe / 4 - yoe / 100)
  let mp := (5 * doy + 2) / 153
  let day := doy - (153 * mp + 2) / 5 + 1
  let month := mp + if mp < 10 then 3 else -9
  let year := year + if month ≤ 2 then 1 else 0
  { year, month, day
    hour := time / 3600
    minute := time / 60 % 60
    second := time % 60
    milli := ms % 1000 }

def utcDate (ms : Int) : Option String :=
  if InRange ms then
    let f := utcDateFields ms
    some (padded 4 f.year ++ "-" ++ padded 2 f.month ++ "-" ++ padded 2 f.day ++ "T" ++
      padded 2 f.hour ++ ":" ++ padded 2 f.minute ++ ":" ++ padded 2 f.second ++ "." ++
      padded 3 f.milli ++ "Z")
  else none

/-! ### Years from March on -/

section

variable {doe yoe : Int}

/-- The centuries of an era; the last day of an era is a century of its own. -/
lemma century_cases (h0 : 0 ≤ doe) (h1 : doe ≤ 146096) :
    doe / 36524 = 0 ∧ doe / 146096 = 0 ∨ doe / 36524 = 1 ∧ doe / 146096 = 0 ∨
      doe / 36524 = 2 ∧ doe / 146096 = 0 ∨ doe / 36524 = 3 ∧ doe / 146096 = 0 ∨
      doe / 36524 = 4 ∧ doe / 146096 = 1 := by
  omega

lemma century_of_era (h0 : 0 ≤ doe) (h1 : doe ≤ 146096)
    (hyoe : yoe = (doe - doe / 1460 + doe / 36524 - doe / 146096) / 365) :
    0 ≤ yoe ∧ yoe ≤ 399 ∧ yoe / 100 = min (doe / 36524) 3 := by
  rcases century_cases h0 h1 with h | h | h | h | h <;> rw [h.1, h.2] at hyoe <;> omega

/-- The year of an era, from the day of the era. -/
lemma year_of_era (h0 : 0 ≤ doe) (h1 : doe ≤ 146096)
    (hyoe : yoe = (doe - doe / 1460 + doe / 36524 - doe / 146096) / 365) :
    0 ≤ doe - (365 * yoe + yoe / 4 - yoe / 100) ∧
      doe - (365 * yoe + yoe / 4 - yoe / 100) ≤ 365 := by
  obtain ⟨-, -, hcentury⟩ := century_of_era h0 h1 hyoe
  rcases century_cases h0 h1 with h | h | h | h | h <;> rw [h.1] at hcentury <;>
    rw [h.1, h.2] at hyoe <;> simp at hcentury
  all_goals
    have hfour : yoe / 4 ≤ doe / 1460 + 1 := by omega
    constructor <;> omega

/-- Only a year before a leap year has a last day of February to count from March on. -/
lemma leap_of_last_day (h0 : 0 ≤ doe) (h1 : doe ≤ 146096)
    (hyoe : yoe = (doe - doe / 1460 + doe / 36524 - doe / 146096) / 365)
    (hday : doe - (365 * yoe + yoe / 4 - yoe / 100) = 365) :
    (yoe + 1) % 4 = 0 ∧ ((yoe + 1) % 100 ≠ 0 ∨ (yoe + 1) % 400 = 0) := by
  obtain ⟨-, -, hcentury⟩ := century_of_era h0 h1 hyoe
  have hmod : yoe % 4 = 0 ∨ yoe % 4 = 1 ∨ yoe % 4 = 2 ∨ yoe % 4 = 3 := by omega
  have hquarter : yoe = 4 * (yoe / 4) + yoe % 4 := by omega
  rcases century_cases h0 h1 with h | h | h | h | h <;> rw [h.1] at hcentury <;>
    rw [h.1, h.2] at hyoe <;> simp at hcentury
  all_goals
    have hleap : yoe % 4 = 3 := by
      rcases hmod with hmod | hmod | hmod | hmod <;> rw [hmod] at hquarter <;> omega
    omega

end

/-! ### Dates from March on -/

/-- From March on the lengths of the months repeat every five months. -/
lemma daysInMonth_march (year : Nat) {mp : Nat} (h : mp < 10) :
    daysInMonth year (mp + 3) = (153 * (mp + 1) + 2) / 5 - (153 * mp + 2) / 5 := by
  interval_cases mp <;> rfl

lemma daysBeforeMonth_march (year : Nat) {mp : Nat} (h : mp < 10) :
    daysBeforeMonth year (mp + 3) = (153 * mp + 2) / 5 + if isLeap year then 60 else 59 := by
  induction mp with
  | zero => cases hleap : isLeap year <;> simp [daysBeforeMonth, daysInMonth, hleap]
  | succ mp ih =>
    rw [show mp + 1 + 3 = mp + 3 + 1 from rfl, daysBeforeMonth_succ year (by omega), ih (by omega),
      daysInMonth_march year (by omega)]
    omega

/-- The days before March. -/
lemma daysBeforeYear_march (year : Nat) :
    daysBeforeYear year + (if isLeap year then 60 else 59) =
      365 * year + year / 4 - year / 100 + year / 400 + 60 := by
  have hnext := daysBeforeYear_eq (year + 1)
  rw [daysBeforeYear, daysInYear] at hnext
  split <;> rename_i hleap
  · rw [if_pos hleap] at hnext
    omega
  · rw [if_neg hleap] at hnext
    omega

/-- The day of a year that starts in March names a date of the calendar. -/
lemma exists_date {year doy mp day month : Int} (hyear : -1 ≤ year) (h0 : 0 ≤ doy) (h1 : doy ≤ 365)
    (hfirst : year = -1 → 306 ≤ doy)
    (hleap : doy = 365 → (year + 1) % 4 = 0 ∧ ((year + 1) % 100 ≠ 0 ∨ (year + 1) % 400 = 0))
    (hmp : mp = (5 * doy + 2) / 153) (hday : day = doy - (153 * mp + 2) / 5 + 1)
    (hmonth : month = mp + if mp < 10 then 3 else -9) :
    ∃ d : Date, (d.year : Int) = year + (if month ≤ 2 then 1 else 0) ∧ (d.month : Int) = month ∧
      (d.day : Int) = day ∧
      (d.days : Int) = 365 * year + year / 4 - year / 100 + year / 400 + doy + 60 := by
  by_cases hten : mp < 10
  · rw [if_pos hten] at hmonth
    rw [if_neg (by omega)]
    obtain ⟨y, rfl⟩ := Int.eq_ofNat_of_zero_le (show 0 ≤ year by omega)
    obtain ⟨m, rfl⟩ := Int.eq_ofNat_of_zero_le (show 0 ≤ mp by omega)
    obtain ⟨n, rfl⟩ := Int.eq_ofNat_of_zero_le (show 0 ≤ day by omega)
    have hcast : (153 * (m : Int) + 2) / 5 = ((153 * m + 2) / 5 : Nat) := by norm_cast
    rw [hcast] at hday
    have hlength := daysInMonth_march y (show m < 10 by omega)
    have hbefore := daysBeforeMonth_march y (show m < 10 by omega)
    have hmarch := daysBeforeYear_march y
    refine ⟨⟨y, m + 3, n, by omega, by omega, by omega, by omega⟩, by simp, hmonth.symm, rfl, ?_⟩
    · unfold Date.days
      dsimp only
      omega
  · rw [if_neg hten] at hmonth
    rw [if_pos (by omega)]
    obtain ⟨y, hy⟩ := Int.eq_ofNat_of_zero_le (show 0 ≤ year + 1 by omega)
    obtain ⟨n, rfl⟩ := Int.eq_ofNat_of_zero_le (show 0 ≤ day by omega)
    have hbefore := daysBeforeYear_eq y
    have hmp' : mp = 10 ∨ mp = 11 := by omega
    rcases hmp' with rfl | rfl
    · refine ⟨⟨y, 1, n, by omega, by omega, by omega, ?_⟩, hy.symm, hmonth.symm, rfl, ?_⟩
      · show n ≤ 31
        omega
      · unfold Date.days
        simp only [daysBeforeMonth]
        omega
    · refine ⟨⟨y, 2, n, by omega, by omega, by omega, ?_⟩, hy.symm, hmonth.symm, rfl, ?_⟩
      · show n ≤ if isLeap y then 29 else 28
        split
        · omega
        · rename_i hcommon
          rw [isLeap_iff] at hcommon
          have : doy ≠ 365 := by
            intro hlast
            have := hleap hlast
            omega
          omega
      · unfold Date.days
        simp only [daysBeforeMonth, daysInMonth]
        omega

/-! ### The fields of a timestamp -/

/-- The fields of a date and a time. -/
def Fields.of (t : DateTime) : Fields where
  year := t.year
  month := t.month
  day := t.day
  hour := t.hour
  minute := t.minute
  second := t.second
  milli := t.milli

lemma utcDateFields_eq (ms : Int) : utcDateFields ms = filenameFields ms := rfl

lemma daysBeforeYear_tenThousand : daysBeforeYear 10000 = 3652425 := by
  rw [daysBeforeYear_eq]

/-- The days of the eras name the dates of the years 0 through 9999. -/
lemma exists_date_of_days {z era doe yoe year doy mp day month : Int} (hlow : -60 ≤ z)
    (hhigh : z ≤ 3652364) (hera : era = z / 146097) (hdoe : doe = z - era * 146097)
    (hyoe : yoe = (doe - doe / 1460 + doe / 36524 - doe / 146096) / 365)
    (hyear : year = yoe + era * 400) (hdoy : doy = doe - (365 * yoe + yoe / 4 - yoe / 100))
    (hmp : mp = (5 * doy + 2) / 153) (hday : day = doy - (153 * mp + 2) / 5 + 1)
    (hmonth : month = mp + if mp < 10 then 3 else -9) :
    ∃ d : Date, d.year ≤ 9999 ∧ (d.year : Int) = year + (if month ≤ 2 then 1 else 0) ∧
      (d.month : Int) = month ∧ (d.day : Int) = day ∧ (d.days : Int) = z + 60 := by
  have h0 : 0 ≤ doe := by omega
  have h1 : doe ≤ 146096 := by omega
  obtain ⟨hyoe0, hyoe1, -⟩ := century_of_era h0 h1 hyoe
  obtain ⟨hdoy0, hdoy1⟩ := year_of_era h0 h1 hyoe
  have hlast := leap_of_last_day h0 h1 hyoe
  rw [← hdoy] at hdoy0 hdoy1 hlast
  clear hyoe
  have hfirst : -1 ≤ year := by omega
  have hdate := exists_date hfirst hdoy0 hdoy1 (by omega) (fun hday => by have := hlast hday; omega)
    hmp hday hmonth
  obtain ⟨d, hdyear, hdmonth, hdday, hdays⟩ := hdate
  have hfour : year / 4 = 100 * era + yoe / 4 := by omega
  have hhundred : year / 100 = 4 * era + yoe / 100 := by omega
  have hera' : year / 400 = era := by omega
  rw [hfour, hhundred, hera', hyear] at hdays
  have hdays : (d.days : Int) = z + 60 := by omega
  refine ⟨d, Nat.le_of_not_lt fun hlate => ?_, hdyear, hdmonth, hdday, hdays⟩
  have hmono : daysBeforeYear 10000 ≤ daysBeforeYear d.year := daysBeforeYear_mono hlate
  have hle : daysBeforeYear d.year ≤ d.days :=
    Nat.le_trans (Nat.le_add_right _ _) (Nat.le_add_right _ _)
  rw [daysBeforeYear_tenThousand] at hmono
  omega

/-- The fields are those of the date and the time that the milliseconds name. -/
lemma exists_dateTime {ms : Int} (h : InRange ms) : ∃ t : DateTime,
    t.year ≤ 9999 ∧ filenameFields ms = .of t ∧ t.millis = ms := by
  obtain ⟨hlow, hhigh⟩ := h
  have hdate := exists_date_of_days (show -60 ≤ ms / 1000 / 86400 + 719468 by omega) (by omega)
    rfl rfl rfl rfl rfl rfl rfl rfl
  obtain ⟨d, hlate, hyear, hmonth, hday, hdays⟩ := hdate
  have htime : 0 ≤ ms / 1000 % 86400 ∧ ms / 1000 % 86400 < 86400 := by omega
  have hsplit : ms / 1000 = ms / 1000 / 86400 * 86400 + ms / 1000 % 86400 := by omega
  unfold filenameFields
  dsimp only
  rw [← hyear, ← hmonth, ← hday]
  generalize ms / 1000 % 86400 = time at htime hsplit ⊢
  refine ⟨⟨d, (time / 3600).toNat, (time / 60 % 60).toNat, (time % 60).toNat, (ms % 1000).toNat,
    by omega, by omega, by omega, by omega⟩, hlate, ?_, ?_⟩
  · unfold Fields.of
    dsimp only
    rw [Int.toNat_of_nonneg (by omega), Int.toNat_of_nonneg (by omega),
      Int.toNat_of_nonneg (by omega), Int.toNat_of_nonneg (by omega)]
  · unfold DateTime.millis epoch
    dsimp only
    rw [hdays]
    omega

/-! ### The texts -/

lemma padded_eq {width n : Nat} (h : n < 10 ^ (width + 1)) :
    (padded (width + 1) n).toList = Decimal.lastDigits (width + 1) n := by
  unfold padded
  rw [if_neg (by omega)]
  simp only [String.toList_append, String.toList_ofList, Int.natAbs_natCast, Nat.toList_repr,
    ← String.length_toList, String.toList_empty, List.length_nil, Nat.zero_add, List.nil_append]
  exact Decimal.replicate_append_toDigits h

/-- The text of a date and a time. -/
def stamp (t : DateTime) (colon dot : Char) (rest : List Char) : List Char :=
  Decimal.lastDigits 4 t.year ++ '-' :: (Decimal.lastDigits 2 t.month ++
    '-' :: (Decimal.lastDigits 2 t.day ++ 'T' :: (Decimal.lastDigits 2 t.hour ++
    colon :: (Decimal.lastDigits 2 t.minute ++ colon :: (Decimal.lastDigits 2 t.second ++
    dot :: (Decimal.lastDigits 3 t.milli ++ 'Z' :: rest))))))

lemma day_lt (d : Date) : d.day < 32 := by
  refine Nat.lt_succ_of_le (Nat.le_trans d.day_le ?_)
  unfold daysInMonth
  split
  · split <;> decide
  all_goals decide

lemma toList_stamp {t : DateTime} (h : t.year ≤ 9999) (colon dot rest : String) {c d : Char}
    (hcolon : colon.toList = [c]) (hdot : dot.toList = [d]) :
    (padded 4 t.year ++ "-" ++ padded 2 t.month ++ "-" ++ padded 2 t.day ++ "T" ++
      padded 2 t.hour ++ colon ++ padded 2 t.minute ++ colon ++ padded 2 t.second ++ dot ++
      padded 3 t.milli ++ "Z" ++ rest).toList = stamp t c d rest.toList := by
  have hmonth := t.month_le
  have hday := day_lt t.toDate
  have hhour := t.hour_lt
  have hminute := t.minute_lt
  have hsecond := t.second_lt
  have hmilli := t.milli_lt
  simp only [String.toList_append, hcolon, hdot]
  rw [padded_eq (n := t.year) (by omega), padded_eq (n := t.month) (by omega),
    padded_eq (n := t.day) (by omega), padded_eq (n := t.hour) (by omega),
    padded_eq (n := t.minute) (by omega), padded_eq (n := t.second) (by omega),
    padded_eq (n := t.milli) (by omega)]
  simp [stamp]

lemma filename_eq {ms : Int} {t : DateTime} (h : InRange ms) (hyear : t.year ≤ 9999)
    (hfields : filenameFields ms = .of t) (id : String) :
    filename ms id = some (String.ofList (stamp t '-' '-' ("_" ++ id ++ ".jsonl").toList)) := by
  have hstamp : _ = stamp t '-' '-' ("_" ++ id ++ ".jsonl").toList :=
    toList_stamp hyear "-" "-" ("_" ++ id ++ ".jsonl") rfl rfl
  rw [filename, if_pos h, hfields]
  refine congrArg some (String.toList_injective ?_)
  rw [String.toList_ofList, ← hstamp]
  simp [Fields.of]

lemma utcDate_eq {ms : Int} {t : DateTime} (h : InRange ms) (hyear : t.year ≤ 9999)
    (hfields : filenameFields ms = .of t) :
    utcDate ms = some (String.ofList (stamp t ':' '.' [])) := by
  have hstamp : _ = stamp t ':' '.' "".toList := toList_stamp hyear ":" "." "" rfl rfl
  rw [utcDate, if_pos h, utcDateFields_eq, hfields]
  refine congrArg some (String.toList_injective ?_)
  rw [String.toList_ofList, ← String.toList_empty, ← hstamp]
  simp [Fields.of]

/-- A field decides before what follows it does. -/
lemma field_lt_iff {width m n : Nat} (hm : m < 10 ^ width) (hn : n < 10 ^ width) {c : Char}
    {xs ys : List Char} :
    Decimal.lastDigits width m ++ c :: xs < Decimal.lastDigits width n ++ c :: ys ↔
      m < n ∨ m = n ∧ xs < ys := by
  rw [Decimal.append_lt_append_iff (by simp), Decimal.lastDigits_lt_iff hm hn,
    List.cons_lt_cons_iff]
  have hself : ¬c < c := Char.lt_irrefl c
  constructor
  · rintro (hlt | ⟨heq, hc | ⟨-, hlt⟩⟩)
    · exact .inl hlt
    · exact absurd hc hself
    · exact .inr ⟨Decimal.lastDigits_injective hm hn heq, hlt⟩
  · rintro (hlt | ⟨rfl, hlt⟩)
    · exact .inl hlt
    · exact .inr ⟨rfl, .inr ⟨rfl, hlt⟩⟩

lemma stamp_lt_iff {t t' : DateTime} (h : t.year ≤ 9999) (h' : t'.year ≤ 9999) (c d : Char)
    (rest : List Char) : stamp t c d rest < stamp t' c d rest ↔ t.millis < t'.millis := by
  have hmonth := t.month_le
  have hmonth' := t'.month_le
  have hday := day_lt t.toDate
  have hday' := day_lt t'.toDate
  have hhour := t.hour_lt
  have hhour' := t'.hour_lt
  have hminute := t.minute_lt
  have hminute' := t'.minute_lt
  have hsecond := t.second_lt
  have hsecond' := t'.second_lt
  have hmilli := t.milli_lt
  have hmilli' := t'.milli_lt
  have hrest : ¬rest < rest := List.lt_irrefl rest
  rw [← DateTime.fields_lt_iff]
  unfold stamp
  rw [field_lt_iff (by omega) (by omega), field_lt_iff (by omega) (by omega),
    field_lt_iff (by omega) (by omega), field_lt_iff (by omega) (by omega),
    field_lt_iff (by omega) (by omega), field_lt_iff (by omega) (by omega),
    field_lt_iff (by omega) (by omega)]
  simp only [DateTime.fields, List.cons_lt_cons_iff, List.not_lt_nil, and_false, or_false, hrest]

/-! ### Names and dates -/

/-- The fields are a date and a time of the calendar, from which the timestamp is computed back;
names with one id are ordered as the timestamps, and the list of sessions shows the same date. -/
theorem timestamps_exact (ms : Int) (h : InRange ms) :
    (∃ t : DateTime, t.year ≤ 9999 ∧ t.millis = ms ∧
      filenameFields ms = .of t ∧ utcDateFields ms = .of t ∧
      (∀ id, filename ms id =
        some (String.ofList (stamp t '-' '-' ("_" ++ id ++ ".jsonl").toList))) ∧
      utcDate ms = some (String.ofList (stamp t ':' '.' []))) ∧
    (∀ ms' id, InRange ms' → ∃ name name', filename ms id = some name ∧
      filename ms' id = some name' ∧ (name = name' ↔ ms = ms') ∧ (name < name' ↔ ms < ms')) ∧
    ∀ ms', (utcDate ms' = none ↔ ¬InRange ms') := by
  obtain ⟨t, hyear, hfields, hmillis⟩ := exists_dateTime h
  refine ⟨⟨t, hyear, hmillis, hfields, by rw [utcDateFields_eq, hfields],
    filename_eq h hyear hfields, utcDate_eq h hyear hfields⟩, fun ms' id h' => ?_, fun ms' => ?_⟩
  · obtain ⟨t', hyear', hfields', hmillis'⟩ := exists_dateTime h'
    refine ⟨_, _, filename_eq h hyear hfields id, filename_eq h' hyear' hfields' id, ?_, ?_⟩
    · have hlt := stamp_lt_iff hyear hyear' '-' '-' ("_" ++ id ++ ".jsonl").toList
      have hgt := stamp_lt_iff hyear' hyear '-' '-' ("_" ++ id ++ ".jsonl").toList
      constructor
      · intro heq
        rw [String.ofList_inj.mp heq] at hlt hgt
        have hself := List.lt_irrefl (stamp t' '-' '-' ("_" ++ id ++ ".jsonl").toList)
        have hle := mt hlt.mpr hself
        have hge := mt hgt.mpr hself
        omega
      · rintro rfl
        rw [hfields] at hfields'
        have hfield := congrArg (fun f : Fields =>
          [f.year, f.month, f.day, f.hour, f.minute, f.second, f.milli]) hfields'
        have heq : t = t' :=
          DateTime.eq_of_fields (by simpa [Fields.of, DateTime.fields] using hfield)
        rw [heq]
    · rw [String.lt_iff, String.toList_ofList, String.toList_ofList,
        stamp_lt_iff hyear hyear' '-' '-', hmillis, hmillis']
  · unfold utcDate
    split <;> rename_i hrange <;> simp [hrange]

theorem timestamps_exact_of_first_second :
    ∃ name name', filename (-62167219200000) "a" = some name ∧
      filename (-62167219199000) "a" = some name' ∧ name < name' := by
  have h : InRange (-62167219200000) := by decide
  obtain ⟨name, name', hname, hname', -, hlt⟩ :=
    (timestamps_exact (-62167219200000) h).2.1 (-62167219199000) "a" (by decide)
  exact ⟨name, name', hname, hname', hlt.mpr (by decide)⟩

example : filename (-62167219200000) "a" = some "0000-01-01T00-00-00-000Z_a.jsonl" := by
  decide +kernel

example : utcDate 253402300799999 = some "9999-12-31T23:59:59.999Z" := by
  decide +kernel

end Catalog
