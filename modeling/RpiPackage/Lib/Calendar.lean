import Mathlib.Data.List.Lex
import Mathlib.Tactic.Common

/-!
# The Gregorian calendar

Dates and times of the proleptic Gregorian calendar from the year 0 on, the day and the millisecond
that each of them names, and their order. Days are counted year by year and month by month.
-/

namespace Calendar

def isLeap (year : Nat) : Bool := year % 4 == 0 && (year % 100 != 0 || year % 400 == 0)

def daysInYear (year : Nat) : Nat := if isLeap year then 366 else 365

def daysInMonth (year : Nat) : Nat → Nat
  | 2 => if isLeap year then 29 else 28
  | 4 | 6 | 9 | 11 => 30
  | _ => 31

/-- The days of the years before this one. -/
def daysBeforeYear : Nat → Nat
  | 0 => 0
  | year + 1 => daysBeforeYear year + daysInYear year

/-- The days of the months before this one. -/
def daysBeforeMonth (year : Nat) : Nat → Nat
  | 0 | 1 => 0
  | month + 2 => daysBeforeMonth year (month + 1) + daysInMonth year (month + 1)

structure Date where
  year : Nat
  month : Nat
  day : Nat
  month_pos : 1 ≤ month
  month_le : month ≤ 12
  day_pos : 1 ≤ day
  day_le : day ≤ daysInMonth year month

/-- The number of the day, counted from the first day of the year 0. -/
def Date.days (d : Date) : Nat :=
  daysBeforeYear d.year + daysBeforeMonth d.year d.month + (d.day - 1)

structure DateTime extends Date where
  hour : Nat
  minute : Nat
  second : Nat
  milli : Nat
  hour_lt : hour < 24
  minute_lt : minute < 60
  second_lt : second < 60
  milli_lt : milli < 1000

/-- The day 1970-01-01. -/
def epoch : Nat := 719528

/-- Milliseconds since the epoch. -/
def DateTime.millis (t : DateTime) : Int :=
  (((((t.days : Int) - epoch) * 24 + t.hour) * 60 + t.minute) * 60 + t.second) * 1000 + t.milli

/-- The fields of a date and a time, the largest first. -/
def DateTime.fields (t : DateTime) : List Nat :=
  [t.year, t.month, t.day, t.hour, t.minute, t.second, t.milli]

/-! ### Counting days -/

lemma isLeap_iff {year : Nat} :
    isLeap year = true ↔ year % 4 = 0 ∧ (year % 100 ≠ 0 ∨ year % 400 = 0) := by
  simp [isLeap]

lemma daysBeforeYear_eq (year : Nat) :
    daysBeforeYear year = 365 * year + (year + 3) / 4 - (year + 99) / 100 + (year + 399) / 400 := by
  induction year with
  | zero => rfl
  | succ year ih =>
    rw [daysBeforeYear, ih, daysInYear]
    split
    · rename_i hleap
      rw [isLeap_iff] at hleap
      omega
    · rename_i hleap
      rw [isLeap_iff] at hleap
      omega

lemma daysBeforeYear_mono {year year' : Nat} (h : year ≤ year') :
    daysBeforeYear year ≤ daysBeforeYear year' := by
  induction h with
  | refl => exact Nat.le_refl _
  | step _ ih => exact Nat.le_trans ih (Nat.le_add_right _ _)

lemma daysBeforeMonth_succ (year : Nat) {month : Nat} (h : 1 ≤ month) :
    daysBeforeMonth year (month + 1) = daysBeforeMonth year month + daysInMonth year month := by
  cases month with
  | zero => omega
  | succ month => rfl

lemma daysBeforeMonth_mono (year : Nat) {month month' : Nat} (h : month ≤ month') :
    daysBeforeMonth year month ≤ daysBeforeMonth year month' := by
  induction h with
  | refl => exact Nat.le_refl _
  | @step month' _ ih =>
    refine Nat.le_trans ih ?_
    cases month' with
    | zero => exact Nat.le_refl _
    | succ month' => exact Nat.le_add_right _ _

/-- The twelve months are the year. -/
lemma daysBeforeMonth_thirteen (year : Nat) : daysBeforeMonth year 13 = daysInYear year := by
  unfold daysInYear
  split <;> rename_i hleap <;> simp [daysBeforeMonth, daysInMonth, hleap]

/-- A day lies in its month. -/
lemma Date.lt_month (d : Date) :
    daysBeforeMonth d.year d.month + (d.day - 1) < daysBeforeMonth d.year (d.month + 1) := by
  have hpos := d.day_pos
  have hle := d.day_le
  rw [daysBeforeMonth_succ d.year d.month_pos]
  omega

/-- A day lies in its year. -/
lemma Date.lt_year (d : Date) : d.days < daysBeforeYear (d.year + 1) := by
  have hmonth := d.lt_month
  have hmono : daysBeforeMonth d.year (d.month + 1) ≤ daysBeforeMonth d.year 13 :=
    daysBeforeMonth_mono d.year (Nat.succ_le_succ d.month_le)
  rw [daysBeforeMonth_thirteen] at hmono
  rw [daysBeforeYear, Date.days]
  omega

/-! ### Order -/

lemma Date.days_lt {d d' : Date} (h : d.year < d'.year ∨ d.year = d'.year ∧
    (d.month < d'.month ∨ d.month = d'.month ∧ d.day < d'.day)) : d.days < d'.days := by
  rcases h with hyear | ⟨hyear, hmonth | ⟨hmonth, hday⟩⟩
  · have hlt := d.lt_year
    have hmono : daysBeforeYear (d.year + 1) ≤ daysBeforeYear d'.year := daysBeforeYear_mono hyear
    unfold Date.days at hlt ⊢
    omega
  · have hlt := d.lt_month
    have hmono : daysBeforeMonth d.year (d.month + 1) ≤ daysBeforeMonth d.year d'.month :=
      daysBeforeMonth_mono d.year hmonth
    unfold Date.days
    rw [← hyear]
    omega
  · have hpos := d.day_pos
    unfold Date.days
    rw [← hyear, ← hmonth]
    omega

/-- The fields of a time of the day, as one number. -/
def DateTime.ofDay (t : DateTime) : Nat := ((t.hour * 60 + t.minute) * 60 + t.second) * 1000 + t.milli

lemma DateTime.ofDay_lt (t : DateTime) : t.ofDay < 86400000 := by
  have hhour := t.hour_lt
  have hminute := t.minute_lt
  have hsecond := t.second_lt
  have hmilli := t.milli_lt
  unfold DateTime.ofDay
  omega

lemma DateTime.millis_eq (t : DateTime) :
    t.millis = ((t.days : Int) - epoch) * 86400000 + t.ofDay := by
  unfold DateTime.millis DateTime.ofDay
  omega

/-- The order of the fields is the order in time. -/
lemma DateTime.millis_lt {t t' : DateTime} (h : t.fields < t'.fields) : t.millis < t'.millis := by
  have hday := t.ofDay_lt
  have hday' := t'.ofDay_lt
  have hlater : t.days < t'.days → t.millis < t'.millis := by
    intro hdays
    rw [t.millis_eq, t'.millis_eq]
    omega
  simp only [DateTime.fields, List.cons_lt_cons_iff, List.not_lt_nil, and_false, or_false] at h
  rcases h with h | ⟨hyear, h | ⟨hmonth, h | ⟨hday, h⟩⟩⟩
  · exact hlater (Date.days_lt (.inl h))
  · exact hlater (Date.days_lt (.inr ⟨hyear, .inl h⟩))
  · exact hlater (Date.days_lt (.inr ⟨hyear, .inr ⟨hmonth, h⟩⟩))
  · have hdays : t.days = t'.days := by
      unfold Date.days
      rw [hyear, hmonth, hday]
    have hminute := t.minute_lt
    have hminute' := t'.minute_lt
    have hsecond := t.second_lt
    have hsecond' := t'.second_lt
    have hmilli := t.milli_lt
    have hmilli' := t'.milli_lt
    rw [t.millis_eq, t'.millis_eq, hdays]
    unfold DateTime.ofDay
    omega

lemma DateTime.eq_of_fields {t t' : DateTime} (h : t.fields = t'.fields) : t = t' := by
  obtain ⟨⟨⟩⟩ := t
  obtain ⟨⟨⟩⟩ := t'
  simp only [DateTime.fields, List.cons.injEq, and_true] at h
  obtain ⟨rfl, rfl, rfl, rfl, rfl, rfl, rfl⟩ := h
  rfl

/-- Fields and milliseconds are ordered alike. -/
lemma DateTime.fields_lt_iff {t t' : DateTime} : t.fields < t'.fields ↔ t.millis < t'.millis := by
  refine ⟨DateTime.millis_lt, fun h => ?_⟩
  rcases lt_trichotomy t.fields t'.fields with hlt | heq | hgt
  · exact hlt
  · rw [DateTime.eq_of_fields heq] at h
    exact absurd h (Int.lt_irrefl _)
  · exact absurd (DateTime.millis_lt hgt) (Int.lt_asymm h)

lemma DateTime.millis_injective {t t' : DateTime} (h : t.millis = t'.millis) : t = t' := by
  rcases lt_trichotomy t.fields t'.fields with hlt | heq | hgt
  · exact absurd h (Int.ne_of_lt (DateTime.millis_lt hlt))
  · exact DateTime.eq_of_fields heq
  · exact absurd h.symm (Int.ne_of_lt (DateTime.millis_lt hgt))

end Calendar
