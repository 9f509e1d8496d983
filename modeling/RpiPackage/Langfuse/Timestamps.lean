import RpiPackage.Catalog.Dates
import RpiPackage.Lib.Utf8Bytes

/-!
# Timestamps of traces

The end of a span is written as a date and a time and read back. What was written for a year that has
four digits is read back exactly; of the other texts, the reader lets through what its checks leave
out: other separators, signs, days past the end of a month, times past the end of a day, and whatever
stands where the milliseconds should.
-/

namespace Langfuse

open Calendar Catalog

/-! ### Writing -/

def daysToYmd (days : Nat) : Nat × Nat × Nat :=
  let z := days + 719468
  let era := z / 146097
  let doe := z - era * 146097
  let yoe := (doe - doe / 1460 + doe / 36524 - doe / 146096) / 365
  let y := yoe + era * 400
  let doy := doe - (365 * yoe + yoe / 4 - yoe / 100)
  let mp := (5 * doy + 2) / 153
  let d := doy - (153 * mp + 2) / 5 + 1
  let m := if mp < 10 then mp + 3 else mp - 9
  let y := if m ≤ 2 then y + 1 else y
  (y, m, d)

def epochMsToIso (ms : Nat) : String :=
  let secs := ms / 1000 % 2 ^ 64
  let millis : Nat := ms % 1000
  let days := secs / 86400
  let (y, m, d) := daysToYmd days
  let h : Nat := secs % 86400 / 3600
  let min : Nat := secs % 3600 / 60
  let s : Nat := secs % 60
  padded 4 y ++ "-" ++ padded 2 m ++ "-" ++ padded 2 d ++ "T" ++ padded 2 h ++ ":" ++
    padded 2 min ++ ":" ++ padded 2 s ++ "." ++ padded 3 millis ++ "Z"

/-! ### Reading -/

def asBytes (ts : String) : List UInt8 := Utf8Bytes.encode ts.toList

/-- `is_char_boundary` -/
def isCharBoundary (bytes : List UInt8) (i : Nat) : Bool :=
  match bytes[i]? with
  | none => i == bytes.length
  | some b => b.toNat < 128 || 192 ≤ b.toNat

/-- `ts.get(start..stop)` -/
def getRange (bytes : List UInt8) (start stop : Nat) : Option (List UInt8) :=
  if isCharBoundary bytes start ∧ isCharBoundary bytes stop then
    some ((bytes.drop start).take (stop - start))
  else none

def isDigit (b : UInt8) : Bool := 48 ≤ b.toNat && b.toNat ≤ 57

def digitsValue (bytes : List UInt8) : Nat := bytes.foldl (fun n b => 10 * n + (b.toNat - 48)) 0

def parseDigits (bytes : List UInt8) : Option Nat :=
  if bytes ≠ [] ∧ bytes.all isDigit = true then some (digitsValue bytes) else none

/-- `str::parse::<i128>` -/
def parseI128 (bytes : List UInt8) : Option Int :=
  if bytes.head? = some 45 then
    ((parseDigits bytes.tail).filter (· ≤ 2 ^ 127)).map fun n : Nat => -n
  else if bytes.head? = some 43 then
    ((parseDigits bytes.tail).filter (· < 2 ^ 127)).map Int.ofNat
  else ((parseDigits bytes).filter (· < 2 ^ 127)).map Int.ofNat

def num (bytes : List UInt8) (start stop : Nat) : Option Int :=
  (getRange bytes start stop).bind parseI128

/-- The fields of a text, each read by itself. -/
def readFields (bytes : List UInt8) : Option Fields := do
  let year ← num bytes 0 4
  let month ← num bytes 5 7
  let day ← num bytes 8 10
  let hour ← num bytes 11 13
  let minute ← num bytes 14 16
  let second ← num bytes 17 19
  return { year, month, day, hour, minute, second, milli := (num bytes 20 23).getD 0 }

/-- A value of type `i128`, unless it overflows. -/
def i128 (n : Int) : Option Int := if -2 ^ 127 ≤ n ∧ n < 2 ^ 127 then some n else none

/-- The seconds since the epoch, unless a computation overflows. -/
def secondsOf (f : Fields) : Option Int := do
  let yAdj ← i128 (if f.month ≤ 2 then f.year - 1 else f.year)
  let dividend ← i128 (if 0 ≤ yAdj then yAdj else yAdj - 399)
  let era ← i128 (dividend.tdiv 400)
  let yoe ← i128 (yAdj - era * 400)
  let mp ← i128 ((f.month + 9) % 12)
  let doy ← i128 ((153 * mp + 2) / 5 + f.day - 1)
  let doe ← i128 (yoe * 365 + yoe / 4 - yoe / 100 + doy)
  let days ← i128 (era * 146097 + doe - 719468)
  i128 (days * 86400 + f.hour * 3600 + f.minute * 60 + f.second)

/-- Milliseconds since the epoch; the outer option is empty where a computation overflows. -/
def isoToEpochMs (ts : String) : Option (Option Nat) :=
  let bytes := asBytes ts
  if bytes.length < 20 ∨ bytes[4]? ≠ some 45 ∨ bytes[10]? ≠ some 84 then some none
  else
    match readFields bytes with
    | none => some none
    | some f =>
      if ¬(1 ≤ f.month ∧ f.month ≤ 12) ∨ ¬(1 ≤ f.day ∧ f.day ≤ 31) then some none
      else do
        let secs ← secondsOf f
        if secs < 0 then return none
        -- both are cast to `u128`, which a negative number leaves huge
        let total := secs.toNat * 1000 + (f.milli % 2 ^ 128).toNat
        if total < 2 ^ 128 then return some total else none

/-! ### Fields of digits -/

/-- The bytes of a number with some digits. -/
def field (width n : Nat) : List UInt8 :=
  (Decimal.lastDigits width n).map fun c => UInt8.ofNat c.toNat

section

variable {width n a : Nat} {x : UInt8} {bytes rest : List UInt8}

@[simp] lemma length_field (width n : Nat) : (field width n).length = width := by simp [field]

lemma toNat_digitChar : ∀ d < 10, (UInt8.ofNat (Nat.digitChar d).toNat).toNat = 48 + d := by decide

lemma field_succ (width n : Nat) :
    field (width + 1) n = field width (n / 10) ++ [UInt8.ofNat (n % 10).digitChar.toNat] := by
  simp [field, Decimal.lastDigits]

lemma isDigit_of_mem_field {b : UInt8} (h : b ∈ field width n) : isDigit b = true := by
  induction width generalizing n with
  | zero => cases h
  | succ width ih =>
    rw [field_succ, List.mem_append, List.mem_singleton] at h
    rcases h with h | rfl
    · exact ih h
    · have hdigit := toNat_digitChar (n % 10) (Nat.mod_lt n (by decide))
      have hlt := Nat.mod_lt n (show 0 < 10 by decide)
      rw [isDigit, hdigit, Bool.and_eq_true, decide_eq_true_eq, decide_eq_true_eq]
      omega

lemma digitsValue_concat (bs : List UInt8) (b : UInt8) :
    digitsValue (bs ++ [b]) = 10 * digitsValue bs + (b.toNat - 48) := by
  rw [digitsValue, List.foldl_append]
  rfl

lemma digitsValue_field (h : n < 10 ^ width) : digitsValue (field width n) = n := by
  induction width generalizing n with
  | zero =>
    have hn : n = 0 := by simpa using h
    rw [hn]
    rfl
  | succ width ih =>
    have hdigit := toNat_digitChar (n % 10) (Nat.mod_lt n (by decide))
    rw [Nat.pow_succ] at h
    rw [field_succ, digitsValue_concat, ih (by omega), hdigit]
    omega

/-- Digits are the field of their value. -/
lemma field_digitsValue (h : ∀ b ∈ bytes, isDigit b = true) :
    digitsValue bytes < 10 ^ bytes.length ∧ field bytes.length (digitsValue bytes) = bytes := by
  induction bytes using List.reverseRecOn with
  | nil => exact ⟨by decide, rfl⟩
  | append_singleton bs b ih =>
    obtain ⟨hlt, hfield⟩ := ih fun b' hb' => h b' (List.mem_append_left _ hb')
    have hb := h b (List.mem_append_right _ List.mem_cons_self)
    rw [isDigit, Bool.and_eq_true, decide_eq_true_eq, decide_eq_true_eq] at hb
    have hdiv : (10 * digitsValue bs + (b.toNat - 48)) / 10 = digitsValue bs := by omega
    have hmod : (10 * digitsValue bs + (b.toNat - 48)) % 10 = b.toNat - 48 := by omega
    rw [List.length_append, List.length_singleton, digitsValue_concat, Nat.pow_succ, field_succ, hdiv,
      hmod, hfield]
    refine ⟨by omega, congrArg (bs ++ [·]) ?_⟩
    rw [← UInt8.toNat_inj, toNat_digitChar _ (by omega)]
    omega

lemma parseI128_of_digits (hne : bytes ≠ []) (h : ∀ b ∈ bytes, isDigit b = true)
    (hlength : bytes.length ≤ 4) : parseI128 bytes = some (digitsValue bytes : Int) := by
  have hhead : ∀ b : UInt8, isDigit b = false → bytes.head? ≠ some b := by
    intro b hb heq
    rw [h b (List.mem_of_mem_head? heq)] at hb
    cases hb
  have hlt : digitsValue bytes < 2 ^ 127 := calc
    digitsValue bytes < 10 ^ bytes.length := (field_digitsValue h).1
    _ ≤ 10 ^ 4 := Nat.pow_le_pow_right (by decide) hlength
    _ ≤ 2 ^ 127 := by decide
  rw [parseI128, if_neg (hhead 45 (by decide)), if_neg (hhead 43 (by decide)), parseDigits,
    if_pos ⟨hne, List.all_eq_true.mpr h⟩, Option.filter_some, if_pos (decide_eq_true hlt)]
  rfl

/-- A field between two others, with the byte after it. -/
lemma drop_eq_field : bytes.drop a = field width n ++ x :: rest ↔
    (bytes.drop a).take width = field width n ∧ bytes[a + width]? = some x ∧
      bytes.drop (a + width + 1) = rest := by
  constructor
  · intro h
    refine ⟨?_, ?_, ?_⟩
    · rw [h, List.take_left' (length_field width n)]
    · rw [← List.getElem?_drop, h, List.getElem?_append_right (by simp), length_field, Nat.sub_self]
      rfl
    · rw [Nat.add_assoc, ← List.drop_drop, h, ← List.drop_drop, List.drop_left' (length_field width n)]
      rfl
  · rintro ⟨htake, hx, rfl⟩
    obtain ⟨hlt, rfl⟩ := List.getElem?_eq_some_iff.mp hx
    rw [← htake, ← List.drop_eq_getElem_cons hlt, ← List.drop_drop, List.take_append_drop]

/-- A field of digits is read as its number. -/
lemma num_of_field (hfield : (bytes.drop a).take width = field width n) (hwidth : 0 < width)
    (hle : width ≤ 4) (hn : n < 10 ^ width) (hx : bytes[a + width]? = some x) (hascii : x.toNat < 128) :
    num bytes a (a + width) = some (n : Int) := by
  have hdigits : ∀ b ∈ field width n, isDigit b = true := fun b => isDigit_of_mem_field
  have hstart : isCharBoundary bytes a = true := by
    have hget : bytes[a]? = (field width n)[0]? := by
      rw [← hfield, List.getElem?_take_of_lt hwidth, List.getElem?_drop, Nat.add_zero]
    obtain ⟨b, hb⟩ : ∃ b, (field width n)[0]? = some b := by
      rw [List.getElem?_eq_getElem (by simpa using hwidth)]
      exact ⟨_, rfl⟩
    have hdigit := hdigits b (List.mem_of_getElem? hb)
    rw [isDigit, Bool.and_eq_true, decide_eq_true_eq, decide_eq_true_eq] at hdigit
    rw [isCharBoundary, hget, hb]
    simp only [Bool.or_eq_true, decide_eq_true_eq]
    omega
  have hstop : isCharBoundary bytes (a + width) = true := by
    rw [isCharBoundary, hx]
    simp [hascii]
  have hne : field width n ≠ [] := by
    intro hnil
    have hlength := length_field width n
    rw [hnil] at hlength
    exact hwidth.ne hlength
  rw [num, getRange, if_pos ⟨hstart, hstop⟩, Nat.add_sub_cancel_left, Option.bind_some, hfield,
    parseI128_of_digits hne hdigits (by rwa [length_field]), digitsValue_field hn]

/-- A field that is read and holds only digits is the field of its number. -/
lemma field_of_num {stop : Nat} {k : Int} (h : num bytes a stop = some k) (hlt : a < stop)
    (hle : stop ≤ a + 4) (hlength : stop ≤ bytes.length)
    (hdigits : ∀ b ∈ (bytes.drop a).take (stop - a), isDigit b = true) :
    ∃ n : Nat, k = n ∧ n < 10 ^ (stop - a) ∧
      (bytes.drop a).take (stop - a) = field (stop - a) n := by
  have hcount : ((bytes.drop a).take (stop - a)).length = stop - a := by
    rw [List.length_take, List.length_drop]
    omega
  have hne : (bytes.drop a).take (stop - a) ≠ [] := by
    intro hnil
    rw [hnil, List.length_nil] at hcount
    omega
  obtain ⟨hvalue, hfield⟩ := field_digitsValue hdigits
  rw [hcount] at hvalue hfield
  rw [num, getRange] at h
  split at h
  · rw [Option.bind_some, parseI128_of_digits hne hdigits (by omega)] at h
    exact ⟨_, (Option.some.inj h).symm, hvalue, hfield.symm⟩
  · cases h

/-- A number of at most four bytes. -/
lemma num_bounds {stop : Nat} {k : Int} (h : num bytes a stop = some k) :
    -10 ^ (stop - a) < k ∧ k < 10 ^ (stop - a) := by
  have hdigits : ∀ (bs : List UInt8) (m : Nat), parseDigits bs = some m → m < 10 ^ bs.length := by
    intro bs m hm
    rw [parseDigits, Option.ite_none_right_eq_some] at hm
    obtain ⟨⟨-, hall⟩, hm⟩ := hm
    rw [← Option.some.inj hm]
    exact (field_digitsValue (List.all_eq_true.mp hall)).1
  have hmono : ∀ bs : List UInt8, bs.length ≤ stop - a → ∀ m : Nat, parseDigits bs = some m →
      (m : Int) < 10 ^ (stop - a) := by
    intro bs hlength m hm
    have hlt := (hdigits bs m hm).trans_le (Nat.pow_le_pow_right (by decide) hlength)
    exact_mod_cast hlt
  rw [num, getRange] at h
  split at h
  · rw [Option.bind_some] at h
    have hlength : ((bytes.drop a).take (stop - a)).length ≤ stop - a := List.length_take_le _ _
    have htail : ((bytes.drop a).take (stop - a)).tail.length ≤ stop - a := by
      rw [List.length_tail]
      omega
    rw [parseI128] at h
    split at h
    · obtain ⟨m, hm, rfl⟩ := Option.map_eq_some_iff.mp h
      have hlt := hmono _ htail m (Option.mem_filter_iff.mp hm).1
      omega
    · split at h
      · obtain ⟨m, hm, rfl⟩ := Option.map_eq_some_iff.mp h
        have hlt := hmono _ htail m (Option.mem_filter_iff.mp hm).1
        show -10 ^ (stop - a) < (m : Int) ∧ (m : Int) < 10 ^ (stop - a)
        omega
      · obtain ⟨m, hm, rfl⟩ := Option.map_eq_some_iff.mp h
        have hlt := hmono _ hlength m (Option.mem_filter_iff.mp hm).1
        show -10 ^ (stop - a) < (m : Int) ∧ (m : Int) < 10 ^ (stop - a)
        omega
  · cases h

end

/-! ### The bytes of a date and a time -/

/-- The text of a date and a time. -/
def text (t : DateTime) : String := String.ofList (stamp t ':' '.' [])

def textBytes (t : DateTime) : List UInt8 :=
  field 4 t.year ++ 45 :: (field 2 t.month ++ 45 :: (field 2 t.day ++ 84 :: (field 2 t.hour ++
    58 :: (field 2 t.minute ++ 58 :: (field 2 t.second ++ 46 :: (field 3 t.milli ++ [90]))))))

lemma encode_lastDigits (width n : Nat) :
    Utf8Bytes.encode (Decimal.lastDigits width n) = field width n := by
  have hchar : ∀ d < 10, String.utf8EncodeChar (Nat.digitChar d) = [UInt8.ofNat (Nat.digitChar d).toNat] := by
    decide
  induction width generalizing n with
  | zero => rfl
  | succ width ih =>
    rw [Decimal.lastDigits, Utf8Bytes.encode_append, ih, field_succ, Utf8Bytes.encode_cons,
      hchar _ (Nat.mod_lt n (by decide))]
    rfl

lemma asBytes_text (t : DateTime) : asBytes (text t) = textBytes t := by
  rw [asBytes, text, String.toList_ofList, stamp]
  simp only [Utf8Bytes.encode_append, Utf8Bytes.encode_cons, encode_lastDigits, Utf8Bytes.encode_nil]
  rfl

/-- The bytes of a date and a time, field by field. -/
structure Spells (bytes : List UInt8) (t : DateTime) : Prop where
  year : (bytes.drop 0).take 4 = field 4 t.year
  dash : bytes[4]? = some 45
  month : (bytes.drop 5).take 2 = field 2 t.month
  dash' : bytes[7]? = some 45
  day : (bytes.drop 8).take 2 = field 2 t.day
  tee : bytes[10]? = some 84
  hour : (bytes.drop 11).take 2 = field 2 t.hour
  colon : bytes[13]? = some 58
  minute : (bytes.drop 14).take 2 = field 2 t.minute
  colon' : bytes[16]? = some 58
  second : (bytes.drop 17).take 2 = field 2 t.second
  dot : bytes[19]? = some 46
  milli : (bytes.drop 20).take 3 = field 3 t.milli
  zone : bytes[23]? = some 90
  last : bytes.drop 24 = []

lemma eq_textBytes_iff {bytes : List UInt8} {t : DateTime} : bytes = textBytes t ↔ Spells bytes t := by
  rw [← List.drop_zero (l := bytes), textBytes, drop_eq_field]
  simp only [drop_eq_field, Nat.zero_add, Nat.reduceAdd, List.drop_zero]
  constructor
  · rintro ⟨h1, h2, h3, h4, h5, h6, h7, h8, h9, h10, h11, h12, h13, h14, h15⟩
    exact ⟨h1, h2, h3, h4, h5, h6, h7, h8, h9, h10, h11, h12, h13, h14, h15⟩
  · rintro ⟨h1, h2, h3, h4, h5, h6, h7, h8, h9, h10, h11, h12, h13, h14, h15⟩
    exact ⟨h1, h2, h3, h4, h5, h6, h7, h8, h9, h10, h11, h12, h13, h14, h15⟩

/-! ### Seconds -/

/-- The seconds from the epoch to what the fields name. A day may lie past the end of its month, and a
time past the end of its day. -/
def secondsFrom (f : Fields) : Int :=
  (((daysBeforeYear f.year.toNat + daysBeforeMonth f.year.toNat f.month.toNat : Nat) : Int) +
    (f.day - 1) - epoch) * 86400 + f.hour * 3600 + f.minute * 60 + f.second

lemma i128_of_bounds {n : Int} (hlow : -1000000000000000 ≤ n) (hhigh : n ≤ 1000000000000000) :
    i128 n = some n := by
  rw [i128, if_pos (by omega)]

lemma tdiv_of_floor (y : Int) : (if 0 ≤ y then y else y - 399).tdiv 400 = y / 400 := by
  split
  · rename_i hy
    exact Int.tdiv_eq_ediv_of_nonneg hy
  · rename_i hy
    have hneg : (y - 399).tdiv 400 = -((399 - y).tdiv 400) := by
      rw [← Int.neg_tdiv, Int.neg_sub]
    rw [hneg, Int.tdiv_eq_ediv_of_nonneg (by omega)]
    omega

/-- The days of the calendar, counted in eras of years that start in March. -/
lemma days_of_civil {y m d yAdj : Int} (hy : 0 ≤ y) (hm : 1 ≤ m) (hm' : m ≤ 12)
    (hyAdj : yAdj = if m ≤ 2 then y - 1 else y) :
    yAdj / 400 * 146097 + ((yAdj - yAdj / 400 * 400) * 365 + (yAdj - yAdj / 400 * 400) / 4 -
        (yAdj - yAdj / 400 * 400) / 100 + ((153 * ((m + 9) % 12) + 2) / 5 + d - 1)) - 719468 =
      ((daysBeforeYear y.toNat + daysBeforeMonth y.toNat m.toNat : Nat) : Int) + (d - 1) - epoch := by
  obtain ⟨year, rfl⟩ := Int.eq_ofNat_of_zero_le hy
  obtain ⟨month, rfl⟩ := Int.eq_ofNat_of_zero_le (show 0 ≤ m by omega)
  rw [Int.toNat_natCast, Int.toNat_natCast, epoch]
  generalize hera : yAdj / 400 = era
  generalize hyoe : yAdj - era * 400 = yoe
  have hfour : yAdj / 4 = 100 * era + yoe / 4 := by omega
  have hhundred : yAdj / 100 = 4 * era + yoe / 100 := by omega
  by_cases hearly : month ≤ 2
  · rw [if_pos (by omega)] at hyAdj
    have hbefore := daysBeforeYear_eq year
    have hmonth : month = 1 ∨ month = 2 := by omega
    rcases hmonth with rfl | rfl
    · simp only [daysBeforeMonth]
      omega
    · simp only [daysBeforeMonth, daysInMonth]
      omega
  · rw [if_neg (by omega)] at hyAdj
    have hbefore := daysBeforeMonth_march year (show month - 3 < 10 by omega)
    have hmarch := daysBeforeYear_march year
    rw [show month - 3 + 3 = month by omega] at hbefore
    omega

/-- What the fields of a text may be. -/
structure Small (f : Fields) : Prop where
  year : -9999 ≤ f.year ∧ f.year ≤ 9999
  month : 1 ≤ f.month ∧ f.month ≤ 12
  day : 1 ≤ f.day ∧ f.day ≤ 31
  hour : -99 ≤ f.hour ∧ f.hour ≤ 99
  minute : -99 ≤ f.minute ∧ f.minute ≤ 99
  second : -99 ≤ f.second ∧ f.second ≤ 99

/-- No computation with small fields overflows, and what is read before the year 0 is dropped. -/
lemma secondsOf_eq {f : Fields} (h : Small f) : ∃ secs, secondsOf f = some secs ∧
    (0 ≤ f.year → secs = secondsFrom f) ∧ (f.year < 0 → secs < 0) := by
  obtain ⟨hyear, hmonth, hday, hhour, hminute, hsecond⟩ := h
  rw [secondsOf, secondsFrom]
  generalize hyAdj : (if f.month ≤ 2 then f.year - 1 else f.year) = yAdj
  have hcivil := fun hy => @days_of_civil f.year f.month f.day yAdj hy hmonth.1 hmonth.2 hyAdj.symm
  have hyAdj' : -10000 ≤ yAdj ∧ yAdj ≤ 9999 ∧ (f.year < 0 → yAdj < 0) := by
    rw [← hyAdj]
    omega
  simp only [Option.bind_eq_bind]
  rw [i128_of_bounds (by omega) (by omega), Option.bind_some,
    i128_of_bounds (by split <;> omega) (by split <;> omega), Option.bind_some, tdiv_of_floor]
  generalize hera : yAdj / 400 = era at hcivil ⊢
  rw [i128_of_bounds (by omega) (by omega), Option.bind_some]
  generalize hyoe : yAdj - era * 400 = yoe at hcivil ⊢
  rw [i128_of_bounds (by omega) (by omega), Option.bind_some]
  generalize hmp : (f.month + 9) % 12 = mp at hcivil ⊢
  rw [i128_of_bounds (by omega) (by omega), Option.bind_some]
  generalize hdoy : (153 * mp + 2) / 5 + f.day - 1 = doy at hcivil ⊢
  rw [i128_of_bounds (by omega) (by omega), Option.bind_some]
  generalize hdoe : yoe * 365 + yoe / 4 - yoe / 100 + doy = doe at hcivil ⊢
  rw [i128_of_bounds (by omega) (by omega), Option.bind_some]
  generalize hdays : era * 146097 + doe - 719468 = days at hcivil ⊢
  have hbefore : f.year < 0 → days < -1000 := by omega
  rw [i128_of_bounds (by omega) (by omega), Option.bind_some, i128_of_bounds (by omega) (by omega)]
  refine ⟨_, rfl, fun hy => ?_, fun hy => ?_⟩
  · rw [hcivil hy]
  · have hdays' := hbefore hy
    omega

/-! ### What the reader checks -/

/-- The checks of the reader: which bytes it looks at, which pieces are numbers, and their ranges. -/
structure Checked (bytes : List UInt8) (f : Fields) : Prop where
  long : 20 ≤ bytes.length
  dash : bytes[4]? = some 45
  tee : bytes[10]? = some 84
  year : num bytes 0 4 = some f.year
  month : num bytes 5 7 = some f.month
  day : num bytes 8 10 = some f.day
  hour : num bytes 11 13 = some f.hour
  minute : num bytes 14 16 = some f.minute
  second : num bytes 17 19 = some f.second
  monthRange : 1 ≤ f.month ∧ f.month ≤ 12
  dayRange : 1 ≤ f.day ∧ f.day ≤ 31
  since : 0 ≤ f.year ∧ 0 ≤ secondsFrom f

/-- What it does not check. -/
structure Unchecked (bytes : List UInt8) (f : Fields) : Prop where
  length : bytes.length = 24
  dash : bytes[7]? = some 45
  colons : bytes[13]? = some 58 ∧ bytes[16]? = some 58
  dot : bytes[19]? = some 46
  zone : bytes[23]? = some 90
  unsigned : ∀ range ∈ [(0, 4), (5, 2), (8, 2), (11, 2), (14, 2), (17, 2), (20, 3)],
    ∀ b ∈ (bytes.drop range.1).take range.2, isDigit b = true
  day : f.day ≤ daysInMonth f.year.toNat f.month.toNat
  time : f.hour < 24 ∧ f.minute < 60 ∧ f.second < 60

section

variable {ts : String} {f : Fields}

lemma Checked.small (h : Checked (asBytes ts) f) : Small f := by
  have hyear := num_bounds h.year
  have hhour := num_bounds h.hour
  have hminute := num_bounds h.minute
  have hsecond := num_bounds h.second
  norm_num at hyear hhour hminute hsecond
  exact ⟨by omega, h.monthRange, h.dayRange, by omega, by omega, by omega⟩

/-- Where all checks pass, the text is read as what its fields name, if that fits. -/
lemma Checked.isoToEpochMs (h : Checked (asBytes ts) f) :
    isoToEpochMs ts =
      let total := (secondsFrom f).toNat * 1000 +
        ((num (asBytes ts) 20 23).getD 0 % 2 ^ 128).toNat
      if total < 2 ^ 128 then some (some total) else none := by
  obtain ⟨secs, hsecs, heq, -⟩ := secondsOf_eq h.small
  obtain rfl := heq h.since.1
  have hread : readFields (asBytes ts) =
      some { f with milli := (num (asBytes ts) 20 23).getD 0 } := by
    simp only [readFields, h.year, h.month, h.day, h.hour, h.minute, h.second, Option.bind_eq_bind,
      Option.bind_some, Option.pure_def]
  have hsecs' : secondsOf { f with milli := (num (asBytes ts) 20 23).getD 0 } =
      some (secondsFrom f) := hsecs
  have hlong := h.long
  rw [Langfuse.isoToEpochMs]
  simp only [hread]
  rw [if_neg (by simp [h.dash, h.tee]; omega), if_neg (by have := h.monthRange; have := h.dayRange; omega),
    hsecs', Option.bind_eq_bind, Option.bind_some, if_neg (Int.not_lt.mpr h.since.2)]
  rfl

/-- Where a check fails, the text is dropped. -/
lemma isoToEpochMs_of_not_checked (h : ∀ f, ¬Checked (asBytes ts) f) :
    isoToEpochMs ts = some none := by
  rw [isoToEpochMs]
  dsimp only
  split
  · rfl
  · rename_i hform
    simp only [not_or, not_not, Nat.not_lt] at hform
    obtain ⟨hlong, hdash, htee⟩ := hform
    split
    · rfl
    · rename_i f hread
      split
      · rfl
      · rename_i hrange
        simp only [not_or, not_not] at hrange
        simp only [readFields, Option.bind_eq_bind, Option.bind_eq_some_iff, Option.pure_def] at hread
        obtain ⟨year, hyear, month, hmonth, day, hday, hour, hhour, minute, hminute, second, hsecond, hf⟩ :=
          hread
        obtain rfl := Option.some.inj hf
        have hyear' := num_bounds hyear
        have hhour' := num_bounds hhour
        have hminute' := num_bounds hminute
        have hsecond' := num_bounds hsecond
        norm_num at hyear' hhour' hminute' hsecond'
        obtain ⟨secs, hsecs, heq, hneg⟩ := @secondsOf_eq ⟨year, month, day, hour, minute, second, _⟩
          ⟨by dsimp only; omega, hrange.1, hrange.2, by dsimp only; omega, by dsimp only; omega,
            by dsimp only; omega⟩
        rw [hsecs, Option.bind_eq_bind, Option.bind_some]
        by_cases hsince : secs < 0
        · rw [if_pos hsince]
          rfl
        · have hpos : 0 ≤ year := by
            by_contra hnegative
            exact hsince (hneg (Int.not_le.mp hnegative))
          refine absurd ⟨hlong, hdash, htee, hyear, hmonth, hday, hhour, hminute, hsecond, hrange.1,
            hrange.2, hpos, ?_⟩ (h ⟨year, month, day, hour, minute, second, _⟩)
          rw [← heq hpos]
          exact Int.not_lt.mp hsince

/-! ### Texts of dates and times -/

variable {t : DateTime}

/-- The fields of a text that spells a date and a time. -/
lemma Spells.fields (h : Spells (asBytes ts) t) (hyear : t.year ≤ 9999) :
    num (asBytes ts) 0 4 = some (t.year : Int) ∧ num (asBytes ts) 5 7 = some (t.month : Int) ∧
      num (asBytes ts) 8 10 = some (t.day : Int) ∧ num (asBytes ts) 11 13 = some (t.hour : Int) ∧
      num (asBytes ts) 14 16 = some (t.minute : Int) ∧ num (asBytes ts) 17 19 = some (t.second : Int) ∧
      num (asBytes ts) 20 23 = some (t.milli : Int) := by
  have hmonth := t.month_le
  have hday := day_lt t.toDate
  have hhour := t.hour_lt
  have hminute := t.minute_lt
  have hsecond := t.second_lt
  have hmilli := t.milli_lt
  exact ⟨num_of_field h.year (by decide) (by decide) (by omega) h.dash (by decide),
    num_of_field h.month (by decide) (by decide) (by omega) h.dash' (by decide),
    num_of_field h.day (by decide) (by decide) (by omega) h.tee (by decide),
    num_of_field h.hour (by decide) (by decide) (by omega) h.colon (by decide),
    num_of_field h.minute (by decide) (by decide) (by omega) h.colon' (by decide),
    num_of_field h.second (by decide) (by decide) (by omega) h.dot (by decide),
    num_of_field h.milli (by decide) (by decide) (by omega) h.zone (by decide)⟩

lemma secondsFrom_of (t : DateTime) : secondsFrom (.of t) * 1000 + t.milli = t.millis := by
  have hday := t.day_pos
  rw [DateTime.millis, secondsFrom, Fields.of, Date.days]
  dsimp only
  rw [Int.toNat_natCast, Int.toNat_natCast]
  push_cast [Nat.cast_sub hday]
  omega

lemma Spells.checked (h : Spells (asBytes ts) t) (hyear : t.year ≤ 9999) (hsince : 0 ≤ t.millis) :
    Checked (asBytes ts) (.of t) := by
  obtain ⟨hy, hm, hd, hh, hmin, hs, -⟩ := h.fields hyear
  have hmonth := t.month_pos
  have hmonth' := t.month_le
  have hday := t.day_pos
  have hday' := day_lt t.toDate
  have hmilli := t.milli_lt
  have hseconds := secondsFrom_of t
  refine ⟨?_, h.dash, h.tee, hy, hm, hd, hh, hmin, hs, ?_, ?_, ?_, by omega⟩
  · obtain ⟨hlt, -⟩ := List.getElem?_eq_some_iff.mp h.zone
    omega
  · exact ⟨Int.ofNat_le.mpr hmonth, Int.ofNat_le.mpr hmonth'⟩
  · exact ⟨Int.ofNat_le.mpr hday, Int.ofNat_le.mpr (Nat.le_of_lt_succ hday')⟩
  · exact Int.natCast_nonneg t.year

lemma millis_le (hyear : t.year ≤ 9999) : t.millis ≤ 253402300799999 := by
  have hday := t.ofDay_lt
  have hlt := t.lt_year
  have hmono : daysBeforeYear (t.year + 1) ≤ daysBeforeYear 10000 := daysBeforeYear_mono (by omega)
  rw [daysBeforeYear_tenThousand] at hmono
  rw [t.millis_eq, epoch]
  omega

/-- What a date and a time from the epoch on spell is read back. -/
lemma Spells.isoToEpochMs (h : Spells (asBytes ts) t) (hyear : t.year ≤ 9999) {ms : Nat}
    (hms : t.millis = ms) : isoToEpochMs ts = some (some ms) := by
  have hchecked := h.checked hyear (by omega)
  have hle := millis_le hyear
  have hseconds := secondsFrom_of t
  have hmilli := t.milli_lt
  obtain ⟨-, -, -, -, -, -, hnum⟩ := h.fields hyear
  have hsince := hchecked.since.2
  have htotal : (secondsFrom (.of t)).toNat * 1000 + (((t.milli : Int)) % 2 ^ 128).toNat = ms := by
    rw [Int.emod_eq_of_lt (by omega) (by omega)]
    omega
  rw [hchecked.isoToEpochMs, hnum, Option.getD_some]
  dsimp only
  rw [htotal, if_pos (by omega)]

/-! ### What is written -/

/-- Days from the epoch on are counted in whole numbers as in integers. -/
lemma daysToYmd_eq (days : Nat) {z era doe yoe doy mp : Int} (hz : z = days + 719468)
    (hera : era = z / 146097) (hdoe : doe = z - era * 146097)
    (hyoe : yoe = (doe - doe / 1460 + doe / 36524 - doe / 146096) / 365)
    (hdoy : doy = doe - (365 * yoe + yoe / 4 - yoe / 100)) (hmp : mp = (5 * doy + 2) / 153) :
    ((daysToYmd days).1 : Int) =
        yoe + era * 400 + (if (mp + if mp < 10 then 3 else -9) ≤ 2 then 1 else 0) ∧
      ((daysToYmd days).2.1 : Int) = mp + (if mp < 10 then 3 else -9) ∧
      ((daysToYmd days).2.2 : Int) = doy - (153 * mp + 2) / 5 + 1 := by
  rw [daysToYmd]
  dsimp only
  generalize hzNat : days + 719468 = zNat
  generalize heraNat : zNat / 146097 = eraNat
  generalize hdoeNat : zNat - eraNat * 146097 = doeNat
  generalize hyoeNat : (doeNat - doeNat / 1460 + doeNat / 36524 - doeNat / 146096) / 365 = yoeNat
  have hdoe' : (doeNat : Int) = doe := by omega
  have hyoe' : (yoeNat : Int) = yoe := by omega
  have hyear := year_of_era (show 0 ≤ doe by omega) (by omega) hyoe
  clear hyoeNat hyoe
  subst hyoe'
  generalize hdoyNat : doeNat - (365 * yoeNat + yoeNat / 4 - yoeNat / 100) = doyNat
  have hdoy' : (doyNat : Int) = doy := by omega
  generalize hmpNat : (5 * doyNat + 2) / 153 = mpNat
  have hmp' : (mpNat : Int) = mp := by omega
  have hera' : (eraNat : Int) = era := by omega
  refine ⟨?_, ?_, by omega⟩
  · split_ifs <;> omega
  · split_ifs <;> omega

/-- The minutes and the seconds of a day are those of an hour and of a minute. -/
lemma time_of_day (secs : Nat) :
    secs % 86400 / 60 % 60 = secs % 3600 / 60 ∧ secs % 86400 % 60 = secs % 60 := by
  omega

/-- The text of a moment of the years up to 9999 is that of its date and time. -/
lemma epochMsToIso_eq {ms : Nat} (hyear : t.year ≤ 9999) (hms : t.millis = ms) :
    epochMsToIso ms = text t := by
  have hle := millis_le hyear
  obtain ⟨t', -, hfields, hmillis⟩ := exists_dateTime (show InRange ms from ⟨by omega, by omega⟩)
  obtain rfl := DateTime.millis_injective (hmillis.trans hms.symm)
  have hsecs : ms / 1000 % 2 ^ 64 = ms / 1000 := Nat.mod_eq_of_lt (by omega)
  obtain ⟨hy, hm, hd⟩ := daysToYmd_eq (ms / 1000 / 86400)
    (show (ms : Int) / 1000 / 86400 + 719468 = _ by omega) rfl rfl rfl rfl rfl
  have hy' := hy.trans (congrArg Fields.year hfields)
  have hm' := hm.trans (congrArg Fields.month hfields)
  have hd' := hd.trans (congrArg Fields.day hfields)
  have hhour := congrArg Fields.hour hfields
  have hminute := congrArg Fields.minute hfields
  have hsecond := congrArg Fields.second hfields
  have hmilli := congrArg Fields.milli hfields
  simp only [filenameFields, Fields.of] at hy' hm' hd' hhour hminute hsecond hmilli
  obtain ⟨hminutes, hseconds⟩ := time_of_day (ms / 1000)
  have hhour' : ((ms / 1000 % 86400 / 3600 : Nat) : Int) = t'.hour := by
    rw [← hhour]
    push_cast
    rfl
  have hminute' : ((ms / 1000 % 3600 / 60 : Nat) : Int) = t'.minute := by
    rw [← hminutes, ← hminute]
    push_cast
    rfl
  have hsecond' : ((ms / 1000 % 60 : Nat) : Int) = t'.second := by
    rw [← hseconds, ← hsecond]
    push_cast
    rfl
  have hmilli' : ((ms % 1000 : Nat) : Int) = t'.milli := by
    rw [← hmilli]
    push_cast
    rfl
  have hstamp : _ = stamp t' ':' '.' "".toList := toList_stamp hyear ":" "." "" rfl rfl
  rw [epochMsToIso, hsecs]
  dsimp only
  rw [hy', hm', hd', hhour', hminute', hsecond', hmilli']
  apply String.toList_injective
  rw [text, String.toList_ofList, ← String.toList_empty, ← hstamp, String.append_empty]

/-! ### What is read -/

/-- A text is dropped, or it is a date and a time and is read as that; no computation overflows. -/
def Exact (ts : String) : Prop :=
  ∃ result, Langfuse.isoToEpochMs ts = some result ∧ ∀ ms, result = some ms →
    (∃ t : DateTime, t.year ≤ 9999 ∧ ts = text t ∧ t.millis = ms) ∧ epochMsToIso ms = ts

lemma spells_iff : Spells (asBytes ts) t ↔ ts = text t := by
  rw [← eq_textBytes_iff, ← asBytes_text]
  constructor
  · intro h
    exact String.toList_injective (Utf8Bytes.encode_injective h)
  · rintro rfl
    rfl

/-- A text whose checks pass, and that has what they leave out, is a date and a time. -/
lemma Checked.exists_dateTime (h : Checked (asBytes ts) f) (hrest : Unchecked (asBytes ts) f) :
    ∃ t : DateTime, t.year ≤ 9999 ∧ ts = text t ∧ 0 ≤ t.millis := by
  have hlength := hrest.length
  obtain ⟨hmonth, hmonth'⟩ := h.monthRange
  obtain ⟨hday, -⟩ := h.dayRange
  have hlast := hrest.day
  obtain ⟨hhour, hminute, hsecond⟩ := hrest.time
  have hdigits := hrest.unsigned
  simp only [List.forall_mem_cons, List.not_mem_nil, false_imp_iff, forall_const, and_true] at hdigits
  obtain ⟨hd0, hd5, hd8, hd11, hd14, hd17, hd20⟩ := hdigits
  obtain ⟨y, hy, hylt, hyfield⟩ := field_of_num h.year (by decide) (by decide) (by omega) hd0
  obtain ⟨m, hm, -, hmfield⟩ := field_of_num h.month (by decide) (by decide) (by omega) hd5
  obtain ⟨d, hd, -, hdfield⟩ := field_of_num h.day (by decide) (by decide) (by omega) hd8
  obtain ⟨hr, hhr, -, hhrfield⟩ := field_of_num h.hour (by decide) (by decide) (by omega) hd11
  obtain ⟨mi, hmi, -, hmifield⟩ := field_of_num h.minute (by decide) (by decide) (by omega) hd14
  obtain ⟨sec, hsec, -, hsecfield⟩ := field_of_num h.second (by decide) (by decide) (by omega) hd17
  obtain ⟨hmsvalue, hmsfield⟩ := field_digitsValue hd20
  have hcount : (((asBytes ts).drop 20).take 3).length = 3 := by
    rw [List.length_take, List.length_drop]
    omega
  rw [hcount] at hmsvalue hmsfield
  rw [hy, hm, Int.toNat_natCast, Int.toNat_natCast] at hlast
  let t : DateTime := ⟨⟨y, m, d, by omega, by omega, by omega, by omega⟩, hr, mi, sec, _,
    by omega, by omega, by omega, hmsvalue⟩
  have hspells : Spells (asBytes ts) t := ⟨hyfield, h.dash, hmfield, hrest.dash, hdfield, h.tee, hhrfield,
    hrest.colons.1, hmifield, hrest.colons.2, hsecfield, hrest.dot, hmsfield.symm, hrest.zone,
    List.drop_eq_nil_of_le hlength.le⟩
  have hf : secondsFrom f = secondsFrom (.of t) := by
    rw [secondsFrom, secondsFrom, hy, hm, hd, hhr, hmi, hsec]
    rfl
  have hsince := h.since.2
  have hseconds := secondsFrom_of t
  exact ⟨t, Nat.le_of_lt_succ hylt, spells_iff.mp hspells, by omega⟩

/-- What a date and a time spells has what the checks leave out. -/
lemma Spells.unchecked (h : Spells (asBytes ts) t) (hyear : t.year ≤ 9999)
    (hchecked : Checked (asBytes ts) f) : Unchecked (asBytes ts) f := by
  obtain ⟨hy, hm, hd, hh, hmin, hs, -⟩ := h.fields hyear
  have hfyear := Option.some.inj (hchecked.year.symm.trans hy)
  have hfmonth := Option.some.inj (hchecked.month.symm.trans hm)
  have hfday := Option.some.inj (hchecked.day.symm.trans hd)
  have hfhour := Option.some.inj (hchecked.hour.symm.trans hh)
  have hfminute := Option.some.inj (hchecked.minute.symm.trans hmin)
  have hfsecond := Option.some.inj (hchecked.second.symm.trans hs)
  have hlength : (asBytes ts).length = 24 := by
    obtain ⟨hlt, -⟩ := List.getElem?_eq_some_iff.mp h.zone
    have hle := List.drop_eq_nil_iff.mp h.last
    omega
  have hhour := t.hour_lt
  have hminute := t.minute_lt
  have hsecond := t.second_lt
  refine ⟨hlength, h.dash', ⟨h.colon, h.colon'⟩, h.dot, h.zone, ?_, ?_, by omega, by omega, by omega⟩
  · simp only [List.forall_mem_cons, List.not_mem_nil, false_imp_iff, forall_const, and_true]
    rw [h.year, h.month, h.day, h.hour, h.minute, h.second, h.milli]
    exact ⟨fun _ => isDigit_of_mem_field, fun _ => isDigit_of_mem_field, fun _ => isDigit_of_mem_field,
      fun _ => isDigit_of_mem_field, fun _ => isDigit_of_mem_field, fun _ => isDigit_of_mem_field,
      fun _ => isDigit_of_mem_field⟩
  · rw [hfyear, hfmonth, hfday, Int.toNat_natCast, Int.toNat_natCast]
    exact Int.ofNat_le.mpr t.day_le

/-- A moment whose year has at most four digits is written and read back; and a text is dropped or
read exactly unless it passes the checks of the reader and has not what they leave out. -/
theorem isoToEpochMs_exact_iff (ts : String) :
    (∀ (t : DateTime) (ms : Nat), t.year ≤ 9999 → t.millis = ms →
      Langfuse.isoToEpochMs (epochMsToIso ms) = some (some ms)) ∧
    (Exact ts ↔ ∀ f, Checked (asBytes ts) f → Unchecked (asBytes ts) f) := by
  refine ⟨fun t ms hyear hms => ?_, ?_, fun h => ?_⟩
  · rw [epochMsToIso_eq hyear hms]
    exact Spells.isoToEpochMs (spells_iff.mpr rfl) hyear hms
  · rintro ⟨result, hresult, hexact⟩ f hchecked
    rw [hchecked.isoToEpochMs] at hresult
    dsimp only at hresult
    split at hresult
    · obtain ⟨⟨t, hyear, hts, -⟩, -⟩ := hexact _ (Option.some.inj hresult).symm
      exact (spells_iff.mpr hts).unchecked hyear hchecked
    · cases hresult
  · by_cases hchecked : ∃ f, Checked (asBytes ts) f
    · obtain ⟨f, hchecked⟩ := hchecked
      obtain ⟨t, hyear, rfl, hsince⟩ := hchecked.exists_dateTime (h f hchecked)
      obtain ⟨ms, hms⟩ := Int.eq_ofNat_of_zero_le hsince
      refine ⟨some ms, Spells.isoToEpochMs (spells_iff.mpr rfl) hyear hms, fun ms' heq => ?_⟩
      obtain rfl := Option.some.inj heq
      exact ⟨⟨t, hyear, rfl, hms⟩, epochMsToIso_eq hyear hms⟩
    · exact ⟨none, isoToEpochMs_of_not_checked fun f hf => hchecked ⟨f, hf⟩, fun _ heq => (nomatch heq)⟩

/-- The last day of February is passed by, and the second of March is read. -/
theorem february_thirty_first_is_read : ¬Exact "2024-02-31T00:00:00.000Z" := by
  rintro ⟨result, hresult, hexact⟩
  have hread : Langfuse.isoToEpochMs "2024-02-31T00:00:00.000Z" = some (some 1709337600000) := by
    decide +kernel
  rw [hread] at hresult
  obtain ⟨-, hwritten⟩ := hexact _ (Option.some.inj hresult).symm
  exact absurd hwritten (by decide +kernel)

-- a negative number of milliseconds overflows
example : Langfuse.isoToEpochMs "2024-01-01T00:00:00.-12Z" = none := by decide +kernel

end

end Langfuse
