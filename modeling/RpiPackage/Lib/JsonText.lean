import Mathlib.Data.List.TakeWhile
import RpiPackage.Lib.Decimal
import RpiPackage.Lib.JsonLine

/-!
# Reading JSON

A reader of JSON text, and the text of a value whose numbers are printed in some way. Where every
number is printed as a numeral, the text reads as the value with the numbers that the numerals stand
for. The double that a numeral reads as is a parameter.
-/

namespace Json

variable (double : String → String)

/-! ### Numerals -/

def isExponent : List Char → Bool
  | [] => true
  | c :: cs =>
    let digits := if cs.head? = some '+' || cs.head? = some '-' then cs.tail else cs
    (c == 'e' || c == 'E') && !digits.isEmpty && digits.all Char.isDigit

def isFraction : List Char → Bool
  | [] => true
  | c :: cs =>
    if c = '.' then
      !(cs.takeWhile Char.isDigit).isEmpty && isExponent (cs.dropWhile Char.isDigit)
    else isExponent (c :: cs)

/-- Digits without a zero before them, a fraction and an exponent. -/
def isUnsigned : List Char → Bool
  | [] => false
  | c :: cs =>
    if c = '0' then isFraction cs else c.isDigit && isFraction (cs.dropWhile Char.isDigit)

def natural (n : Nat) : Number :=
  if n < 2 ^ 64 then .posInt (UInt64.ofNat n) else .float (double n.repr)

def negative (n : Nat) : Number :=
  if 0 < n ∧ n ≤ 2 ^ 63 then .negInt (Int64.ofInt (-n)) else .float (double ("-" ++ n.repr))

/-- A numeral with digits only stands for an integer, if there is one with 64 bits. -/
def readNumber (cs : List Char) : Option Number :=
  match cs with
  | [] => none
  | c :: ds =>
    if c = '-' then
      if isUnsigned ds then
        some (if ds.all Char.isDigit then negative double (Nat.ofDigitChars 10 ds 0)
          else .float (double (String.ofList cs)))
      else none
    else if isUnsigned cs then
      some (if cs.all Char.isDigit then natural double (Nat.ofDigitChars 10 cs 0)
        else .float (double (String.ofList cs)))
    else none

/-! ### Literals -/

def hexValue (c : Char) : Option Nat :=
  if '0' ≤ c ∧ c ≤ '9' then some (c.toNat - 48)
  else if 'a' ≤ c ∧ c ≤ 'f' then some (c.toNat - 87)
  else if 'A' ≤ c ∧ c ≤ 'F' then some (c.toNat - 55)
  else none

def readHex : List Char → Option (Nat × List Char)
  | a :: b :: c :: d :: cs => do
    let a ← hexValue a
    let b ← hexValue b
    let c ← hexValue c
    let d ← hexValue d
    return (4096 * a + 256 * b + 16 * c + d, cs)
  | _ => none

/-- The escape of a character; one beyond the first plane is written as two surrogates. -/
def readUnicode (cs : List Char) : Option (Char × List Char) := do
  let (n, cs) ← readHex cs
  if 0xD800 ≤ n ∧ n < 0xDC00 then
    match cs with
    | '\\' :: 'u' :: cs =>
      let (m, cs) ← readHex cs
      if 0xDC00 ≤ m ∧ m < 0xE000 then
        return (Char.ofNat (0x10000 + 0x400 * (n - 0xD800) + (m - 0xDC00)), cs)
      else none
    | _ => none
  else if 0xDC00 ≤ n ∧ n < 0xE000 then none
  else return (Char.ofNat n, cs)

def readEscape : List Char → Option (Char × List Char)
  | [] => none
  | c :: cs =>
    if c = '"' ∨ c = '\\' ∨ c = '/' then some (c, cs)
    else if c = 'b' then some (Char.ofNat 8, cs)
    else if c = 'f' then some (Char.ofNat 12, cs)
    else if c = 'n' then some ('\n', cs)
    else if c = 'r' then some ('\r', cs)
    else if c = 't' then some ('\t', cs)
    else if c = 'u' then readUnicode cs
    else none

/-- The rest of a literal after its first quotation mark. -/
def readString : Nat → List Char → Option (List Char × List Char)
  | 0, _ | _, [] => none
  | n + 1, c :: cs =>
    if c = '"' then some ([], cs)
    else if c = '\\' then do
      let (c, cs) ← readEscape cs
      let (s, cs) ← readString n cs
      return (c :: s, cs)
    else if c.toNat < 32 then none
    else do
      let (s, cs) ← readString n cs
      return (c :: s, cs)

/-! ### Values -/

def isBlank (c : Char) : Bool := c == ' ' || c == '\n' || c == '\r' || c == '\t'

def skipBlanks (cs : List Char) : List Char := cs.dropWhile isBlank

def isNumeric (c : Char) : Bool := c.isDigit || c ∈ "+-.eE".toList

/-- A later field takes the place of an earlier one with its key. -/
def collect (fields : List (String × Value)) : List (String × Value) :=
  fields.foldl (fun fields field => Value.setField fields field.1 field.2) []

mutual
/-- A value and the text after it, in at most so many steps. -/
def readValue : Nat → List Char → Option (Value × List Char)
  | 0, _ => none
  | n + 1, cs =>
    match skipBlanks cs with
    | [] => none
    | c :: cs =>
      if c = '"' then do
        let (s, cs) ← readString n cs
        return (.string (String.ofList s), cs)
      else if c = '[' then
        if (skipBlanks cs).head? = some ']' then some (.array [], (skipBlanks cs).tail)
        else do
          let (xs, cs) ← readItems n cs
          return (.array xs, cs)
      else if c = '\x7b' then
        if (skipBlanks cs).head? = some '\x7d' then some (.object [], (skipBlanks cs).tail)
        else do
          let (fields, cs) ← readFields n cs
          return (.object (collect fields), cs)
      else if "null".toList.isPrefixOf (c :: cs) then some (.null, cs.drop 3)
      else if "true".toList.isPrefixOf (c :: cs) then some (.bool true, cs.drop 3)
      else if "false".toList.isPrefixOf (c :: cs) then some (.bool false, cs.drop 4)
      else do
        let x ← readNumber double ((c :: cs).takeWhile isNumeric)
        return (.number x, (c :: cs).dropWhile isNumeric)

/-- The items of an array up to its end. -/
def readItems : Nat → List Char → Option (List Value × List Char)
  | 0, _ => none
  | n + 1, cs => do
    let (x, cs) ← readValue n cs
    match skipBlanks cs with
    | [] => none
    | c :: cs =>
      if c = ',' then do
        let (xs, cs) ← readItems n cs
        return (x :: xs, cs)
      else if c = ']' then return ([x], cs)
      else none

/-- The fields of an object up to its end. -/
def readFields : Nat → List Char → Option (List (String × Value) × List Char)
  | 0, _ => none
  | n + 1, cs =>
    match skipBlanks cs with
    | [] => none
    | c :: cs =>
      if c = '"' then do
        let (key, cs) ← readString n cs
        match skipBlanks cs with
        | [] => none
        | c :: cs =>
          if c = ':' then do
            let (x, cs) ← readValue n cs
            match skipBlanks cs with
            | [] => none
            | c :: cs =>
              if c = ',' then do
                let (fields, cs) ← readFields n cs
                return ((String.ofList key, x) :: fields, cs)
              else if c = '\x7d' then return ([(String.ofList key, x)], cs)
              else none
          else none
      else none
end

/-- The value of a text, which has nothing after it but blanks. -/
def parse (text : String) : Option Value := do
  let (v, cs) ← readValue double (text.length + 1) text.toList
  if skipBlanks cs = [] then some v else none

/-! ### Writing -/

namespace Value

variable (number : Number → String)

mutual
/-- The text of a value whose numbers are printed in some way. -/
def text : Value → List Char
  | .null => "null".toList
  | .bool b => (if b then "true" else "false").toList
  | .number n => (number n).toList
  | .string s => (quote s).toList
  | .array xs => '[' :: (textItems xs ++ [']'])
  | .object fields => '\x7b' :: (textFields fields ++ ['\x7d'])

def textItems : List Value → List Char
  | [] => []
  | x :: xs => text x ++ (if xs = [] then [] else [',']) ++ textItems xs

def textFields : List (String × Value) → List Char
  | [] => []
  | (key, x) :: fields =>
    (quote key).toList ++ ':' :: text x ++ (if fields = [] then [] else [',']) ++ textFields fields
end

mutual
/-- Every number meets a condition, and every object has each of its keys once. -/
def Proper (P : Number → Prop) : Value → Prop
  | .null | .bool _ | .string _ => True
  | .number n => P n
  | .array xs => ProperItems P xs
  | .object fields => (fields.map Prod.fst).Nodup ∧ ProperFields P fields

def ProperItems (P : Number → Prop) : List Value → Prop
  | [] => True
  | x :: xs => Proper P x ∧ ProperItems P xs

def ProperFields (P : Number → Prop) : List (String × Value) → Prop
  | [] => True
  | (_, x) :: fields => Proper P x ∧ ProperFields P fields
end

mutual
def mapNumbers (f : Number → Number) : Value → Value
  | .null => .null
  | .bool b => .bool b
  | .number n => .number (f n)
  | .string s => .string s
  | .array xs => .array (mapItems f xs)
  | .object fields => .object (mapFields f fields)

def mapItems (f : Number → Number) : List Value → List Value
  | [] => []
  | x :: xs => mapNumbers f x :: mapItems f xs

def mapFields (f : Number → Number) : List (String × Value) → List (String × Value)
  | [] => []
  | (key, x) :: fields => (key, mapNumbers f x) :: mapFields f fields
end

mutual
lemma proper_mono {P Q : Number → Prop} (hmono : ∀ n, P n → Q n) : ∀ {v : Value}, v.Proper P → v.Proper Q
  | .null, _ | .bool _, _ | .string _, _ => trivial
  | .number n, h => hmono n h
  | .array xs, h => properItems_mono hmono (show ProperItems P xs from h)
  | .object _, h => ⟨h.1, properFields_mono hmono h.2⟩

lemma properItems_mono {P Q : Number → Prop} (hmono : ∀ n, P n → Q n) :
    ∀ {xs : List Value}, ProperItems P xs → ProperItems Q xs
  | [], _ => trivial
  | _ :: _, h => ⟨proper_mono hmono h.1, properItems_mono hmono h.2⟩

lemma properFields_mono {P Q : Number → Prop} (hmono : ∀ n, P n → Q n) :
    ∀ {fields : List (String × Value)}, ProperFields P fields → ProperFields Q fields
  | [], _ => trivial
  | (_, _) :: _, h => ⟨proper_mono hmono h.1, properFields_mono hmono h.2⟩
end

end Value

/-! ### Numerals -/

variable {double : String → String} {n : Nat} {c : Char} {cs rest : List Char}

lemma isUnsigned_toDigits (n : Nat) : isUnsigned (Nat.toDigits 10 n) = true := by
  have hall : ∀ c ∈ Nat.toDigits 10 n, c.isDigit = true := fun c hc =>
    Nat.isDigit_of_mem_toDigits (by decide) (by decide) hc
  by_cases hzero : n = 0
  · subst hzero
    decide
  · cases hdigits : Nat.toDigits 10 n with
    | nil => exact absurd hdigits Nat.toDigits_ne_nil
    | cons c cs =>
      rw [hdigits] at hall
      have hrest : cs.dropWhile Char.isDigit = [] :=
        List.dropWhile_eq_nil_iff.mpr fun d hd => hall d (List.mem_cons_of_mem _ hd)
      have hfirst : c ≠ '0' := by
        rintro rfl
        exact Decimal.head_toDigits_ne_zero hzero hdigits
      simp [isUnsigned, hfirst, hall c List.mem_cons_self, hrest, isFraction]

lemma all_isDigit_toDigits (n : Nat) : (Nat.toDigits 10 n).all Char.isDigit = true :=
  List.all_eq_true.mpr fun _ hc => Nat.isDigit_of_mem_toDigits (by decide) (by decide) hc

lemma readNumber_natural (n : Nat) :
    readNumber double (Nat.toDigits 10 n) = some (natural double n) := by
  have hunsigned := isUnsigned_toDigits n
  have hall := all_isDigit_toDigits n
  have hvalue : Nat.ofDigitChars 10 (Nat.toDigits 10 n) 0 = n := Nat.ofDigitChars_ten_toDigits
  generalize Nat.toDigits 10 n = ds at *
  cases ds with
  | nil => cases hunsigned
  | cons c cs =>
    have hminus : c ≠ '-' := by
      rintro rfl
      simp [isUnsigned] at hunsigned
    simp only [readNumber, if_neg hminus, if_pos hunsigned, if_pos hall, hvalue]

lemma readNumber_negative (n : Nat) :
    readNumber double ('-' :: Nat.toDigits 10 n) = some (negative double n) := by
  have hvalue : Nat.ofDigitChars 10 (Nat.toDigits 10 n) 0 = n := Nat.ofDigitChars_ten_toDigits
  simp only [readNumber, if_pos (isUnsigned_toDigits n), if_pos (all_isDigit_toDigits n), hvalue,
    ↓reduceIte]

/-! ### Literals -/

lemma hexValue_hexDigit : ∀ n < 16, hexValue (Value.hexDigit n) = some n := by decide

lemma readHex_control (h : n < 32) (cs : List Char) :
    readHex ('0' :: '0' :: Value.hexDigit (n / 16) :: Value.hexDigit (n % 16) :: cs) = some (n, cs) := by
  have hzero : hexValue '0' = some 0 := by decide
  have hvalue : 4096 * 0 + 256 * 0 + 16 * (n / 16) + n % 16 = n := by omega
  simp only [readHex, hzero, hexValue_hexDigit (n / 16) (by omega),
    hexValue_hexDigit (n % 16) (Nat.mod_lt _ (by decide)), Option.bind_eq_bind, Option.bind_some, hvalue]
  rfl

lemma readEscape_control (h : c.toNat < 32) (cs : List Char) :
    readEscape ('u' :: '0' :: '0' :: Value.hexDigit (c.toNat / 16) ::
      Value.hexDigit (c.toNat % 16) :: cs) = some (c, cs) := by
  have hunicode : readUnicode ('0' :: '0' :: Value.hexDigit (c.toNat / 16) ::
      Value.hexDigit (c.toNat % 16) :: cs) = some (c, cs) := by
    simp only [readUnicode, readHex_control h, Option.bind_eq_bind, Option.bind_some]
    rw [if_neg (by omega), if_neg (by omega), Char.ofNat_toNat]
    rfl
  rw [← hunicode]
  rfl

lemma readString_escape {e : Char} {es : List Char} (h : ∀ cs, readEscape (e :: es ++ cs) = some (c, cs))
    (cs : List Char) : readString (n + 1) ('\\' :: (e :: es) ++ cs) =
      (readString n cs).map fun p => (c :: p.1, p.2) := by
  rw [List.cons_append, readString, if_neg (by decide), if_pos rfl, h, Option.bind_eq_bind,
    Option.bind_some]
  show (readString n cs).bind _ = _
  cases readString n cs <;> rfl

/-- A character is read as it was written. -/
lemma readString_escapeChar (c : Char) (cs : List Char) :
    readString (n + 1) ((Value.escapeChar c).toList ++ cs) =
      (readString n cs).map fun p => (c :: p.1, p.2) := by
  rw [Value.escapeChar]
  split
  · rename_i hc
    subst hc
    exact readString_escape (fun _ => rfl) cs
  rename_i hquote
  split
  · rename_i hc
    subst hc
    exact readString_escape (fun _ => rfl) cs
  rename_i hslash
  split
  · rename_i hc
    subst hc
    exact readString_escape (fun _ => rfl) cs
  split
  · rename_i hc
    subst hc
    exact readString_escape (fun _ => rfl) cs
  split
  · rename_i hc
    subst hc
    exact readString_escape (fun _ => rfl) cs
  split
  · rename_i hc
    obtain rfl : c = Char.ofNat 8 := by rw [← hc, Char.ofNat_toNat]
    exact readString_escape (fun _ => rfl) cs
  split
  · rename_i hc
    obtain rfl : c = Char.ofNat 12 := by rw [← hc, Char.ofNat_toNat]
    exact readString_escape (fun _ => rfl) cs
  split
  · rename_i hc
    rw [String.toList_append]
    show readString (n + 1) (['\\', 'u', '0', '0'] ++ (String.ofList _).toList ++ cs) = _
    rw [String.toList_ofList]
    exact @readString_escape n c 'u' ['0', '0', Value.hexDigit (c.toNat / 16),
      Value.hexDigit (c.toNat % 16)] (fun cs => readEscape_control hc cs) cs
  · rename_i hlarge
    rw [Char.toString_eq_singleton, String.toList_singleton, List.singleton_append, readString,
      if_neg hquote, if_neg hslash, if_neg hlarge]
    cases readString n cs <;> rfl

lemma readString_literal (s : List Char) (rest : List Char) :
    ∀ n, s.length < n →
      readString n (s.flatMap (fun c => (Value.escapeChar c).toList) ++ '"' :: rest) = some (s, rest) := by
  induction s with
  | nil =>
    intro n hn
    obtain ⟨n, rfl⟩ := Nat.exists_eq_add_of_lt hn
    rw [List.flatMap_nil, List.nil_append, readString, if_pos rfl]
  | cons c s ih =>
    intro n hn
    obtain ⟨n, rfl⟩ := Nat.exists_eq_add_of_lt hn
    rw [List.flatMap_cons, List.append_assoc, readString_escapeChar, ih _ (by
      rw [List.length_cons]
      omega)]
    rfl

/-! ### Values -/

variable {number : Number → String} {f : Number → Number}

/-- A number is printed as a numeral that stands for a number. -/
def Prints (double : String → String) (number : Number → String) (f : Number → Number) (n : Number) :
    Prop :=
  readNumber double (number n).toList = some (f n) ∧ ∀ c ∈ (number n).toList, isNumeric c = true

/-- A number ends before the text after it. -/
def Ends (rest : List Char) : Prop := ∀ c, rest.head? = some c → isNumeric c = false

lemma takeWhile_append (hcs : ∀ c ∈ cs, isNumeric c = true) (hrest : Ends rest) :
    (cs ++ rest).takeWhile isNumeric = cs ∧ (cs ++ rest).dropWhile isNumeric = rest := by
  induction cs with
  | nil =>
    cases rest with
    | nil => exact ⟨rfl, rfl⟩
    | cons c rest =>
      have hc := hrest c rfl
      rw [List.nil_append, List.takeWhile_cons, List.dropWhile_cons, hc]
      exact ⟨rfl, rfl⟩
  | cons c cs ih =>
    obtain ⟨htake, hdrop⟩ := ih fun d hd => hcs d (List.mem_cons_of_mem _ hd)
    rw [List.cons_append, List.takeWhile_cons, List.dropWhile_cons, hcs c List.mem_cons_self]
    exact ⟨congrArg (c :: ·) htake, hdrop⟩

/-- No value starts with a blank or with a bracket that ends an array or an object. -/
lemma head_text {v : Value} (hv : v.Proper (Prints double number f)) :
    ∃ c cs, v.text number = c :: cs ∧ isBlank c = false ∧ c ≠ ']' ∧ c ≠ '\x7d' := by
  cases v with
  | null => exact ⟨'n', "ull".toList, rfl, by decide, by decide, by decide⟩
  | bool b =>
    cases b with
    | false => exact ⟨'f', "alse".toList, rfl, by decide, by decide, by decide⟩
    | true => exact ⟨'t', "rue".toList, rfl, by decide, by decide, by decide⟩
  | number n =>
    obtain ⟨hread, hall⟩ := hv
    rw [Value.text]
    cases htext : (number n).toList with
    | nil => simp [htext, readNumber] at hread
    | cons c cs =>
      rw [htext] at hall
      have hc := hall c List.mem_cons_self
      refine ⟨c, cs, rfl, ?_, ?_, ?_⟩
      · by_contra hblank
        rw [Bool.not_eq_false] at hblank
        simp only [isBlank, Bool.or_eq_true, beq_iff_eq] at hblank
        rcases hblank with ((rfl | rfl) | rfl) | rfl <;> cases hc
      · rintro rfl
        cases hc
      · rintro rfl
        cases hc
  | string s =>
    rw [Value.text, Value.toList_quote]
    exact ⟨_, _, rfl, by decide, by decide, by decide⟩
  | array xs => exact ⟨_, _, rfl, by decide, by decide, by decide⟩
  | object fields => exact ⟨_, _, rfl, by decide, by decide, by decide⟩

lemma skipBlanks_cons (h : isBlank c = false) (cs : List Char) : skipBlanks (c :: cs) = c :: cs :=
  List.dropWhile_cons_of_neg (by rw [h]; decide)

lemma ends_cons (h : isNumeric c = false) (cs : List Char) : Ends (c :: cs) := by
  rintro d ⟨⟩
  exact h

lemma length_le_escape (s : List Char) :
    s.length ≤ (s.flatMap fun c => (Value.escapeChar c).toList).length := by
  induction s with
  | nil => exact Nat.le_refl _
  | cons c s ih =>
    have hpos := List.length_pos_iff.mpr (Value.escapeChar_ne_nil c)
    rw [List.flatMap_cons, List.length_append, List.length_cons]
    omega

lemma readString_quote (s : String) (rest : List Char) (h : (Value.quote s).toList.length ≤ n + 1) :
    ∃ cs, (Value.quote s).toList ++ rest = '"' :: cs ∧ readString n cs = some (s.toList, rest) := by
  rw [Value.toList_quote, List.length_cons, List.length_append, List.length_singleton] at h
  have hlength := length_le_escape s.toList
  refine ⟨_, by rw [Value.toList_quote, List.cons_append], ?_⟩
  rw [List.append_assoc, List.singleton_append]
  exact readString_literal s.toList rest n (by omega)

lemma setField_of_not_mem {fields : List (String × Value)} {key : String}
    (h : key ∉ fields.map Prod.fst) (x : Value) : Value.setField fields key x = fields ++ [(key, x)] := by
  induction fields with
  | nil => rfl
  | cons field fields ih =>
    rw [List.map_cons, List.mem_cons, not_or] at h
    rw [Value.setField, if_neg (Ne.symm h.1), ih h.2, List.cons_append]

lemma collect_eq {fields : List (String × Value)} (h : (fields.map Prod.fst).Nodup) :
    collect fields = fields := by
  have hgen : ∀ left right : List (String × Value), ((left ++ right).map Prod.fst).Nodup →
      right.foldl (fun fields field => Value.setField fields field.1 field.2) left = left ++ right := by
    intro left right
    induction right generalizing left with
    | nil => exact fun _ => (List.append_nil left).symm
    | cons field right ih =>
      intro hnodup
      have hnew : field.1 ∉ left.map Prod.fst := by
        rw [List.map_append, List.nodup_append] at hnodup
        exact fun hmem => hnodup.2.2 _ hmem _ List.mem_cons_self rfl
      rw [List.foldl_cons, setField_of_not_mem hnew, ih _ (by simpa using hnodup)]
      simp
  exact hgen [] fields h

lemma map_fst_mapFields (fields : List (String × Value)) :
    (Value.mapFields f fields).map Prod.fst = fields.map Prod.fst := by
  induction fields with
  | nil => rfl
  | cons field fields ih => rw [Value.mapFields, List.map_cons, ih, List.map_cons]

lemma not_isPrefixOf {word : String} {d : Char} {ds : List Char} (hword : word.toList = d :: ds)
    (h : c ≠ d) (cs : List Char) : word.toList.isPrefixOf (c :: cs) = false := by
  rw [hword, List.isPrefixOf, beq_false_of_ne (Ne.symm h), Bool.false_and]

/-- A numeral is read up to its end. -/
lemma readValue_number {x : Number} (hx : Prints double number f x) (hrest : Ends rest) :
    readValue double (n + 1) ((number x).toList ++ rest) = some (.number (f x), rest) := by
  obtain ⟨hread, hall⟩ := hx
  obtain ⟨htake, hdrop⟩ := takeWhile_append hall hrest
  cases htext : (number x).toList with
  | nil => simp [htext, readNumber] at hread
  | cons c cs =>
    rw [htext] at hall htake hdrop hread
    rw [List.cons_append] at htake hdrop ⊢
    have hc := hall c List.mem_cons_self
    have hne : ∀ d, isNumeric d = false → c ≠ d := by
      rintro d hd rfl
      rw [hc] at hd
      cases hd
    have hblank : isBlank c = false := by
      simp only [isBlank, Bool.or_eq_false_iff, beq_eq_false_iff_ne]
      exact ⟨⟨⟨hne _ (by decide), hne _ (by decide)⟩, hne _ (by decide)⟩, hne _ (by decide)⟩
    rw [readValue, skipBlanks_cons hblank]
    simp only [if_neg (hne '"' (by decide)), if_neg (hne '[' (by decide)),
      if_neg (hne '\x7b' (by decide)),
      not_isPrefixOf (rfl : "null".toList = _) (hne 'n' (by decide)),
      not_isPrefixOf (rfl : "true".toList = _) (hne 't' (by decide)),
      not_isPrefixOf (rfl : "false".toList = _) (hne 'f' (by decide)), htake, hdrop, hread,
      Bool.false_eq_true, ↓reduceIte, Option.bind_eq_bind, Option.bind_some]
    rfl

mutual
/-- The text of a value reads as the value with the numbers that its numerals stand for. -/
lemma readValue_text : ∀ (v : Value), v.Proper (Prints double number f) → ∀ n rest, Ends rest →
    (v.text number).length < n →
    readValue double n (v.text number ++ rest) = some (v.mapNumbers f, rest)
  | .null, _, n + 1, rest, _, _ => rfl
  | .bool true, _, n + 1, rest, _, _ => rfl
  | .bool false, _, n + 1, rest, _, _ => rfl
  | .number x, hv, n + 1, rest, hrest, _ => readValue_number hv hrest
  | .string s, _, n + 1, rest, _, hn => by
    rw [Value.text] at hn ⊢
    obtain ⟨cs, hcs, hread⟩ := readString_quote s rest (n := n) (by omega)
    rw [hcs, readValue, skipBlanks_cons (by decide)]
    simp only [↓reduceIte, hread, Option.bind_eq_bind, Option.bind_some, String.ofList_toList]
    rfl
  | .array [], _, n + 1, rest, _, _ => rfl
  | .array (x :: xs), hv, n + 1, rest, _, hn => by
    have hitems := readItems_text (x :: xs) hv (List.cons_ne_nil _ _) n rest (by
      rw [Value.text, List.length_cons, List.length_append, List.length_singleton] at hn
      omega)
    obtain ⟨c, cs, hhead, hblank, hbracket, -⟩ := head_text hv.1
    have hcons : Value.textItems number (x :: xs) ++ ']' :: rest =
        c :: (cs ++ (if xs = [] then [] else [',']) ++ Value.textItems number xs ++ ']' :: rest) := by
      rw [Value.textItems, hhead]
      simp only [List.cons_append, List.append_assoc]
    rw [Value.text, List.cons_append, List.append_assoc, List.singleton_append, readValue,
      skipBlanks_cons (by decide)]
    rw [hcons] at hitems ⊢
    simp only [skipBlanks_cons hblank, List.head?_cons, Option.some.injEq, hbracket, hitems,
      Char.reduceEq, ↓reduceIte, Option.bind_eq_bind, Option.bind_some]
    rfl
  | .object [], _, n + 1, rest, _, _ => rfl
  | .object ((key, x) :: fields), hv, n + 1, rest, _, hn => by
    have hfields := readFields_text ((key, x) :: fields) hv.2 (List.cons_ne_nil _ _) n rest (by
      rw [Value.text, List.length_cons, List.length_append, List.length_singleton] at hn
      omega)
    obtain ⟨cs, hcons⟩ : ∃ cs, Value.textFields number ((key, x) :: fields) ++ '\x7d' :: rest =
        '"' :: cs := by
      rw [Value.textFields, Value.toList_quote]
      simp only [List.cons_append]
      exact ⟨_, rfl⟩
    have hcollect : collect (Value.mapFields f ((key, x) :: fields)) =
        Value.mapFields f ((key, x) :: fields) := by
      apply collect_eq
      rw [map_fst_mapFields]
      exact hv.1
    rw [Value.text, List.cons_append, List.append_assoc, List.singleton_append, readValue,
      skipBlanks_cons (by decide)]
    rw [hcons] at hfields ⊢
    simp only [skipBlanks_cons (c := '"') (by decide), List.head?_cons, Option.some.injEq, hfields,
      Char.reduceEq, ↓reduceIte, Option.bind_eq_bind, Option.bind_some, hcollect]
    rfl

lemma readItems_text : ∀ (xs : List Value), Value.ProperItems (Prints double number f) xs → xs ≠ [] →
    ∀ n rest, (Value.textItems number xs).length + 1 < n →
    readItems double n (Value.textItems number xs ++ ']' :: rest) = some (Value.mapItems f xs, rest)
  | [], _, hne, _, _, _ => absurd rfl hne
  | x :: xs, hxs, _, n + 1, rest, hn => by
    have hlength : (x.text number).length < n ∧
        (xs ≠ [] → (Value.textItems number xs).length + 1 < n) := by
      rw [Value.textItems, List.length_append, List.length_append] at hn
      refine ⟨by omega, fun hne => ?_⟩
      rw [if_neg hne, List.length_singleton] at hn
      omega
    have hvalue := readValue_text x hxs.1 n
    have hitems := readItems_text xs hxs.2
    rw [Value.textItems, readItems]
    cases xs with
    | nil =>
      rw [if_pos rfl, List.append_nil, Value.textItems, List.append_nil,
        hvalue (']' :: rest) (ends_cons (by decide) rest) hlength.1]
      rfl
    | cons y ys =>
      rw [if_neg (List.cons_ne_nil y ys), List.append_assoc, List.append_assoc, List.singleton_append,
        hvalue (',' :: _) (ends_cons (by decide) _) hlength.1]
      simp only [Option.bind_eq_bind, Option.bind_some, skipBlanks_cons (c := ',') (by decide),
        ↓reduceIte, hitems (List.cons_ne_nil y ys) n rest (hlength.2 (List.cons_ne_nil y ys))]
      rfl

lemma readFields_text : ∀ (fields : List (String × Value)),
    Value.ProperFields (Prints double number f) fields → fields ≠ [] → ∀ n rest,
    (Value.textFields number fields).length + 1 < n →
    readFields double n (Value.textFields number fields ++ '\x7d' :: rest) =
      some (Value.mapFields f fields, rest)
  | [], _, hne, _, _, _ => absurd rfl hne
  | (key, x) :: fields, hfields, _, n + 1, rest, hn => by
    have hlength : (Value.quote key).toList.length ≤ n + 1 ∧ (x.text number).length < n ∧
        (fields ≠ [] → (Value.textFields number fields).length + 1 < n) := by
      rw [Value.textFields, List.length_append, List.length_append, List.length_append,
        List.length_cons] at hn
      refine ⟨by omega, by omega, fun hne => ?_⟩
      rw [if_neg hne, List.length_singleton] at hn
      omega
    have hvalue := readValue_text x hfields.1 n
    have htail := readFields_text fields hfields.2
    rw [Value.textFields, List.append_assoc, List.append_assoc, List.append_assoc, List.cons_append]
    obtain ⟨cs, hcs, hread⟩ := readString_quote key
      (':' :: (x.text number ++ ((if fields = [] then [] else [',']) ++
        (Value.textFields number fields ++ '\x7d' :: rest)))) hlength.1
    rw [hcs, readFields, skipBlanks_cons (by decide)]
    simp only [↓reduceIte, hread, Option.bind_eq_bind, Option.bind_some,
      skipBlanks_cons (c := ':') (by decide), String.ofList_toList]
    cases fields with
    | nil =>
      rw [if_pos rfl, List.nil_append, Value.textFields, List.nil_append,
        hvalue ('\x7d' :: rest) (ends_cons (by decide) rest) hlength.2.1]
      rfl
    | cons field fields =>
      rw [if_neg (List.cons_ne_nil field fields), List.singleton_append,
        hvalue (',' :: _) (ends_cons (by decide) _) hlength.2.1]
      simp only [Option.bind_some, skipBlanks_cons (c := ',') (by decide), ↓reduceIte,
        htail (List.cons_ne_nil field fields) n rest (hlength.2.2 (List.cons_ne_nil field fields))]
      rfl
end

lemma parse_text {v : Value} (hv : v.Proper (Prints double number f)) {text : String}
    (htext : text.toList = v.text number) : parse double text = some (v.mapNumbers f) := by
  have hread := readValue_text v hv (text.length + 1) [] (fun _ h => nomatch h) (by
    rw [← htext, String.length_toList]
    exact Nat.lt_succ_self _)
  rw [List.append_nil] at hread
  rw [parse, htext, hread]
  rfl

/-! ### Texts with separators -/

lemma toList_intercalate (text : String) (texts : List String) :
    (",".intercalate (text :: texts)).toList =
      text.toList ++ (if texts = [] then [] else [',']) ++ (",".intercalate texts).toList := by
  cases texts with
  | nil => simp
  | cons next texts =>
    rw [String.intercalate_cons_cons, if_neg (List.cons_ne_nil next texts)]
    simp

/-! ### The order of fields -/

namespace Value

lemma beqFields_of_lookup {fields fields' : List (String × Value)}
    (h : ∀ field ∈ fields, ∃ y, fields'.lookup field.1 = some y ∧ field.2.beq y = true) :
    beqFields fields fields' = true := by
  induction fields with
  | nil => rfl
  | cons field fields ih =>
    obtain ⟨key, x⟩ := field
    obtain ⟨y, hlookup, hy⟩ := h (key, x) List.mem_cons_self
    simp only [beqFields, hlookup, hy, Bool.true_and]
    exact ih fun field hfield => h field (List.mem_cons_of_mem _ hfield)

lemma lookup_of_mem {fields : List (String × Value)} (h : (fields.map Prod.fst).Nodup) {key : String}
    {x : Value} (hmem : (key, x) ∈ fields) : fields.lookup key = some x := by
  induction fields with
  | nil => cases hmem
  | cons field fields ih =>
    rw [List.map_cons, List.nodup_cons] at h
    rcases List.mem_cons.mp hmem with rfl | hmem
    · rw [List.lookup_cons, beq_self_eq_true]
    · have hne : key ≠ field.1 := by
        rintro rfl
        exact h.1 (List.mem_map.mpr ⟨_, hmem, rfl⟩)
      rw [List.lookup_cons, beq_false_of_ne hne]
      exact ih h.2 hmem

end Value

end Json
