import Mathlib.Algebra.Group.Nat.Defs
import Mathlib.Data.List.Basic
import Mathlib.Tactic.Common

/-!
# JSON values

The in-memory JSON tree that `serde_json` programs pass around, with its accessors and its
compact text. Objects are association lists; a well formed object has each key once, and every
accessor reads the first binding of a key.
-/

namespace Json

/-- A JSON number, in the three forms a parsed value can have. A double is held as the shortest
decimal text that prints it, so equal doubles are equal numbers. -/
inductive Number where
  | posInt (n : UInt64)
  | negInt (n : Int64)
  | float (text : String)
  deriving DecidableEq, Repr

/-- The two zeros of the doubles are equal. -/
def Number.beq : Number → Number → Bool
  | .posInt n, .posInt m => n == m
  | .negInt n, .negInt m => n == m
  | .float a, .float b => a == b || ((a == "0.0" || a == "-0.0") && (b == "0.0" || b == "-0.0"))
  | _, _ => false

inductive Value where
  | null
  | bool (b : Bool)
  | number (n : Number)
  | string (s : String)
  | array (xs : List Value)
  | object (fields : List (String × Value))
  deriving Repr

namespace Value

/-! ### Accessors -/

def get (v : Value) (key : String) : Option Value :=
  match v with
  | .object fields => fields.lookup key
  | _ => none

/-- `value["key"]`, which reads an absent field as `null`. -/
def index (v : Value) (key : String) : Value :=
  (v.get key).getD .null

def asStr : Value → Option String
  | .string s => some s
  | _ => none

def asBool : Value → Option Bool
  | .bool b => some b
  | _ => none

def asArray : Value → Option (List Value)
  | .array xs => some xs
  | _ => none

def asU64 : Value → Option UInt64
  | .number (.posInt n) => some n
  | _ => none

/-- A number that fits `i64`; a double never does. -/
def asI64 : Value → Option Int
  | .number (.posInt n) => if n.toNat < 2 ^ 63 then some n.toNat else none
  | .number (.negInt n) => some n.toInt
  | _ => none

def isNull : Value → Bool
  | .null => true
  | _ => false

def isObject : Value → Bool
  | .object _ => true
  | _ => false

def setField (fields : List (String × Value)) (key : String) (x : Value) :
    List (String × Value) :=
  match fields with
  | [] => [(key, x)]
  | field :: fields =>
    if field.1 = key then (key, x) :: fields else field :: setField fields key x

/-- `value["key"] = x`, which makes an object of `null` and cannot be done to any other value; a
new key goes last. -/
def set (v : Value) (key : String) (x : Value) : Value :=
  match v with
  | .null => .object [(key, x)]
  | .object fields => .object (setField fields key x)
  | v => v

@[simp] lemma get_object (fields : List (String × Value)) (key : String) :
    (object fields).get key = fields.lookup key := rfl

@[simp] lemma asStr_string (s : String) : (string s).asStr = some s := rfl

@[simp] lemma asU64_posInt (n : UInt64) : (number (.posInt n)).asU64 = some n := rfl

@[simp] lemma asBool_bool (b : Bool) : (bool b).asBool = some b := rfl

@[simp] lemma asArray_array (xs : List Value) : (array xs).asArray = some xs := rfl

lemma asStr_eq_some {v : Value} {s : String} : v.asStr = some s ↔ v = .string s := by
  cases v <;> simp [asStr]

lemma asArray_eq_some {v : Value} {xs : List Value} : v.asArray = some xs ↔ v = .array xs := by
  cases v <;> simp [asArray]

lemma lookup_setField (fields : List (String × Value)) (key key' : String) (x : Value) :
    (setField fields key x).lookup key' =
      if key' = key then some x else fields.lookup key' := by
  induction fields with
  | nil =>
    by_cases h : key' = key
    · simp [setField, h]
    · simp [setField, List.lookup_cons, beq_false_of_ne h, h]
  | cons field fields ih =>
    obtain ⟨name, y⟩ := field
    unfold setField
    by_cases hname : name = key
    · subst hname
      by_cases h : key' = name
      · simp [h]
      · simp [List.lookup_cons, beq_false_of_ne h, h]
    · rw [if_neg hname, List.lookup_cons, List.lookup_cons, ih]
      by_cases h : key' = key
      · subst h
        simp [beq_false_of_ne (Ne.symm hname)]
      · simp [h]

/-- An assignment leaves the other fields alone. -/
lemma get_set_ne (v : Value) {key key' : String} (hkey : key' ≠ key) (x : Value) :
    (v.set key x).get key' = v.get key' := by
  cases v with
  | null =>
    rw [set, get_object, List.lookup_cons, beq_false_of_ne hkey]
    rfl
  | object fields => rw [set, get_object, lookup_setField, if_neg hkey, get_object]
  | bool | number | string | array => rfl

lemma index_set_ne (v : Value) {key key' : String} (hkey : key' ≠ key) (x : Value) :
    (v.set key x).index key' = v.index key' := by
  rw [index, get_set_ne v hkey, index]

lemma index_set_self (fields : List (String × Value)) (key : String) (x : Value) :
    ((object fields).set key x).index key = x := by
  rw [set, index, get_object, lookup_setField, if_pos rfl, Option.getD_some]

/-- A value with a field that is not `null` is an object. -/
lemma exists_object_of_index {v : Value} {key : String} (h : v.index key ≠ .null) :
    ∃ fields, v = .object fields := by
  cases v with
  | object fields => exact ⟨fields, rfl⟩
  | null | bool | number | string | array => exact absurd rfl h

lemma exists_object_of_asStr {v : Value} {key s : String} (h : (v.index key).asStr = some s) :
    ∃ fields, v = .object fields :=
  exists_object_of_index fun hnull => by rw [hnull] at h; cases h

lemma exists_object_of_asArray {v : Value} {key : String} {xs : List Value}
    (h : (v.index key).asArray = some xs) : ∃ fields, v = .object fields :=
  exists_object_of_index fun hnull => by rw [hnull] at h; cases h

/-! ### Equality -/

mutual
/-- Two objects are equal when they have the same fields, in whatever order. -/
def beq : Value → Value → Bool
  | .null, .null => true
  | .bool a, .bool b => a == b
  | .number a, .number b => a.beq b
  | .string a, .string b => a == b
  | .array xs, .array ys => beqItems xs ys
  | .object fields, .object fields' =>
    fields.length == fields'.length && beqFields fields fields'
  | _, _ => false

def beqItems : List Value → List Value → Bool
  | [], [] => true
  | x :: xs, y :: ys => beq x y && beqItems xs ys
  | _, _ => false

def beqFields : List (String × Value) → List (String × Value) → Bool
  | [], _ => true
  | (key, x) :: fields, fields' =>
    match fields'.lookup key with
    | some y => beq x y && beqFields fields fields'
    | none => false
end

/-! ### Compact text -/

def hexDigit (n : Nat) : Char := "0123456789abcdef".toList.getD n '0'

/-- One character of a string literal, escaped as the compact formatter does. -/
def escapeChar (c : Char) : String :=
  if c = '"' then "\\\""
  else if c = '\\' then "\\\\"
  else if c = '\n' then "\\n"
  else if c = '\r' then "\\r"
  else if c = '\t' then "\\t"
  else if c.toNat = 8 then "\\b"
  else if c.toNat = 12 then "\\f"
  else if c.toNat < 32 then
    "\\u00" ++ String.ofList [hexDigit (c.toNat / 16), hexDigit (c.toNat % 16)]
  else c.toString

def quote (s : String) : String :=
  "\"" ++ String.join (s.toList.map escapeChar) ++ "\""

end Value

def Number.compact : Number → String
  | .posInt n => toString n
  | .negInt n => toString n
  | .float text => text

namespace Value

mutual
/-- The text `to_string` and `to_vec` write: no blanks, fields in the order they are held. -/
def compact : Value → String
  | .null => "null"
  | .bool b => if b then "true" else "false"
  | .number n => n.compact
  | .string s => quote s
  | .array xs => "[" ++ ",".intercalate (compactItems xs) ++ "]"
  | .object fields => "\x7b" ++ ",".intercalate (compactFields fields) ++ "\x7d"

def compactItems : List Value → List String
  | [] => []
  | x :: xs => compact x :: compactItems xs

def compactFields : List (String × Value) → List String
  | [] => []
  | (key, x) :: fields => (quote key ++ ":" ++ compact x) :: compactFields fields
end

/-- The number of bytes `to_vec` produces. -/
def compactSize (v : Value) : Nat := v.compact.utf8ByteSize

/-! ### Pretty text -/

/-- A new line of the pretty formatter, which indents by two blanks. -/
def newline (depth : Nat) : String := "\n" ++ String.ofList (List.replicate (2 * depth) ' ')

mutual
/-- The text `to_vec_pretty` writes: every item and every field on a line of its own. -/
def prettyAt (depth : Nat) : Value → String
  | .array (x :: xs) =>
    "[" ++ ",".intercalate (prettyItems (depth + 1) (x :: xs)) ++ newline depth ++ "]"
  | .object (field :: fields) =>
    "\x7b" ++ ",".intercalate (prettyFields (depth + 1) (field :: fields)) ++ newline depth ++ "\x7d"
  | .array [] => "[]"
  | .object [] => "\x7b\x7d"
  | .null => "null"
  | .bool b => if b then "true" else "false"
  | .number n => n.compact
  | .string s => quote s

def prettyItems (depth : Nat) : List Value → List String
  | [] => []
  | x :: xs => (newline depth ++ prettyAt depth x) :: prettyItems depth xs

def prettyFields (depth : Nat) : List (String × Value) → List String
  | [] => []
  | (key, x) :: fields =>
    (newline depth ++ quote key ++ ": " ++ prettyAt depth x) :: prettyFields depth fields
end

/-- The number of bytes `to_vec_pretty` produces. -/
def prettySize (v : Value) : Nat := (v.prettyAt 0).utf8ByteSize

end Value

end Json
