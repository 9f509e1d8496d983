import Mathlib.Algebra.GroupWithZero.Nat
import Mathlib.Data.List.Basic
import Mathlib.Tactic.Common

/-!
# JavaScript values

The values that a program gets out of `JSON.parse`, over any type of numbers, with `undefined` for
what an object does not hold. Objects are association lists whose first binding of a key counts.
-/

namespace Js

/-- What programs ask of a number. Equality is `===`, which need not be reflexive. -/
class Numeric (ν : Type*) extends BEq ν where
  /-- `Number.isFinite(n) && n >= 0` -/
  isNonneg : ν → Bool
  /-- Neither a zero nor `NaN`. -/
  isTruthy : ν → Bool
  /-- The integer that the number is when `Number.isSafeInteger(n)`. -/
  toSafeInteger : ν → Option Int

/-- Numbers that are integers. -/
instance : Numeric Int where
  isNonneg n := 0 ≤ n
  isTruthy n := n != 0
  toSafeInteger n := if n.natAbs < 2 ^ 53 then some n else none

inductive Value (ν : Type*) where
  | undefined
  | null
  | bool (b : Bool)
  | number (n : ν)
  | string (s : String)
  | array (items : List (Value ν))
  | object (fields : List (String × Value ν))

/-- The length of a string counts UTF-16 code units. -/
def length (s : String) : Nat := (s.toList.map fun c => if c.toNat < 0x10000 then 1 else 2).sum

namespace Value

variable {ν : Type*}

/-- `v?.key` -/
def get (v : Value ν) (key : String) : Value ν :=
  match v with
  | .object fields => (fields.lookup key).getD .undefined
  | _ => .undefined

/-- `v === s` for a string literal. -/
def isText (v : Value ν) (s : String) : Bool :=
  match v with
  | .string t => t == s
  | _ => false

/-- `v === true` -/
def isTrue : Value ν → Bool
  | .bool b => b
  | _ => false

def asString : Value ν → Option String
  | .string s => some s
  | _ => none

def asBool : Value ν → Option Bool
  | .bool b => some b
  | _ => none

/-- The items of a value when `Array.isArray(v)`. -/
def asArray : Value ν → Option (List (Value ν))
  | .array items => some items
  | _ => none

/-- `v && typeof v === "object"` -/
def isObject : Value ν → Bool
  | .array _ | .object _ => true
  | _ => false

/-- The value unless it is nullish, for `v ?? other`. -/
def nonNullish : Value ν → Option (Value ν)
  | .undefined | .null => none
  | v => some v

/-- `!!v` -/
def isTruthy [Numeric ν] : Value ν → Bool
  | .undefined | .null => false
  | .bool b => b
  | .number n => Numeric.isTruthy n
  | .string s => s != ""
  | .array _ | .object _ => true

@[simp] lemma isText_string (s t : String) : (string s : Value ν).isText t = (s == t) := rfl

lemma isText_iff {v : Value ν} {s : String} : v.isText s ↔ v = .string s := by
  cases v <;> simp [isText]

end Value

end Js
