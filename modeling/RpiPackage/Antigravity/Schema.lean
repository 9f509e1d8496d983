import Mathlib.Algebra.Order.Ring.Rat
import RpiPackage.Antigravity.Json
import RpiPackage.Antigravity.Usage

/-!
# Schemas of tools

The rewriting of a schema into the subset that the models take. The intersections of a schema are
merged first, and what the subset cannot say is kept as hints in the description. The letters and
the doubles are parameters.
-/

namespace Antigravity.Schema

open Json Json.Value

/-- What the platform says about letters and doubles. -/
structure Platform where
  toUppercase : Char → String
  toLowercase : String → String
  -- the value of a double
  double : String → Rat
  -- the shortest text of a double
  text : Rat → String
  -- the text that a script prints for it
  script : String → String
  uppercase_ascii : ∀ c : Char, c.toNat < 128 → toUppercase c = c.toUpper.toString
  uppercase_stable : ∀ c, ∀ d ∈ (toUppercase c).toList, toUppercase d = d.toString

structure Options where
  moveNumericConstraintsToDescription : Bool
  claudeValidated : Bool

abbrev Fields := List (String × Value)

variable (p : Platform)

def Platform.uppercase (s : String) : String := String.join (s.toList.map p.toUppercase)

mutual
/-- The text of a value in a script. -/
def string : Value → String
  | .string s => s
  | .number n => Script.number p.script n
  | .array xs => ",".intercalate (strings xs)
  | .object _ => "[object Object]"
  | .null => "null"
  | .bool b => if b then "true" else "false"

def strings : List Value → List String
  | [] => []
  | x :: xs => (if x.isNull then "" else string x) :: strings xs
end

def asF64 : Value → Option Rat
  | .number (.posInt n) => some (Binary64.nearest n.toNat)
  | .number (.negInt n) =>
    some (if n.toInt < 0 then -(Binary64.nearest n.toInt.natAbs : Rat) else Binary64.nearest n.toInt.natAbs)
  | .number (.float text) => some (p.double text)
  | _ => none

def maxSafe : Int := 9007199254740991

def integer : Int → Value
  | .ofNat n => .number (.posInt (UInt64.ofNat n))
  | .negSucc n => .number (.negInt (Int64.ofInt (.negSucc n)))

def finiteNumber (x : Rat) : Value :=
  if x.den = 1 ∧ |x.num| ≤ maxSafe then integer x.num else .number (.float (p.text x))

/-- The entries of an object or an array. -/
def entries : Value → Fields
  | .array xs => xs.zipIdx.map fun x => (toString x.2, x.1)
  | .object fields => Script.entries fields
  | _ => []

/-! ### Intersections -/

/-- What the branches have said so far. -/
structure Merged where
  properties : Fields
  required : List String
  descriptions : List String
  metadata : Fields

def addMetadata (metadata : Fields) (field : String × Value) : Fields :=
  if ["properties", "required", "description"].contains field.1 ||
      (metadata.lookup field.1).isSome then metadata
  else setField metadata field.1 field.2

/-- A property that two branches disagree about makes the intersection ambiguous. -/
def addProperty (properties : Fields) (field : String × Value) : Option Fields :=
  if field.1 == "__proto__" then some properties
  else if (properties.lookup field.1).any fun prior => !prior.beq field.2 then none
  else some (setField properties field.1 field.2)

def addName (required : List String) (name : String) : List String :=
  if required.contains name then required else required ++ [name]

def mergeBranch (m : Merged) : Value → Option Merged
  | .object branch =>
    if ((branch.lookup "type").any fun v => p.uppercase (string p v) != "OBJECT") ||
        (branch.lookup "properties").any (!·.isObject) then none
    else
      ((entries ((branch.lookup "properties").getD .null)).foldlM addProperty m.properties).map
        fun properties =>
          { properties
            required := ((((branch.lookup "required").bind asArray).getD []).filterMap asStr).foldl
              addName m.required
            descriptions := m.descriptions ++ ((branch.lookup "description").bind asStr).toList
            metadata := (Script.entries branch).foldl addMetadata m.metadata }
  | _ => none

def Merged.fields (m : Merged) : Fields :=
  let metadata := setField (setField m.metadata "type" (.string "object")) "properties" (.object m.properties)
  let metadata := if m.required.isEmpty then metadata
    else setField metadata "required" (.array (m.required.map Value.string))
  if m.descriptions.isEmpty then metadata
  else setField metadata "description" (.string (" ".intercalate m.descriptions))

def asObject : Value → Option Fields
  | .object fields => some fields
  | _ => none

def remove (fields : Fields) (key : String) : Fields := fields.filter fun field => field.1 != key

def extend (fields more : Fields) : Fields :=
  more.foldl (fun fields field => setField fields field.1 field.2) fields

def mergeAllOf (input : Fields) : Fields × List String :=
  match (input.lookup "allOf").bind asArray with
  | none => (input, [])
  | some branches =>
    let base := remove input "allOf"
    match (if branches.isEmpty then none
      else (Value.object base :: branches).foldlM (mergeBranch p) ⟨[], [], [], []⟩) with
    | some m => (m.fields, [])
    | none =>
      let merged := extend base ((branches.head?.bind asObject).getD [])
      let merged := match (base.lookup "description").filter truthy with
        | some description => setField merged "description" description
        | none => merged
      (merged, ["allOf: using the first branch; other intersection constraints omitted."])

/-! ### Unions -/

def typeName (branch : Fields) : String :=
  if (branch.lookup "properties").any truthy then "object"
  else if (branch.lookup "items").any truthy then "array"
  else p.toLowercase (string p ((branch.lookup "type").getD .null))

def score (branch : Fields) : Nat :=
  let name := typeName p branch
  if name == "object" then 3 else if name == "array" then 2 else if name == "null" then 0 else 1

/-- The values of a branch that only lists texts. -/
def listed (branch : Fields) : Option (List String) :=
  match (branch.lookup "enum").bind asArray with
  | none => none
  | some values =>
    if !values.isEmpty && values.all (·.asStr.isSome) &&
        ((branch.lookup "type").elim true fun v => v.asStr == some "STRING") &&
        !(branch.lookup "properties").any truthy && !(branch.lookup "items").any truthy then
      some (values.filterMap asStr)
    else none

def select (first : Fields) (branches : List Fields) : Fields :=
  branches.foldl (fun selected branch => if score p branch > score p selected then branch else selected) first

def nonempty (v : Option Value) : Option String := (v.bind asStr).filter (· != "")

/-- The branch that a union is narrowed to, under the description of both. -/
def narrow (base selected : Fields) : Fields :=
  let merged := extend base selected
  match nonempty (base.lookup "description") with
  | none => merged
  | some description =>
    let text := match (nonempty (selected.lookup "description")).filter (· != description) with
      | some other => description ++ " (" ++ other ++ ")"
      | none => description
    setField merged "description" (.string text)

def flattenUnion (input : Fields) : Fields × List String :=
  match ((input.lookup "anyOf").bind asArray).filter (!·.isEmpty) with
  | none => (input, [])
  | some any =>
    let base := remove input "anyOf"
    match any.filterMap asObject with
    | [] => (base, [])
    | first :: rest =>
      match any.mapM fun x => (asObject x).bind listed with
      | some values =>
        (setField (setField base "type" (.string "STRING")) "enum"
          (.array (values.flatten.eraseDups.map Value.string)), [])
      | none =>
        (narrow base (select p first rest),
          if rest.isEmpty then []
          else ["Accepts: " ++ " | ".intercalate ((first :: rest).map (typeName p)).eraseDups])

/-! ### Fields -/

def numeric (key : String) : Bool :=
  ["minLength", "maxLength", "minItems", "maxItems", "minProperties", "maxProperties", "minimum",
    "maximum", "exclusiveMinimum", "exclusiveMaximum", "multipleOf"].contains key

def allowed (key : String) : Bool :=
  ["type", "properties", "items", "required", "description", "format", "pattern", "title", "nullable",
    "propertyOrdering", "example", "default", "enum", "anyOf", "minimum", "maximum", "minLength",
    "maxLength", "minItems", "maxItems", "minProperties", "maxProperties"].contains key

/-- The fields that are told as hints where the schema is validated. -/
def told (key : String) : Bool :=
  ["minLength", "maxLength", "minItems", "maxItems", "pattern", "format", "default"].contains key

def isNullName (name : String) : Bool := name.map Char.toLower == "null"

def typeNameValue : Value → Option String
  | .string name => some name
  | .array values => (values.filterMap asStr).find? fun name => !isNullName name
  | _ => none

def hint (key : String) (value : Value) : List String :=
  match value with
  | .string _ | .number _ | .bool _ => [key ++ ": " ++ string p value]
  | _ => []

def isArray : Value → Bool
  | .array _ => true
  | _ => false

def isExclusive (key : String) : Bool := key == "exclusiveMinimum" || key == "exclusiveMaximum"

/-- The nearest integer that an exclusive bound allows. -/
def shifted (lower : Bool) (value : Rat) : Int :=
  if lower then value.floor + 1 else value.ceil - 1

def tighter (lower : Bool) (x y : Rat) : Rat := if lower then max x y else min x y

def inclusive (lower : Bool) : String := if lower then "minimum" else "maximum"

def exclusive (lower : Bool) : String := if lower then "exclusiveMinimum" else "exclusiveMaximum"

variable (convert : Value → Value) (options : Options) (input : Fields)

/-- What becomes of an exclusive bound of an integer. -/
def includedBound (key : String) (value : Value) : Option (String × Value) :=
  if isExclusive key && !options.moveNumericConstraintsToDescription &&
      p.uppercase (string p (index (.object input) "type")) == "INTEGER" then
    (asF64 p value).bind fun value =>
      let lower := key == "exclusiveMinimum"
      let bound := shifted lower value
      if |bound| ≤ maxSafe then
        let bounded := (asF64 p (index (.object input) (inclusive lower))).elim (bound : Rat)
          fun existing => tighter lower existing bound
        some (inclusive lower, finiteNumber p bounded)
      else none
  else none

def propertyNames : List String := (entries (index (.object input) "properties")).map Prod.fst

/-- What becomes of a field that the subset has. -/
def keep (result : Fields) (key : String) (value : Value) : List String × Option (String × Value) :=
  if key == "type" then
    match typeNameValue value with
    | some name => ([], some (key, .string (p.uppercase name)))
    | none => ([], if isArray value then none else some (key, value))
  else if key == "properties" && (value.isObject || isArray value) then
    ([], some (key, .object (((entries value).filter fun f => f.1 != "__proto__").map
      fun f => (f.1, convert f.2))))
  else if key == "items" && (value.isObject || isArray value || value.isNull) then
    ([], some (key, convert value))
  else
    match value with
    | .array xs =>
      if key == "anyOf" then ([], some (key, .array (xs.map convert)))
      else if key == "enum" then
        if xs.all (·.asStr.isSome) then
          ([], if (index (.object input) "const").asStr.isSome then none else some (key, .array xs))
        else (["Allowed values: " ++ ", ".intercalate (xs.map (Script.describe p.script)) ++ "."], none)
      else if key == "required" && !(propertyNames input).isEmpty then
        let required := xs.filter fun x => x.asStr.any (propertyNames input).contains
        ([], if required.isEmpty then none else some (key, .array required))
      else ([], some (key, .array xs))
    | value =>
      if key == "minimum" || key == "maximum" then
        match asF64 p value, (result.lookup key).bind (asF64 p) with
        | some new, some old =>
          ([], some (key, finiteNumber p (tighter (key == "minimum") old new)))
        | _, _ => ([], some (key, value))
      else ([], some (key, value))

/-- The hints that a field leaves, and the field that it becomes. -/
def outcome (result : Fields) (key : String) (value : Value) : List String × Option (String × Value) :=
  if options.claudeValidated && key == "title" then ([], none)
  else if options.claudeValidated && key == "additionalProperties" && value.asBool == some false then
    (["No extra properties allowed"], none)
  else if options.claudeValidated && told key then (hint p key value, none)
  else if key == "const" then
    match value with
    | .string s => ([], some ("enum", .array [.string s]))
    | value => (["Must be " ++ Script.describe p.script value ++ "."], none)
  else
    match includedBound p options input key value with
    | some field => ([], some field)
    | none =>
      if numeric key && (options.moveNumericConstraintsToDescription || isExclusive key ||
          key == "multipleOf") then (hint p key value, none)
      else
        match (if key == "oneOf" then value.asArray else none) with
        | some xs =>
          if isArray (index (.object input) "anyOf") then
            (["oneOf: additional union constraints omitted."], none)
          else ([], some ("anyOf", .array (xs.map convert)))
        | none => if allowed key then keep p convert input result key value else ([], none)

def step (s : Fields × List String) (field : String × Value) : Fields × List String :=
  let (hints, assigned) := outcome p convert options input s.1 field.1 field.2
  (assigned.elim s.1 fun field => setField s.1 field.1 field.2, s.2 ++ hints)

/-- The names that are required are properties. -/
def restrictRequired (result : Fields) : Fields :=
  match (result.lookup "properties").bind asObject, (result.lookup "required").bind asArray with
  | some properties, some required =>
    let required := required.filter fun x => x.asStr.any (properties.map Prod.fst).contains
    if required.isEmpty then remove result "required"
    else setField result "required" (.array required)
  | _, _ => result

def addHints (result : Fields) (hints : List String) : Fields :=
  if hints.isEmpty then result
  else
    let hint := ", ".intercalate hints
    let description := match nonempty (result.lookup "description") with
      | some description => description ++ " (" ++ hint ++ ")"
      | none => hint
    setField result "description" (.string description)

def addItems (result : Fields) : Fields :=
  if ((result.lookup "type").bind asStr) == some "ARRAY" && !(result.lookup "items").any truthy then
    setField result "items" (.object [("type", .string "STRING")])
  else result

/-- The fields that the fields of a merged schema become. -/
def collect (hints : List String) : Fields × List String :=
  (Script.entries input).foldl (step p convert options input) ([], hints)

/-- The rewriting of an object, given that of the values within it. -/
def convertObject (schema : Fields) : Fields :=
  let (input, hints) := mergeAllOf p schema
  let (result, hints) := collect p convert options input hints
  let (result, hints) := if options.claudeValidated then
      let (result, hints') := flattenUnion p result
      (restrictRequired result, hints ++ hints')
    else (result, hints)
  addItems (addHints result hints)

/-- The recursion is on values that lie within the schema, which `toGeminiSchema_object` shows. -/
def toGeminiSchema : Value → Value
  | .object schema =>
    .object (convertObject p (fun v =>
      if _h : v.size < (Value.object schema).size then toGeminiSchema v else v) options schema)
  | v => v
termination_by v => v.size
decreasing_by exact _h

end Antigravity.Schema
