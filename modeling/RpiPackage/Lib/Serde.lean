import RpiPackage.Lib.Json
import RpiPackage.Lib.Result

/-!
# Derived serialization

What `#[derive(Serialize, Deserialize)]` generates, for values held as JSON trees: the decoders
of the primitive types and the readers of struct fields, which a decoder of a struct or an enum
combines, and the encoders of optional fields.
-/

namespace Serde

open Json

/-- Where a derived decoder reads from: a JSON value itself, or the content buffered by an
internally tagged enum. They differ in one place, the payload of a unit variant. -/
inductive Source where
  | value
  | content
  deriving DecidableEq, Repr

abbrev Decoder (α : Type) := Source → Value → Except String α

def unexpected : Value → String
  | .null => "null"
  | .bool b => "boolean `" ++ toString b ++ "`"
  | .number (.float text) => "floating point `" ++ text ++ "`"
  | .number n => "integer `" ++ n.compact ++ "`"
  | .string s => "string " ++ Value.quote s
  | .array _ => "sequence"
  | .object _ => "map"

def invalidType (v : Value) (expected : String) : String :=
  "invalid type: " ++ unexpected v ++ ", expected " ++ expected

/-! ### Primitive decoders -/

def string : Decoder String
  | _, .string s => .ok s
  | _, v => .error (invalidType v "a string")

def u64 : Decoder UInt64
  | _, .number (.posInt n) => .ok n
  | _, .number (.negInt n) => .error ("invalid value: integer `" ++ toString n ++ "`, expected u64")
  | _, v => .error (invalidType v "u64")

/-- An option of a type that does not itself read `null`. -/
def option {α : Type} (d : Decoder α) : Decoder (Option α)
  | _, .null => .ok none
  | src, v => some <$> d src v

def vec {α : Type} (d : Decoder α) : Decoder (List α)
  | src, .array xs => xs.mapM (d src)
  | _, v => .error (invalidType v "a sequence")

/-- The payload an object-shaped unit variant may carry. -/
def unitPayload : Source → Value → Bool
  | _, .null => true
  | .content, .object [] => true
  | _, _ => false

/-- An enum whose variants are all units: a string, or an object with the variant as its one
key. -/
def unitEnum {α : Type} (variants : List (String × α)) : Decoder α := fun src v =>
  let named (name : String) : Except String α :=
    match variants.lookup name with
    | some a => .ok a
    | none => .error ("unknown variant `" ++ name ++ "`")
  match v with
  | .string name => named name
  | .object [(name, payload)] =>
    match named name with
    | .ok a =>
      if unitPayload src payload then .ok a else .error (invalidType payload "unit")
    | .error e => .error e
  | .object _ => .error "invalid value: map, expected map with a single key"
  | v => .error (invalidType v "string or map")

/-! ### Structs -/

/-- The fields of a struct being read. A struct written as an array gives its fields by
position. -/
structure Fields where
  positional : Bool
  find : String → Option Value

def structFields (names : List String) (denyUnknown : Bool) : Value → Except String Fields
  | .object fields =>
    match fields.find? fun p => denyUnknown && !names.contains p.1 with
    | some p => .error ("unknown field `" ++ p.1 ++ "`")
    | none => .ok ⟨false, fun name => fields.lookup name⟩
  | .array xs =>
    if names.length < xs.length then .error ("invalid length " ++ toString xs.length)
    else .ok ⟨true, fun name => (names.zip xs).lookup name⟩
  | v => .error (invalidType v "struct")

namespace Fields

variable {α : Type} (f : Fields) (src : Source) (name : String)

def missing : String :=
  if f.positional then "invalid length, expected field `" ++ name ++ "`"
  else "missing field `" ++ name ++ "`"

def required (d : Decoder α) : Except String α :=
  match f.find name with
  | some v => d src v
  | none => .error (f.missing name)

/-- A field of type `Option` without a default: absent reads as `None`, except by position. -/
def optional (d : Decoder α) : Except String (Option α) :=
  match f.find name with
  | some v => option d src v
  | none => if f.positional then .error (f.missing name) else .ok none

/-- A field marked `#[serde(default)]`. -/
def defaulted (value : α) (d : Decoder α) : Except String α :=
  match f.find name with
  | some v => d src v
  | none => .ok value

lemma required_eq_ok {d : Decoder α} {a : α} :
    f.required src name d = .ok a ↔ ∃ v, f.find name = some v ∧ d src v = .ok a := by
  unfold required
  cases f.find name with
  | none => simp
  | some v => simp

end Fields

/-- The tag of an internally tagged enum and what is left for the variant's fields. -/
def tagged (tag : String) : Value → Except String (String × Value)
  | .object fields =>
    match fields.lookup tag with
    | some (.string name) => .ok (name, .object (fields.filter fun p => p.1 != tag))
    | some v => .error (invalidType v "variant identifier")
    | none => .error ("missing field `" ++ tag ++ "`")
  | .array (.string name :: xs) => .ok (name, .array xs)
  | .array (v :: _) => .error (invalidType v "variant identifier")
  | .array [] => .error ("missing field `" ++ tag ++ "`")
  | v => .error (invalidType v "internally tagged enum")

/-! ### Encoders -/

def number (n : UInt64) : Value := .number (.posInt n)

def nullable {α : Type} (encode : α → Value) : Option α → Value
  | some a => encode a
  | none => .null

/-- `skip_serializing_if = "Option::is_none"`. -/
def skipNone {α : Type} (name : String) (encode : α → Value) : Option α → List (String × Value)
  | some a => [(name, encode a)]
  | none => []

/-- `skip_serializing_if = "String::is_empty"`. -/
def skipEmpty (name s : String) : List (String × Value) :=
  if s = "" then [] else [(name, .string s)]

/-! ### Reading back what was written -/

@[simp] lemma string_string (src : Source) (s : String) : string src (.string s) = .ok s := by
  cases src <;> rfl

lemma string_eq_ok {src : Source} {v : Value} {s : String} :
    string src v = .ok s ↔ v = .string s := by
  cases v <;> simp [string]

@[simp] lemma u64_number (src : Source) (n : UInt64) : u64 src (number n) = .ok n := by
  cases src <;> rfl

lemma vec_map {α : Type} {d : Decoder α} {src : Source} {encode : α → Value}
    (h : ∀ a, d src (encode a) = .ok a) (as : List α) :
    vec d src (.array (as.map encode)) = .ok as := by
  cases src <;> exact Result.mapM_map_ok h as

@[simp] lemma option_null {α : Type} (d : Decoder α) (src : Source) :
    option d src .null = .ok none := by
  cases src <;> rfl

lemma option_of_ne_null {α : Type} {d : Decoder α} {src : Source} {v : Value} {a : α}
    (hv : v ≠ .null) (h : d src v = .ok a) : option d src v = .ok (some a) := by
  rw [option, h]
  · rfl
  · exact hv

lemma option_nullable {α : Type} {d : Decoder α} {src : Source} {encode : α → Value}
    (hnull : ∀ a, encode a ≠ .null) (h : ∀ a, d src (encode a) = .ok a) (o : Option α) :
    option d src (nullable encode o) = .ok o := by
  cases o with
  | none => exact option_null d src
  | some a => exact option_of_ne_null (hnull a) (h a)

@[simp] lemma option_string_nullable (src : Source) (o : Option String) :
    option string src (nullable .string o) = .ok o :=
  option_nullable (fun _ => Value.noConfusion) (string_string src) o

@[simp] lemma structFields_lenient (names : List String) (fields : List (String × Value)) :
    structFields names false (.object fields) = .ok ⟨false, fun name => fields.lookup name⟩ := by
  have : (fields.find? fun p => false && !names.contains p.1) = none := by simp
  rw [structFields, this]

lemma structFields_strict {names : List String} {fields : List (String × Value)}
    (h : ∀ p ∈ fields, p.1 ∈ names) :
    structFields names true (.object fields) = .ok ⟨false, fun name => fields.lookup name⟩ := by
  have : (fields.find? fun p => true && !names.contains p.1) = none := by simpa using h
  rw [structFields, this]

/-- An internally tagged variant is written with its tag first, which is then taken off. -/
lemma tagged_cons {tag name : String} {fields : List (String × Value)}
    (h : (fields.all fun p => p.1 != tag) = true) :
    tagged tag (.object ((tag, .string name) :: fields)) = .ok (name, .object fields) := by
  have hf : fields.filter (fun p => p.1 != tag) = fields :=
    List.filter_eq_self.mpr (List.all_eq_true.mp h)
  simp [tagged, hf]

@[simp] lemma lookup_skipNone {α : Type} (name key : String) (encode : α → Value) (o : Option α) :
    (skipNone name encode o).lookup key = if key = name then o.map encode else none := by
  cases o with
  | none => simp [skipNone]
  | some a =>
    by_cases h : key = name
    · simp [skipNone, h]
    · simp [skipNone, List.lookup_cons, beq_eq_false_iff_ne.mpr h, h]

@[simp] lemma lookup_skipEmpty (name key s : String) :
    (skipEmpty name s).lookup key = if key = name ∧ s ≠ "" then some (.string s) else none := by
  by_cases hs : s = ""
  · simp [skipEmpty, hs]
  · by_cases h : key = name
    · simp [skipEmpty, hs, h]
    · simp [skipEmpty, List.lookup_cons, beq_eq_false_iff_ne.mpr h, hs, h]

end Serde
