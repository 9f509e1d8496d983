import RpiPackage.Lib.Json

/-!
# JSON schemas

Which values a schema accepts, for the keywords on types, on the items of arrays, on the properties
of objects and on the values listed. Keywords that only describe a value accept any.
-/

namespace Json

namespace Schema

def hasType (name : String) : Value → Bool
  | .null => name == "null"
  | .bool _ => name == "boolean"
  | .number (.float _) => name == "number"
  | .number _ => name == "number" || name == "integer"
  | .string _ => name == "string"
  | .array _ => name == "array"
  | .object _ => name == "object"

/-- A keyword that says something of the value itself. -/
def acceptsKeyword (keyword : String) (argument v : Value) : Bool :=
  match keyword with
  | "type" => (argument.asStr.map fun name => hasType name v).getD true
  | "enum" => (argument.asArray.map fun listed => listed.any v.beq).getD true
  | "minItems" =>
    match v, argument with
    | .array xs, .number (.posInt n) => n.toNat ≤ xs.length
    | _, _ => true
  | "maxItems" =>
    match v, argument with
    | .array xs, .number (.posInt n) => xs.length ≤ n.toNat
    | _, _ => true
  | "required" =>
    match v, argument with
    | .object _, .array names => names.all fun name => (name.asStr.bind v.get).isSome
    | _, _ => true
  | _ => true

mutual
def accepts : Value → Value → Bool
  | .object keywords, v => acceptsKeywords keywords v
  | .bool b, _ => b
  | _, _ => true

def acceptsKeywords : List (String × Value) → Value → Bool
  | [], _ => true
  | (keyword, argument) :: keywords, v =>
    (if keyword = "items" then (v.asArray.getD []).all (accepts argument)
    else if keyword = "properties" then acceptsProperties argument v
    else acceptsKeyword keyword argument v) && acceptsKeywords keywords v

def acceptsProperties : Value → Value → Bool
  | .object properties, v => acceptsFields properties v
  | _, _ => true

/-- A property that is absent is not looked at. -/
def acceptsFields : List (String × Value) → Value → Bool
  | [], _ => true
  | (name, schema) :: properties, v =>
    ((v.get name).map (accepts schema)).getD true && acceptsFields properties v
end

/-! ### What a schema asks for -/

variable {keywords properties : List (String × Value)} {keyword name : String}
  {argument schema v x : Value} {xs : List Value}

/-- Each keyword is looked at. -/
lemma acceptsKeyword_of_mem (h : acceptsKeywords keywords v = true) (hmem : (keyword, argument) ∈ keywords)
    (hitems : keyword ≠ "items") (hproperties : keyword ≠ "properties") :
    acceptsKeyword keyword argument v = true := by
  induction keywords with
  | nil => cases hmem
  | cons field keywords ih =>
    obtain ⟨key, arg⟩ := field
    rw [acceptsKeywords, Bool.and_eq_true] at h
    rcases List.mem_cons.mp hmem with heq | hmem
    · obtain ⟨rfl, rfl⟩ := Prod.mk.inj heq
      rw [if_neg hitems, if_neg hproperties] at h
      exact h.1
    · exact ih h.2 hmem

lemma accepts_of_mem_items (h : acceptsKeywords keywords (.array xs) = true)
    (hmem : ("items", argument) ∈ keywords) (hx : x ∈ xs) : accepts argument x = true := by
  induction keywords with
  | nil => cases hmem
  | cons field keywords ih =>
    obtain ⟨key, arg⟩ := field
    rw [acceptsKeywords, Bool.and_eq_true] at h
    rcases List.mem_cons.mp hmem with heq | hmem
    · obtain ⟨rfl, rfl⟩ := Prod.mk.inj heq
      rw [if_pos rfl] at h
      exact List.all_eq_true.mp h.1 x hx
    · exact ih h.2 hmem

lemma acceptsFields_of_mem (h : acceptsKeywords keywords v = true)
    (hmem : ("properties", .object properties) ∈ keywords) : acceptsFields properties v = true := by
  induction keywords with
  | nil => cases hmem
  | cons field keywords ih =>
    obtain ⟨key, arg⟩ := field
    rw [acceptsKeywords, Bool.and_eq_true] at h
    rcases List.mem_cons.mp hmem with heq | hmem
    · obtain ⟨rfl, rfl⟩ := Prod.mk.inj heq
      rw [if_neg (by decide), if_pos rfl, acceptsProperties] at h
      exact h.1
    · exact ih h.2 hmem

lemma accepts_of_mem_properties (h : acceptsFields properties v = true)
    (hmem : (name, schema) ∈ properties) (hx : v.get name = some x) : accepts schema x = true := by
  induction properties with
  | nil => cases hmem
  | cons field properties ih =>
    obtain ⟨key, sub⟩ := field
    rw [acceptsFields, Bool.and_eq_true] at h
    rcases List.mem_cons.mp hmem with heq | hmem
    · obtain ⟨rfl, rfl⟩ := Prod.mk.inj heq
      rw [hx] at h
      exact h.1
    · exact ih h.2 hmem

lemma hasType_string : hasType "string" v = true ↔ ∃ s, v = .string s := by
  cases v with
  | string s => exact ⟨fun _ => ⟨s, rfl⟩, fun _ => rfl⟩
  | number n => cases n <;> simp [hasType]
  | null | bool | array | object => simp [hasType]

lemma hasType_array : hasType "array" v = true ↔ ∃ xs, v = .array xs := by
  cases v with
  | array xs => exact ⟨fun _ => ⟨xs, rfl⟩, fun _ => rfl⟩
  | number n => cases n <;> simp [hasType]
  | null | bool | string | object => simp [hasType]

lemma beq_string (s t : String) : (Value.string s).beq (.string t) = (s == t) := by
  rw [Value.beq]

lemma acceptsKeyword_enum (names : List String) (s : String) :
    acceptsKeyword "enum" (.array (names.map Value.string)) (.string s) = decide (s ∈ names) := by
  simp only [acceptsKeyword, Value.asArray_array, Option.map_some, Option.getD_some, List.any_map]
  induction names with
  | nil => rfl
  | cons title names ih =>
    rw [List.any_cons, ih, Function.comp_apply, beq_string]
    simp only [List.mem_cons, Bool.decide_or, beq_eq_decide]

end Schema

end Json
