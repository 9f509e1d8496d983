import RpiPackage.Codemode.Bridge
import RpiPackage.Lib.JsonSize

/-!
# Tool results

What a summary becomes outside: the envelope of a result that the host retains, or a result with the
selected content in it. An envelope that would be too long gives way to a short one, whose text says
what is left of the summary and which keeps the termination.
-/

namespace Codemode

open Json Result

def objectFields : Value → List (String × Value)
  | .object fields => fields
  | _ => []

/-- `as_object_mut().and_then(|v| v.remove(key))`. -/
def removeField (key : String) (value : Value) : Option Value × Value :=
  match value with
  | .object fields => (fields.lookup key, .object (fields.filter fun field => field.1 != key))
  | value => (none, value)

def isSettled (value : Value) : Bool :=
  (value.index "status").asStr == some "completed" ||
    (value.index "status").asStr == some "terminated"

def errorBlock (reason : String) : Value :=
  .object [("type", .string "text"), ("text", .string ("codemode error: " ++ bounded reason 512))]

def reasonOf (value : Value) : String := ((value.index "error").asStr).getD "codemode failed"

def envelope (isError : Bool) (field : String × Value) : Value :=
  .object [("$rpiToolResult", natValue 1), ("isError", .bool isError), field]

/-- A result that the host retains, if the summary hands one over. -/
def handedOver (value reference : Value) : Option Value :=
  if asNat (reference.index "version") = some 1 ∧ ((reference.index "id").asStr.any (· ≠ "")) then
    some (envelope (isTrue (value.index "isError")) ("resultReference", reference))
  else none

def contentOfSummary (value : Value) (isError : Bool) : Option Value → Value
  | some (.array blocks) =>
    .array (if isError then blocks ++ [errorBlock (reasonOf value)] else blocks)
  | some content => content
  | none => .array [.object [("type", .string "text"), ("text", .string value.compact)]]

def nativeResult (content details : Value) (terminate : Bool) : Value :=
  .object [("content", content), ("details", details), ("terminate", .bool terminate)]

def fieldOrNull (value : Value) (key : String) : Value := (value.get key).getD .null

def tooLong : String := "encoded codemode output exceeds 1 MiB (including text/structured framing)"

def shortSummary (value logs calls : Value) (terminate : Bool) : Value :=
  .object [("status", .string "error"), ("result", .null), ("error", .string tooLong),
    ("logs", logs), ("calls", calls), ("durationMs", fieldOrNull value "durationMs"),
    ("terminate", .bool terminate)]

/-- What replaces an envelope that is too long. -/
def compacted (value : Value) (terminate : Bool) : Value :=
  let summary := shortSummary value (fieldOrNull value "logs") (fieldOrNull value "calls") terminate
  let summary := if maxJson / 4 < summary.compactSize then
    shortSummary value (.array []) (.array []) terminate else summary
  envelope true ("result", nativeResult
    (.array [.object [("type", .string "text"), ("text", .string summary.compact)]]) summary
    terminate)

/-- The result of a summary without a reference. -/
def encoded (value : Value) : Value × Value × Bool :=
  let (exact, value) := removeField "nativeResult" value
  let (parts, value) := removeField "nativeContentParts" value
  let (content, value) := removeField "nativeContent" value
  let isError := isTrue (value.index "isError") || ((value.get "status").isSome && !isSettled value)
  let terminate := isTrue (value.index "terminate")
  let content := contentOfSummary value isError content
  let native := match exact.filter fun _ => (value.index "status").asStr == some "completed" with
    | some exact => nativeResult (exact.index "content") (exact.index "details") terminate
    | none => nativeResult content value terminate
  match parts with
  | some (.array parts) =>
    let parts := if isError then
      parts ++ [.object [("content", .array [errorBlock (reasonOf value)])]] else parts
    (.object [("$rpiToolResult", natValue 1), ("isError", .bool isError),
      ("result", .object [("details", value), ("terminate", .bool terminate)]),
      ("contentParts", .array parts)], value, terminate)
  | _ => (envelope isError ("result", native), value, terminate)

/-- The reference that a summary hands over, and the summary without it. -/
def takeReference (value : Value) : Option Value × Value :=
  if isSettled value then
    match removeField "nativeResultReference" value with
    | (some reference, value) => (handedOver value reference, value)
    | (none, value) => (none, value)
  else (none, value)

/-- The value that `tool_result` writes. -/
def toolResultValue (value : Value) : Value :=
  match takeReference value with
  | (some result, _) => result
  | (none, value) =>
    let (result, value, terminate) := encoded value
    if result.compactSize ≤ maxJson then result else compacted value terminate

def toolResult (value : Value) : String := (toolResultValue value).compact

/-! ### Sizes -/

section

variable {value logs calls content : Value} {terminate : Bool}

lemma plain_of_lookup {fields : List (String × Value)} {key : String} {v : Value}
    (h : Value.PlainFields fields) (hlookup : fields.lookup key = some v) : v.Plain := by
  induction fields with
  | nil => cases hlookup
  | cons field fields ih =>
    rw [List.lookup_cons] at hlookup
    split at hlookup
    · obtain rfl := Option.some.inj hlookup
      exact h.1
    · exact ih h.2 hlookup

lemma plain_fieldOrNull (h : value.Plain) (key : String) : (fieldOrNull value key).Plain := by
  unfold fieldOrNull
  cases hget : value.get key with
  | none => trivial
  | some v =>
    cases value with
    | object fields => exact plain_of_lookup h hget
    | null | bool | number | string | array => cases hget

lemma plain_shortSummary (hvalue : value.Plain) (hlogs : logs.Plain) (hcalls : calls.Plain) :
    (shortSummary value logs calls terminate).Plain :=
  ⟨trivial, trivial, trivial, hlogs, hcalls, plain_fieldOrNull hvalue _, trivial, trivial⟩

lemma size_shortSummary :
    (shortSummary value (.array []) (.array []) terminate).compactSize ≤
      (fieldOrNull value "durationMs").compactSize + 300 := by
  have hbool := Value.compactSize_bool_le terminate
  have hkeys : quoteSize "status" = 8 ∧ quoteSize "result" = 8 ∧ quoteSize "error" = 7 ∧
      quoteSize "logs" = 6 ∧ quoteSize "calls" = 7 ∧ quoteSize "durationMs" = 12 ∧
      quoteSize "terminate" = 11 ∧ quoteSize tooLong ≤ 100 := by
    decide +kernel
  unfold shortSummary
  rw [Value.compactSize_object]
  simp only [List.map_cons, List.map_nil, List.sum_cons, List.sum_nil, Value.fieldSize, framing,
    List.length_cons, List.length_nil, Value.compactSize_string, Value.compactSize_null,
    Value.compactSize_array]
  omega

lemma size_compacted (hvalue : value.Plain)
    (hduration : (fieldOrNull value "durationMs").compactSize ≤ maxJson / 4) :
    (compacted value terminate).compactSize ≤ maxJson := by
  have hshort : ∃ summary : Value, summary.Plain ∧ summary.compactSize ≤ maxJson / 4 + 300 ∧
      compacted value terminate = envelope true ("result", nativeResult
        (.array [.object [("type", .string "text"), ("text", .string summary.compact)]]) summary
        terminate) := by
    unfold compacted
    dsimp only
    split
    · exact ⟨_, @plain_shortSummary value (.array []) (.array []) terminate hvalue trivial trivial,
        size_shortSummary.trans (Nat.add_le_add_right hduration _), rfl⟩
    · next hsize =>
      exact ⟨_, plain_shortSummary hvalue (plain_fieldOrNull hvalue _) (plain_fieldOrNull hvalue _),
        by omega, rfl⟩
  obtain ⟨summary, hplain, hsize, heq⟩ := hshort
  have hbool := Value.compactSize_bool_le terminate
  have htext := Value.quoteSize_compact hplain
  have hkeys : quoteSize "type" = 6 ∧ quoteSize "text" = 6 ∧ quoteSize "content" = 9 ∧
      quoteSize "details" = 9 ∧ quoteSize "terminate" = 11 ∧ quoteSize "$rpiToolResult" = 16 ∧
      quoteSize "isError" = 9 ∧ quoteSize "result" = 8 ∧ (natValue 1).compactSize = 1 ∧
      (Value.bool true).compactSize = 4 := by
    decide +kernel
  rw [heq]
  unfold envelope nativeResult
  simp only [Value.compactSize_object, List.map_cons, List.map_nil, List.sum_cons, List.sum_nil,
    Value.fieldSize, framing, List.length_cons, List.length_nil, Value.compactSize_string,
    Value.compactSize_array]
  unfold maxJson at hsize ⊢
  omega

lemma plain_removeField (h : value.Plain) (key : String) : (removeField key value).2.Plain := by
  cases value with
  | object fields =>
    show Value.PlainFields (fields.filter fun field => field.1 != key)
    have hfields : Value.PlainFields fields := h
    induction fields with
    | nil => trivial
    | cons field fields ih =>
      rw [List.filter_cons]
      split
      · exact ⟨hfields.1, ih hfields.2 hfields.2⟩
      · exact ih hfields.2 hfields.2
  | null | bool | number | string | array => exact h

lemma removeField_fst (key : String) : (removeField key value).1 = value.get key := by
  cases value <;> rfl

lemma get_removeField {key other : String} (hne : other ≠ key) :
    (removeField key value).2.get other = value.get other := by
  cases value with
  | object fields =>
    show (fields.filter fun field => field.1 != key).lookup other = fields.lookup other
    induction fields with
    | nil => rfl
    | cons field fields ih =>
      rw [List.filter_cons, List.lookup_cons]
      by_cases hfield : field.1 = key
      · rw [if_neg (by simp [hfield]), ih]
        simp [hfield, beq_false_of_ne hne]
      · rw [if_pos (by simpa using hfield), List.lookup_cons, ih]
  | null | bool | number | string | array => rfl

/-! ### The result of a summary -/

/-- What a summary says of its termination. -/
def terminates (value : Value) : Value := .bool (isTrue (value.index "terminate"))

/-- A summary without some of its fields. -/
structure Reduced (value rest : Value) : Prop where
  plain : value.Plain → rest.Plain
  terminate : rest.get "terminate" = value.get "terminate"
  durationMs : rest.get "durationMs" = value.get "durationMs"

lemma Reduced.refl (value : Value) : Reduced value value := ⟨id, rfl, rfl⟩

lemma Reduced.remove {rest : Value} (h : Reduced value rest) {key : String}
    (hterminate : "terminate" ≠ key) (hduration : "durationMs" ≠ key) :
    Reduced value (removeField key rest).2 :=
  ⟨fun hplain => plain_removeField (h.plain hplain) key,
    (get_removeField hterminate).trans h.terminate, (get_removeField hduration).trans h.durationMs⟩

lemma reduced_takeReference : Reduced value (takeReference value).2 := by
  have hremove : Reduced value (removeField "nativeResultReference" value).2 :=
    (Reduced.refl value).remove (by decide) (by decide)
  unfold takeReference
  split
  · split
    · next reference rest hrest =>
      rw [hrest] at hremove
      exact hremove
    · next rest hrest =>
      rw [hrest] at hremove
      exact hremove
  · exact .refl value

lemma encoded_spec : Reduced value (encoded value).2.1 ∧
    Value.bool (encoded value).2.2 = terminates value ∧
      ((encoded value).1.index "result").index "terminate" = terminates value := by
  have hreduced : Reduced value (removeField "nativeContent" (removeField "nativeContentParts"
      (removeField "nativeResult" value).2).2).2 :=
    (((Reduced.refl value).remove (by decide) (by decide)).remove (by decide) (by decide)).remove
      (by decide) (by decide)
  have hterminate : Value.bool (isTrue ((removeField "nativeContent"
      (removeField "nativeContentParts" (removeField "nativeResult" value).2).2).2.index
        "terminate")) = terminates value := by
    rw [terminates, Value.index, hreduced.terminate, Value.index]
  refine ⟨?_, ?_, ?_⟩
  · unfold encoded
    dsimp only
    split <;> exact hreduced
  · unfold encoded
    dsimp only
    split <;> exact hterminate
  · unfold encoded
    dsimp only
    split
    · exact hterminate
    · split <;> exact hterminate

lemma toolResultValue_spec (hplain : value.Plain)
    (hduration : (fieldOrNull value "durationMs").compactSize ≤ maxJson / 4)
    (hnone : (takeReference value).1 = none) :
    (toolResultValue value).compactSize ≤ maxJson ∧
      ((toolResultValue value).index "result").index "terminate" = terminates value := by
  have hreduced := @reduced_takeReference value
  unfold toolResultValue
  cases htake : takeReference value with
  | mk reference rest =>
    rw [htake] at hnone hreduced
    obtain rfl : reference = none := hnone
    obtain ⟨hrest, hbool, hresult⟩ := @encoded_spec rest
    have hterminates : terminates rest = terminates value := by
      rw [terminates, terminates, Value.index, hreduced.terminate, Value.index]
    dsimp only
    split
    · next hsize => exact ⟨hsize, hresult.trans hterminates⟩
    · refine ⟨size_compacted (hrest.plain (hreduced.plain hplain)) ?_, ?_⟩
      · rw [fieldOrNull, hrest.durationMs, hreduced.durationMs]
        exact hduration
      · exact hbool.trans hterminates

end

end Codemode
