import RpiPackage.Lib.JsonSchema
import RpiPackage.Lib.Rust

/-!
# Questions as forms

The form that a question of a tool is shown as, and the answer that is made of what was filled in.
The form and the answer each follow from the flags of the question by rules of their own. The check
of a dialog that comes before is a parameter.
-/

open Json Json.Value

namespace Dialogs

def maxText : Nat := 65536

/-- A text that can be an answer. -/
def isText (text : String) : Bool := Rust.trim text != "" && text.utf8ByteSize ≤ maxText

def titlesFrom (seen : List String) : List Value → Option (List String)
  | [] => some seen
  | option :: options =>
    match option.asStr <|> (option.get "title").bind asStr with
    | none => none
    | some title =>
      if isText title && !seen.contains title then titlesFrom (seen ++ [title]) options else none

def titles (ui : Value) : Option (List String) :=
  match (ui.get "options").filter fun v => !v.isNull with
  | none => some []
  | some options =>
    match options.asArray with
    | none => none
    | some options => if options.length > 64 then none else titlesFrom [] options

def flag (ui : Value) (name : String) (default : Bool) : Bool :=
  ((ui.get name).bind asBool).getD default

def isInput (ui : Value) : Bool := (ui.get "kind").bind asStr == some "input"

def select (ui : Value) (options seen : List String) : List Value → Option (List String)
  | [] => some seen
  | value :: values =>
    match value.asStr with
    | none => none
    | some value =>
      if isText value && !seen.contains value &&
          (flag ui "allowFreeform" (isInput ui) || options.contains value) then
        select ui options (seen ++ [value]) values
      else none

/-- The text of an answer: a comment, or the one value of an input again. -/
def note (ui : Value) (selected : List String) : Option Value → Option (Option String)
  | some text =>
    match text.asStr with
    | none => none
    | some text =>
      if text.utf8ByteSize > maxText || !(isInput ui || flag ui "allowComment" false) then none
      else if isInput ui && selected.head? != some text then none
      else some (some text)
  | none => some (if isInput ui then selected.head? else none)

/-- The values and the text of a result that is no cancellation. -/
def given (ui result : Value) : Option (List String × Option String) :=
  if (result.get "cancelled").bind asBool == some true then none
  else
    match result.get "answer" with
    | some (.object answer) =>
      match (answer.lookup "values").bind asArray, titles ui with
      | some values, some options =>
        if values.isEmpty || values.length > 64 ||
            (!flag ui "allowMultiple" false && values.length != 1) ||
            (isInput ui && values.length != 1) then none
        else
          (select ui options [] values).bind fun selected =>
            (note ui selected (answer.lookup "text")).map fun text => (selected, text)
      | _, _ => none
    | _ => none

def cancelled (requestId : String) : Value :=
  .object [("type", .string "ui_dialog_response"), ("requestId", .string requestId),
    ("cancelled", .bool true)]

def answered (requestId : String) (values : List String) (text : Option String) : Value :=
  .object [("type", .string "ui_dialog_response"), ("requestId", .string requestId),
    ("answer", .object ([("values", .array (values.map Value.string))] ++
      (text.map fun text => ("text", Value.string text)).toList))]

def answer (requestId : String) (ui result : Value) : Value :=
  match given ui result with
  | none => cancelled requestId
  | some (values, text) => answered requestId values text

/-! ### Answers that are accepted -/

variable {ui result : Value} {options seen vs : List String} {values : List Value}
  {text : Option String}

/-- The values of an answer: distinct texts, as many as may be given, and listed where they must be. -/
structure Chosen (ui : Value) (options vs : List String) : Prop where
  nonempty : vs ≠ []
  bounded : vs.length ≤ 64
  single : flag ui "allowMultiple" false = false → vs.length = 1
  input : isInput ui = true → vs.length = 1
  texts : ∀ v ∈ vs, isText v = true
  distinct : vs.Nodup
  listed : flag ui "allowFreeform" (isInput ui) = false → ∀ v ∈ vs, v ∈ options

lemma select_eq_some {out : List String} : select ui options seen values = some out ↔
    ∃ vs, values = vs.map Value.string ∧ out = seen ++ vs ∧ (∀ v ∈ vs, isText v = true) ∧ vs.Nodup ∧
      (∀ v ∈ vs, v ∉ seen) ∧
      (flag ui "allowFreeform" (isInput ui) = false → ∀ v ∈ vs, v ∈ options) := by
  induction values generalizing seen with
  | nil =>
    constructor
    · intro h
      obtain rfl := Option.some.inj h
      exact ⟨[], rfl, by simp, by simp, .nil, by simp, by simp⟩
    · rintro ⟨vs, hvs, rfl, -⟩
      rw [List.map_eq_nil_iff.mp hvs.symm, List.append_nil]
      rfl
  | cons value values ih =>
    constructor
    · intro h
      rw [select] at h
      split at h
      · cases h
      · rename_i v hv
        obtain rfl := asStr_eq_some.mp hv
        split at h
        · rename_i hgood
          simp only [Bool.and_eq_true, Bool.not_eq_true', List.contains_eq_mem, decide_eq_false_iff_not,
            Bool.or_eq_true, decide_eq_true_eq] at hgood
          obtain ⟨⟨htext, hnew⟩, hlisted⟩ := hgood
          obtain ⟨vs, rfl, rfl, htexts, hdistinct, hfresh, hall⟩ := ih.mp h
          refine ⟨v :: vs, rfl, by simp, ?_, ?_, ?_, ?_⟩
          · simpa [htext] using htexts
          · refine List.nodup_cons.mpr ⟨fun hmem => ?_, hdistinct⟩
            exact hfresh v hmem (by simp)
          · intro w hw
            rcases List.mem_cons.mp hw with rfl | hw
            · exact hnew
            · exact fun hseen => hfresh w hw (List.mem_append_left _ hseen)
          · intro hfree w hw
            rcases List.mem_cons.mp hw with rfl | hw
            · rw [hfree] at hlisted
              exact hlisted.resolve_left (by simp)
            · exact hall hfree w hw
        · cases h
    · rintro ⟨vs, hvs, rfl, htexts, hdistinct, hfresh, hall⟩
      cases vs with
      | nil => cases hvs
      | cons v vs =>
        obtain ⟨rfl, rfl⟩ := List.cons.inj hvs
        rw [List.nodup_cons] at hdistinct
        have hlisted : (flag ui "allowFreeform" (isInput ui) || options.contains v) = true := by
          cases hfree : flag ui "allowFreeform" (isInput ui) with
          | true => rfl
          | false => simpa using hall hfree v List.mem_cons_self
        have hnew : seen.contains v = false := by simpa using hfresh v List.mem_cons_self
        rw [select]
        simp only [asStr_string, htexts v List.mem_cons_self, hnew, hlisted, Bool.not_false,
          Bool.and_self, ↓reduceIte]
        apply ih.mpr
        refine ⟨vs, rfl, by simp, fun w hw => htexts w (List.mem_cons_of_mem _ hw), hdistinct.2, ?_,
          fun hfree w hw => hall hfree w (List.mem_cons_of_mem _ hw)⟩
        intro w hw hmem
        rcases List.mem_append.mp hmem with hmem | hmem
        · exact hfresh w (List.mem_cons_of_mem _ hw) hmem
        · obtain rfl := List.mem_singleton.mp hmem
          exact hdistinct.1 hw

/-- A result is accepted where its values can be chosen and its text can be noted. -/
lemma given_eq_some : given ui result = some (vs, text) ↔
    (result.get "cancelled").bind asBool ≠ some true ∧ ∃ answer options,
      result.get "answer" = some (.object answer) ∧
      answer.lookup "values" = some (.array (vs.map Value.string)) ∧ titles ui = some options ∧
      Chosen ui options vs ∧ note ui vs (answer.lookup "text") = some text := by
  have hcount : ∀ vs : List String, ((vs.map Value.string).isEmpty || (vs.map Value.string).length > 64 ||
      (!flag ui "allowMultiple" false && (vs.map Value.string).length != 1) ||
      (isInput ui && (vs.map Value.string).length != 1)) = false ↔ vs ≠ [] ∧ vs.length ≤ 64 ∧
        (flag ui "allowMultiple" false = false → vs.length = 1) ∧
        (isInput ui = true → vs.length = 1) := by
    intro vs
    cases flag ui "allowMultiple" false <;> cases isInput ui <;>
      simp [List.isEmpty_eq_false_iff, and_assoc]
  constructor
  · intro h
    rw [given] at h
    split at h
    · cases h
    · rename_i hcancelled
      split at h
      · rename_i answer hanswer
        split at h
        · rename_i values options hvalues htitles
          split at h
          · cases h
          · rename_i hbad
            obtain ⟨selected, hselect, h⟩ := Option.bind_eq_some_iff.mp h
            obtain ⟨text', hnote, heq⟩ := Option.map_eq_some_iff.mp h
            obtain ⟨hsame, rfl⟩ := Prod.mk.inj heq
            rw [hsame] at hselect hnote
            obtain ⟨chosen, rfl, hchosen, htexts, hdistinct, -, hlisted⟩ := select_eq_some.mp hselect
            obtain rfl : vs = chosen := hchosen
            obtain ⟨v, hlookup, hv⟩ := Option.bind_eq_some_iff.mp hvalues
            obtain rfl := asArray_eq_some.mp hv
            obtain ⟨hnonempty, hbounded, hsingle, hinput⟩ := (hcount vs).mp (by simpa using hbad)
            exact ⟨by simpa using hcancelled, answer, options, hanswer, hlookup, htitles,
              ⟨hnonempty, hbounded, hsingle, hinput, htexts, hdistinct, hlisted⟩, hnote⟩
        · cases h
      · cases h
  · rintro ⟨hcancelled, answer, options, hanswer, hvalues, htitles, hchosen, hnote⟩
    have hselect : select ui options [] (vs.map Value.string) = some vs :=
      select_eq_some.mpr ⟨vs, rfl, rfl, hchosen.texts, hchosen.distinct, by simp, hchosen.listed⟩
    have hfine := (hcount vs).mpr ⟨hchosen.nonempty, hchosen.bounded, hchosen.single, hchosen.input⟩
    rw [given, if_neg (by simpa using hcancelled)]
    simp only [hanswer, hvalues, htitles, Option.bind_some, asArray_array, hfine, hselect, hnote,
      Bool.false_eq_true, ↓reduceIte, Option.map_some]

end Dialogs

namespace Acp

open Dialogs

variable (validate : Value → Option String → Bool)

structure Question where
  ui : Value
  requestId : String
  question : String
  options : List String

def validated (event : Value) : Option Question :=
  (event.get "ui").bind fun ui =>
    let purpose := (ui.get "purpose").bind asStr
    if (purpose == none || purpose == some "question") &&
        validate ui ((event.get "toolCallId").bind asStr) then
      ((ui.get "kind").bind asStr).bind fun kind =>
        if ["input", "selector", "confirm"].contains kind then
          ((ui.get "question" <|> ui.get "message").bind asStr).bind fun question =>
            if Rust.trim question == "" || question.utf8ByteSize > maxText then none
            else
              ((event.get "requestId").bind asStr).bind fun requestId =>
                if requestId == "" then none
                else
                  (titles ui).bind fun options =>
                    if kind != "input" && options.isEmpty then none
                    else some ⟨ui, requestId, question, options⟩
        else none
    else none

def number (n : UInt64) : Value := .number (.posInt n)

/-- What the form asks for: one text or several, from the options where only those are allowed. -/
def answerProperty (ui : Value) (options : List String) (multiple freeform : Bool) : Value :=
  let property := if multiple then
      object [("type", .string "array"), ("title", .string "Answer"),
        ("items", .object [("type", .string "string")]), ("minItems", number 1),
        ("maxItems", number 64)]
    else object [("type", .string "string"), ("title", .string "Answer")]
  let listed := Value.array (options.map Value.string)
  let property := if !options.isEmpty && !freeform then
      if multiple then property.set "items" ((property.index "items").set "enum" listed)
      else property.set "enum" listed
    else property
  if !multiple && (options.isEmpty || freeform) then
    match (ui.get "suggest").bind asStr with
    | some suggest => if suggest == "" then property else property.set "default" (.string suggest)
    | none => property
  else property

def requestedSchema (ui : Value) (options : List String) : Value :=
  let kind := ((ui.get "kind").bind asStr).getD "input"
  let multiple := flag ui "allowMultiple" false
  let freeform := flag ui "allowFreeform" (kind == "input")
  let name := if multiple then "answers" else "answer"
  let comment := if flag ui "allowComment" false then
      [("comment", Value.object [("type", .string "string"), ("title", .string "Comment")])]
    else []
  .object [("type", .string "object"),
    ("properties", .object ((name, answerProperty ui options multiple freeform) :: comment)),
    ("required", .array [.string name])]

def message (ui : Value) (question : String) : String :=
  let message := match (ui.get "header").bind asStr with
    | some header => if Rust.trim header == "" then question else header ++ ": " ++ question
    | none => question
  match (ui.get "context").bind asStr with
  | some context => if Rust.trim context == "" then message else message ++ "\n\n" ++ context
  | none => message

def elicitationRequest (event : Value) (sessionId : String) : Option Value :=
  (validated validate event).map fun q =>
    .object [("mode", .string "form"), ("sessionId", .string sessionId),
      ("toolCallId", (event.get "toolCallId").getD .null),
      ("message", .string (message q.ui q.question)),
      ("requestedSchema", requestedSchema q.ui q.options),
      ("_meta", .object [("rpi", .object [("requestId", .string q.requestId)])])]

/-- The values that were filled in. -/
def filledIn (ui : Value) (content : List (String × Value)) : Option (List Value) :=
  if flag ui "allowMultiple" false then
    (content.lookup "answers" <|> content.lookup "answer").bind asArray
  else ((content.lookup "answer").bind asStr).map fun value => [.string value]

def elicitationAnswer (requestId : String) (ui result : Value) : Value :=
  if (result.get "action").bind asStr != some "accept" then cancelled requestId
  else
    match result.get "content" with
    | some (.object content) =>
      match filledIn ui content with
      | none => cancelled requestId
      | some values =>
        let normalized := Value.object [("values", .array values)]
        let normalized := match content.lookup "comment" with
          | some comment => normalized.set "text" comment
          | none => normalized
        answer requestId ui (.object [("answer", normalized)])
    | _ => cancelled requestId

/-! ### What a form accepts -/

variable {validate} {event ui v : Value} {options : List String} {content : List (String × Value)}

lemma validated_spec {q : Question} (h : validated validate event = some q) :
    event.get "ui" = some q.ui ∧ titles q.ui = some q.options ∧
      ∃ kind, (q.ui.get "kind").bind asStr = some kind ∧ (kind ≠ "input" → q.options ≠ []) := by
  obtain ⟨ui, hui, h⟩ := Option.bind_eq_some_iff.mp h
  dsimp only at h
  split at h
  · obtain ⟨kind, hkind, h⟩ := Option.bind_eq_some_iff.mp h
    split at h
    · obtain ⟨question, -, h⟩ := Option.bind_eq_some_iff.mp h
      split at h
      · cases h
      · obtain ⟨requestId, -, h⟩ := Option.bind_eq_some_iff.mp h
        split at h
        · cases h
        · obtain ⟨options, htitles, h⟩ := Option.bind_eq_some_iff.mp h
          split at h
          · cases h
          · rename_i hoptions
            obtain rfl := Option.some.inj h
            refine ⟨hui, htitles, kind, hkind, ?_⟩
            rintro hne rfl
            exact hoptions (by simpa using hne)
    · cases h
  · cases h

/-- A schema of texts, which are listed where only the options are allowed. -/
structure AsksFor (options : List String) (freeform : Bool) (keywords : List (String × Value)) : Prop where
  type : ("type", Value.string "string") ∈ keywords
  enum : options ≠ [] → freeform = false →
    ("enum", Value.array (options.map Value.string)) ∈ keywords

lemma AsksFor.accepts {freeform : Bool} {keywords : List (String × Value)}
    (h : AsksFor options freeform keywords) (haccepts : Schema.accepts (.object keywords) v = true) :
    ∃ s, v = .string s ∧ (options ≠ [] → freeform = false → s ∈ options) := by
  rw [Schema.accepts] at haccepts
  have htype := Schema.acceptsKeyword_of_mem haccepts h.type (by decide) (by decide)
  obtain ⟨s, rfl⟩ := Schema.hasType_string.mp htype
  refine ⟨s, rfl, fun hoptions hfree => ?_⟩
  have henum := Schema.acceptsKeyword_of_mem haccepts (h.enum hoptions hfree) (by decide) (by decide)
  rw [Schema.acceptsKeyword_enum] at henum
  exact of_decide_eq_true henum

lemma mem_setField {fields : List (String × Value)} {field : String × Value} {key : String}
    (h : field ∈ fields) (hne : field.1 ≠ key) (x : Value) : field ∈ setField fields key x := by
  induction fields with
  | nil => cases h
  | cons first fields ih =>
    rw [setField]
    split
    · rename_i hkey
      rcases List.mem_cons.mp h with rfl | h
      · exact absurd hkey hne
      · exact List.mem_cons_of_mem _ h
    · rcases List.mem_cons.mp h with rfl | h
      · exact List.mem_cons_self
      · exact List.mem_cons_of_mem _ (ih h)

lemma AsksFor.setDefault {freeform : Bool} {keywords : List (String × Value)}
    (h : AsksFor options freeform keywords) (x : Value) :
    AsksFor options freeform (setField keywords "default" x) :=
  ⟨mem_setField h.type (by decide) x, fun hoptions hfree =>
    mem_setField (h.enum hoptions hfree) (show "enum" ≠ "default" by decide) x⟩

lemma listed_iff {freeform : Bool} :
    (!options.isEmpty && !freeform) = true ↔ options ≠ [] ∧ freeform = false := by
  cases options <;> cases freeform <;> simp

/-- A form asks for a text. -/
lemma answerProperty_single (ui : Value) (options : List String) (freeform : Bool) :
    ∃ keywords, answerProperty ui options false freeform = .object keywords ∧
      AsksFor options freeform keywords := by
  have hbase : ∃ keywords, (if (!options.isEmpty && !freeform) = true then
        (Value.object [("type", .string "string"), ("title", .string "Answer")]).set "enum"
          (.array (options.map Value.string))
      else .object [("type", .string "string"), ("title", .string "Answer")]) = .object keywords ∧
        AsksFor options freeform keywords := by
    split
    · exact ⟨_, rfl, by simp [setField], fun _ _ => by simp [setField]⟩
    · rename_i hlisted
      refine ⟨_, rfl, by simp, fun hoptions hfree => ?_⟩
      exact absurd (listed_iff.mpr ⟨hoptions, hfree⟩) hlisted
  obtain ⟨keywords, hkeywords, hasks⟩ := hbase
  rw [answerProperty]
  simp only [Bool.false_eq_true, ↓reduceIte, hkeywords]
  split
  · split
    · split
      · exact ⟨keywords, rfl, hasks⟩
      · exact ⟨_, rfl, hasks.setDefault _⟩
    · exact ⟨keywords, rfl, hasks⟩
  · exact ⟨keywords, rfl, hasks⟩

/-- A form asks for several texts. -/
lemma answerProperty_multiple (ui : Value) (options : List String) (freeform : Bool) :
    ∃ keywords items, answerProperty ui options true freeform = .object keywords ∧
      ("type", Value.string "array") ∈ keywords ∧ ("items", Value.object items) ∈ keywords ∧
      ("minItems", number 1) ∈ keywords ∧ ("maxItems", number 64) ∈ keywords ∧
      AsksFor options freeform items := by
  rw [answerProperty]
  simp only [↓reduceIte, Bool.not_true, Bool.false_and, Bool.false_eq_true]
  split
  · exact ⟨_, [("type", .string "string"), ("enum", .array (options.map Value.string))], rfl,
      by simp [setField], by simp [setField, index, Value.set, Value.get, List.lookup_cons], by simp [setField],
      by simp [setField], by simp, fun _ _ => by simp⟩
  · rename_i hlisted
    refine ⟨_, [("type", .string "string")], rfl, by simp, by simp, by simp, by simp, by simp, ?_⟩
    exact fun hoptions hfree => absurd (listed_iff.mpr ⟨hoptions, hfree⟩) hlisted

/-! ### Forms and answers -/

/-- The texts that were filled in. -/
def answers (ui : Value) (content : List (String × Value)) : List String :=
  if flag ui "allowMultiple" false then
    (((content.lookup "answers").bind asArray).getD []).filterMap asStr
  else ((content.lookup "answer").bind asStr).toList

lemma filterMap_asStr (vs : List String) : (vs.map Value.string).filterMap asStr = vs := by
  rw [List.filterMap_map]
  exact List.filterMap_some

lemma exists_strings {xs : List Value} (h : ∀ x ∈ xs, ∃ s, x = .string s) :
    ∃ vs : List String, xs = vs.map Value.string := by
  induction xs with
  | nil => exact ⟨[], rfl⟩
  | cons x xs ih =>
    obtain ⟨s, rfl⟩ := h x List.mem_cons_self
    obtain ⟨vs, rfl⟩ := ih fun x hx => h x (List.mem_cons_of_mem _ hx)
    exact ⟨s :: vs, rfl⟩

/-- What a form accepts can be read. -/
lemma filledIn_eq (h : Schema.accepts (requestedSchema ui options) (.object content) = true)
    {kind : String} (hkind : (ui.get "kind").bind asStr = some kind) :
    filledIn ui content = some ((answers ui content).map Value.string) ∧
      answers ui content ≠ [] ∧ (answers ui content).length ≤ 64 ∧
      (flag ui "allowMultiple" false = false → (answers ui content).length = 1) ∧
      (options ≠ [] → flag ui "allowFreeform" (isInput ui) = false →
        ∀ v ∈ answers ui content, v ∈ options) := by
  have hinput : (kind == "input") = isInput ui := by
    rw [isInput, hkind]
    rfl
  rw [requestedSchema, hkind, Option.getD_some, hinput, Schema.accepts] at h
  have hrequired := Schema.acceptsKeyword_of_mem h
    (List.mem_cons_of_mem _ (List.mem_cons_of_mem _ List.mem_cons_self)) (by decide) (by decide)
  have hfields := Schema.acceptsFields_of_mem h (List.mem_cons_of_mem _ List.mem_cons_self)
  cases hmultiple : flag ui "allowMultiple" false with
  | false =>
    simp only [hmultiple, Bool.false_eq_true, ↓reduceIte] at hrequired hfields
    obtain ⟨v, hv⟩ : ∃ v, content.lookup "answer" = some v := by
      simpa [Schema.acceptsKeyword, Option.isSome_iff_exists] using hrequired
    have haccepts := Schema.accepts_of_mem_properties hfields List.mem_cons_self hv
    obtain ⟨keywords, hkeywords, hasks⟩ :=
      answerProperty_single ui options (flag ui "allowFreeform" (isInput ui))
    rw [hkeywords] at haccepts
    obtain ⟨s, rfl, hlisted⟩ := hasks.accepts haccepts
    have hanswers : answers ui content = [s] := by
      rw [answers, hmultiple, hv]
      rfl
    rw [hanswers]
    refine ⟨?_, List.cons_ne_nil s [], by simp, fun _ => rfl, ?_⟩
    · rw [filledIn, hmultiple, hv]
      rfl
    · simpa using hlisted
  | true =>
    simp only [hmultiple, ↓reduceIte] at hrequired hfields
    obtain ⟨v, hv⟩ : ∃ v, content.lookup "answers" = some v := by
      simpa [Schema.acceptsKeyword, Option.isSome_iff_exists] using hrequired
    have haccepts := Schema.accepts_of_mem_properties hfields List.mem_cons_self hv
    obtain ⟨keywords, items, hkeywords, htype, hitems, hleast, hmost, hasks⟩ :=
      answerProperty_multiple ui options (flag ui "allowFreeform" (isInput ui))
    rw [hkeywords, Schema.accepts] at haccepts
    obtain ⟨xs, rfl⟩ := Schema.hasType_array.mp
      (Schema.acceptsKeyword_of_mem haccepts htype (by decide) (by decide))
    have hitem : ∀ x ∈ xs, ∃ s, x = .string s ∧
        (options ≠ [] → flag ui "allowFreeform" (isInput ui) = false → s ∈ options) :=
      fun x hx => hasks.accepts (Schema.accepts_of_mem_items haccepts hitems hx)
    obtain ⟨vs, rfl⟩ : ∃ vs : List String, xs = vs.map Value.string :=
      exists_strings fun x hx => (hitem x hx).imp fun s hs => hs.1
    have hanswers : answers ui content = vs := by
      rw [answers, hmultiple, hv]
      exact filterMap_asStr vs
    have hlow := Schema.acceptsKeyword_of_mem haccepts hleast (by decide) (by decide)
    have hhigh := Schema.acceptsKeyword_of_mem haccepts hmost (by decide) (by decide)
    rw [hanswers]
    refine ⟨?_, ?_, ?_, fun hfalse => absurd hfalse (by decide), ?_⟩
    · rw [filledIn, hmultiple, hv]
      rfl
    · rintro rfl
      simp [Schema.acceptsKeyword, number] at hlow
    · simpa [Schema.acceptsKeyword, number] using hhigh
    · intro hoptions hfree s hs
      obtain ⟨s', heq, hlisted⟩ := hitem (.string s) (List.mem_map_of_mem hs)
      obtain rfl := Value.string.inj heq
      exact hlisted hoptions hfree

/-- A question that is an input is answered by one text, which is free or listed, and takes no other
comment; a comment goes with an input or where comments were asked for. -/
structure Answerable (ui : Value) (vs : List String) (comment : Option Value) : Prop where
  single : isInput ui = true → vs.length = 1
  free : isInput ui = true → flag ui "allowFreeform" true = true ∨ titles ui ≠ some []
  repeated : isInput ui = true → ∀ text, comment = some text → some text = vs.head?.map Value.string
  asked : comment ≠ none → isInput ui = true ∨ flag ui "allowComment" false = true

/-- A response that is no cancellation, with the values in order and the comment. -/
def Carries (response : Value) (vs : List String) (comment : Option Value) : Prop :=
  response.get "cancelled" = none ∧ ∃ answer, response.get "answer" = some answer ∧
    answer.get "values" = some (.array (vs.map Value.string)) ∧
    ∀ text, comment = some text → answer.get "text" = some text

lemma head?_bne {vs : List String} {s : String} :
    (vs.head? != some s) = false ↔ some (Value.string s) = vs.head?.map Value.string := by
  cases vs.head? with
  | none => simp
  | some v =>
    rw [bne_eq_false_iff_eq, Option.map_some, Option.some.injEq, Option.some.injEq, Value.string.injEq]
    exact eq_comm

/-- A comment is noted where one was asked for or the question is an input, which has it repeat the
answer. -/
lemma note_isSome {vs : List String} {comment : Option Value}
    (hcomment : ∀ c, comment = some c → ∃ s, c = .string s ∧ s.utf8ByteSize ≤ maxText) :
    (∃ text, note ui vs comment = some text ∧ ∀ c, comment = some c → text.map Value.string = some c) ↔
      ∀ c, comment = some c → (isInput ui = true ∨ flag ui "allowComment" false = true) ∧
        (isInput ui = true → some c = vs.head?.map Value.string) := by
  cases comment with
  | none =>
    refine ⟨fun _ c hnone => (nomatch hnone), fun _ => ⟨_, rfl, fun c hnone => (nomatch hnone)⟩⟩
  | some c =>
    obtain ⟨s, rfl, hsize⟩ := hcomment c rfl
    have hbad : (decide (s.utf8ByteSize > maxText) || !(isInput ui || flag ui "allowComment" false)) =
        false ↔ isInput ui = true ∨ flag ui "allowComment" false = true := by
      rw [decide_eq_false (Nat.not_lt.mpr hsize), Bool.false_or, Bool.not_eq_false', Bool.or_eq_true]
    constructor
    · rintro ⟨text, hnote, -⟩ c hc
      obtain rfl := Option.some.inj hc
      simp only [note, asStr_string] at hnote
      split at hnote
      · cases hnote
      · rename_i hasked
        split at hnote
        · cases hnote
        · rename_i hrepeated
          refine ⟨hbad.mp (by simpa using hasked), fun hinput => ?_⟩
          rw [hinput, Bool.true_and, Bool.not_eq_true] at hrepeated
          exact head?_bne.mp hrepeated
    · intro h
      obtain ⟨hasked, hrepeated⟩ := h (.string s) rfl
      have hsame : (isInput ui && vs.head? != some s) = false := by
        cases hinput : isInput ui with
        | false => rfl
        | true =>
          rw [Bool.true_and]
          exact head?_bne.mpr (hrepeated hinput)
      refine ⟨some s, ?_, fun c hc => ?_⟩
      · simp only [note, asStr_string, hbad.mpr hasked, hsame, Bool.false_eq_true, ↓reduceIte]
      · obtain rfl := Option.some.inj hc
        rfl

/-- An accepted form is answered by its values and its comment. -/
lemma elicitationAnswer_eq {requestId : String} {result : Value} {vs : List String}
    (haction : result.get "action" = some (.string "accept"))
    (hcontent : result.get "content" = some (.object content))
    (hfilled : filledIn ui content = some (vs.map Value.string)) :
    elicitationAnswer requestId ui result = answer requestId ui (.object [("answer", .object
      (("values", .array (vs.map Value.string)) ::
        ((content.lookup "comment").map fun comment => ("text", comment)).toList))]) := by
  rw [elicitationAnswer, haction, if_neg (by decide)]
  simp only [hcontent, hfilled]
  cases content.lookup "comment" <;> rfl

lemma carries_iff {requestId : String} {result : Value} {vs : List String} {comment : Option Value} :
    Carries (answer requestId ui result) vs comment ↔ ∃ text, given ui result = some (vs, text) ∧
      ∀ c, comment = some c → text.map Value.string = some c := by
  rw [answer]
  cases hgiven : given ui result with
  | none =>
    constructor
    · rintro ⟨hnone, -⟩
      cases hnone
    · rintro ⟨text, hnone, -⟩
      cases hnone
  | some pair =>
    obtain ⟨vs', text⟩ := pair
    have htext : ∀ t : Option String, (Value.object ([("values", .array (vs'.map Value.string))] ++
        (t.map fun text => ("text", Value.string text)).toList)).get "text" = t.map Value.string := by
      intro t
      cases t <;> rfl
    constructor
    · rintro ⟨-, a, ha, hvalues, hcomment⟩
      obtain rfl := Option.some.inj ha
      have hsame : vs' = vs := by
        have harray := Value.array.inj (Option.some.inj hvalues)
        exact List.map_injective_iff.mpr (fun _ _ h => Value.string.inj h) harray
      subst hsame
      exact ⟨text, rfl, fun c hc => (htext text).symm.trans (hcomment c hc)⟩
    · rintro ⟨text', heq, hcomment⟩
      obtain ⟨rfl, rfl⟩ := Prod.mk.inj (Option.some.inj heq)
      exact ⟨rfl, _, rfl, rfl, fun c hc => (htext text).trans (hcomment c hc)⟩

lemma given_iff {vs : List String} {comment : Option Value} {text : Option String}
    (htitles : titles ui = some options) :
    given ui (.object [("answer", .object (("values", .array (vs.map Value.string)) ::
      (comment.map fun comment => ("text", comment)).toList))]) = some (vs, text) ↔
      Chosen ui options vs ∧ note ui vs comment = some text := by
  have hlookup : (("values", Value.array (vs.map Value.string)) ::
      (comment.map fun comment => ("text", comment)).toList).lookup "text" = comment := by
    cases comment <;> rfl
  rw [given_eq_some]
  constructor
  · rintro ⟨-, fields, options', hanswer, -, htitles', hchosen, hnote⟩
    obtain rfl := Option.some.inj (htitles.symm.trans htitles')
    obtain rfl := Value.object.inj (Option.some.inj hanswer)
    exact ⟨hchosen, hlookup ▸ hnote⟩
  · rintro ⟨hchosen, hnote⟩
    refine ⟨?_, _, options, rfl, rfl, htitles, hchosen, hlookup.symm ▸ hnote⟩
    intro hcancelled
    cases hcancelled

/-- What a form accepts is answered by its values and its comment just where the question takes
them. -/
lemma carries_answer_iff {q : Question} {requestId : String} {result : Value}
    (hq : validated validate event = some q) (haction : result.get "action" = some (.string "accept"))
    (hcontent : result.get "content" = some (.object content))
    (haccepts : Schema.accepts (requestedSchema q.ui q.options) (.object content) = true)
    (hdistinct : (answers q.ui content).Nodup) (htexts : ∀ v ∈ answers q.ui content, isText v = true)
    (hcomment : ∀ c, content.lookup "comment" = some c → ∃ s, c = .string s ∧ s.utf8ByteSize ≤ maxText) :
    Carries (elicitationAnswer requestId q.ui result) (answers q.ui content) (content.lookup "comment") ↔
      Answerable q.ui (answers q.ui content) (content.lookup "comment") := by
  obtain ⟨-, htitles, kind, hkind, hoptions⟩ := validated_spec hq
  obtain ⟨hfilled, hne, hbounded, hsingle, hlisted⟩ := filledIn_eq haccepts hkind
  have hinput : isInput q.ui = true ↔ kind = "input" := by
    rw [isInput, hkind]
    exact beq_iff_eq.trans Option.some_inj
  have hchosen : Chosen q.ui q.options (answers q.ui content) ↔
      (isInput q.ui = true → (answers q.ui content).length = 1) ∧
      (isInput q.ui = true → flag q.ui "allowFreeform" true = true ∨ titles q.ui ≠ some []) := by
    constructor
    · intro h
      refine ⟨h.input, fun hin => ?_⟩
      by_contra hclosed
      rw [not_or, not_not, Bool.not_eq_true] at hclosed
      obtain ⟨v, hv⟩ := List.exists_mem_of_ne_nil _ hne
      have hmem := h.listed (by rw [hin]; exact hclosed.1) v hv
      rw [Option.some.inj (htitles.symm.trans hclosed.2)] at hmem
      cases hmem
    · rintro ⟨hone, hfree⟩
      refine ⟨hne, hbounded, hsingle, hone, htexts, hdistinct, fun hclosed => ?_⟩
      by_cases hempty : q.options = []
      · have hin : isInput q.ui = true := by
          apply hinput.mpr
          by_contra hkind'
          exact hoptions hkind' hempty
        rw [hin] at hclosed
        rcases hfree hin with hopen | htitles'
        · rw [hclosed] at hopen
          cases hopen
        · exact absurd (hempty ▸ htitles) htitles'
      · exact hlisted hempty hclosed
  rw [elicitationAnswer_eq haction hcontent hfilled, carries_iff]
  simp only [given_iff htitles, and_assoc, exists_and_left, note_isSome hcomment, hchosen]
  constructor
  · rintro ⟨hone, hfree, hnoted⟩
    refine ⟨hone, hfree, fun hin c hc => (hnoted c hc).2 hin, fun hsome => ?_⟩
    obtain ⟨c, hc⟩ := Option.ne_none_iff_exists'.mp hsome
    exact (hnoted c hc).1
  · rintro ⟨hone, hfree, hrepeated, hasked⟩
    exact ⟨hone, hfree, fun c hc => ⟨hasked (by rw [hc]; exact Option.some_ne_none c),
      fun hin => hrepeated hin c hc⟩⟩

lemma answer_cases (requestId : String) (ui result : Value) :
    answer requestId ui result = cancelled requestId ∨
      ∃ vs text options, answer requestId ui result = answered requestId vs text ∧
        titles ui = some options ∧ Chosen ui options vs := by
  rw [answer]
  cases hgiven : given ui result with
  | none => exact .inl rfl
  | some pair =>
    obtain ⟨vs, text⟩ := pair
    obtain ⟨-, -, options, -, -, htitles, hchosen, -⟩ := given_eq_some.mp hgiven
    exact .inr ⟨vs, text, options, rfl, htitles, hchosen⟩

/-- A comment that nothing asked for cancels the answer. -/
lemma given_unasked {comment : Value} {values : List Value} (hinput : isInput ui = false)
    (hasked : flag ui "allowComment" false = false) :
    given ui (.object [("answer", .object [("values", .array values), ("text", comment)])]) = none := by
  cases hgiven : given ui (.object [("answer", .object [("values", .array values), ("text", comment)])]) with
  | none => rfl
  | some pair =>
    obtain ⟨vs, text⟩ := pair
    obtain ⟨-, answer, options, hanswer, -, -, -, hnote⟩ := given_eq_some.mp hgiven
    obtain rfl := Value.object.inj (Option.some.inj hanswer)
    have hnone : note ui vs (some comment) = none := by
      rw [note]
      cases comment.asStr <;> simp [hinput, hasked]
    cases hnone.symm.trans hnote

/-- What a form accepts is answered by its values and its comment where the question takes them, a
comment that was not asked for cancels the answer, and whatever is answered was asked for. -/
theorem elicitation_agrees (validate : Value → Option String → Bool) :
    (∀ event sessionId form requestId ui result content,
      elicitationRequest validate event sessionId = some form → event.get "ui" = some ui →
      result.get "action" = some (.string "accept") → result.get "content" = some (.object content) →
      Schema.accepts (form.index "requestedSchema") (.object content) = true →
      (answers ui content).Nodup → (∀ v ∈ answers ui content, isText v = true) →
      (∀ c, content.lookup "comment" = some c → ∃ s, c = .string s ∧ s.utf8ByteSize ≤ maxText) →
      (Answerable ui (answers ui content) (content.lookup "comment") →
        Carries (elicitationAnswer requestId ui result) (answers ui content)
          (content.lookup "comment")) ∧
      (content.lookup "comment" ≠ none → isInput ui = false → flag ui "allowComment" false = false →
        elicitationAnswer requestId ui result = cancelled requestId)) ∧
    ∀ requestId ui result, elicitationAnswer requestId ui result = cancelled requestId ∨
      ∃ vs text options, elicitationAnswer requestId ui result = answered requestId vs text ∧
        titles ui = some options ∧ Chosen ui options vs := by
  constructor
  · intro event sessionId form requestId ui result content hform hui haction hcontent haccepts
      hdistinct htexts hcomment
    obtain ⟨q, hq, rfl⟩ := Option.map_eq_some_iff.mp hform
    obtain ⟨hui', -, kind, hkind, -⟩ := validated_spec hq
    obtain rfl := Option.some.inj (hui.symm.trans hui')
    refine ⟨(carries_answer_iff hq haction hcontent haccepts hdistinct htexts hcomment).mpr, ?_⟩
    intro hsome hinput hasked
    obtain ⟨c, hc⟩ := Option.ne_none_iff_exists'.mp hsome
    have haccepts : Schema.accepts (requestedSchema q.ui q.options) (.object content) = true := haccepts
    obtain ⟨hfilled, -⟩ := filledIn_eq haccepts hkind
    rw [elicitationAnswer_eq haction hcontent hfilled, hc, answer]
    rw [Option.map_some, Option.toList_some, given_unasked hinput hasked]
  · intro requestId ui result
    rw [elicitationAnswer]
    split
    · exact .inl rfl
    · split
      · split
        · exact .inl rfl
        · exact answer_cases requestId ui _
      · exact .inl rfl

/-- A choice among two languages. -/
def languages : Value :=
  .object [("kind", .string "selector"), ("header", .string "语言"), ("question", .string "请选择"),
    ("options", .array [.object [("title", .string "Rust")], .object [("title", .string "Python")]])]

def languagesEvent : Value :=
  .object [("requestId", .string "q1"), ("toolCallId", .string "ask-1"), ("ui", languages)]

def languagesForm : Value :=
  ((elicitationRequest (fun _ _ => true) languagesEvent "session-1").getD .null)

lemma languagesForm_eq :
    elicitationRequest (fun _ _ => true) languagesEvent "session-1" = some languagesForm := by
  have hform : (elicitationRequest (fun _ _ => true) languagesEvent "session-1").isSome = true := by
    decide +kernel
  obtain ⟨form, h⟩ := Option.isSome_iff_exists.mp hform
  rw [languagesForm, h]
  rfl

def accepted (content : List (String × Value)) : Value :=
  .object [("action", .string "accept"), ("content", .object content)]

theorem elicitation_agrees_on_choice :
    Carries (elicitationAnswer "q1" languages (accepted [("answer", .string "Rust")])) ["Rust"] none :=
  ((elicitation_agrees (fun _ _ => true)).1 languagesEvent "session-1" languagesForm "q1" languages
    (accepted [("answer", .string "Rust")]) [("answer", .string "Rust")] languagesForm_eq rfl rfl rfl
    (by decide +kernel) (by decide +kernel) (by decide +kernel) (fun _ hnone => (nomatch hnone))).1
    { single := by decide +kernel
      free := by decide +kernel
      repeated := fun _ _ hnone => (nomatch hnone)
      asked := fun h => absurd rfl h }

/-- A form takes a comment that it does not ask for, which cancels the answer. -/
theorem unasked_comment_cancels : ∃ event sessionId form ui content,
    elicitationRequest (fun _ _ => true) event sessionId = some form ∧ event.get "ui" = some ui ∧
      Schema.accepts (form.index "requestedSchema") (.object content) = true ∧
      (answers ui content).Nodup ∧ (∀ v ∈ answers ui content, isText v = true) ∧
      content.lookup "comment" = some (.string "extra") ∧
      elicitationAnswer "q1" ui (accepted content) = cancelled "q1" :=
  ⟨languagesEvent, "session-1", languagesForm, languages,
    [("answer", .string "Rust"), ("comment", .string "extra")], languagesForm_eq, rfl,
    by decide +kernel, by decide +kernel, by decide +kernel, rfl, by rfl⟩

end Acp
