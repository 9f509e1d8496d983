import RpiPackage.Lib.Json
import RpiPackage.Lib.Result
import RpiPackage.Lib.Rust

/-!
# Plans of questions

The arguments of `ask_user` normalize into one confirmation or into one to three questions. Every
question of a plan has the text, the choices and the limits that the checks promise.
-/

namespace AskUser

open Json Json.Value Result

structure AskOption where
  title : String
  description : Option String
  deriving DecidableEq

structure AskQuestion where
  id : String
  question : String
  header : Option String
  context : Option String
  options : List AskOption
  allowMultiple : Bool
  allowFreeform : Bool
  allowComment : Bool
  suggest : Option String
  displayMode : Option String
  timeout : Option UInt64
  deriving DecidableEq

inductive AskPlan where
  | confirm (summary : String)
  | questions (questions : List AskQuestion)
  deriving DecidableEq

/-! ### What the host is shown -/

def orNull : Option String → Value
  | none => .null
  | some s => .string s

def AskQuestion.uiKind (q : AskQuestion) : String :=
  if q.options.isEmpty then "input" else "selector"

def AskOption.toUi (option : AskOption) : Value :=
  .object (("title", .string option.title) ::
    match option.description with
    | some description => [("description", .string description)]
    | none => [])

def AskQuestion.toUi (q : AskQuestion) (fallbackContext : Option String) : Value :=
  .object
    [("kind", .string q.uiKind),
      ("id", .string q.id),
      ("header", orNull q.header),
      ("question", .string q.question),
      ("context", orNull (q.context <|> fallbackContext)),
      ("options", .array (q.options.map AskOption.toUi)),
      ("allowMultiple", .bool q.allowMultiple),
      ("allowFreeform", .bool q.allowFreeform),
      ("allowComment", .bool q.allowComment),
      ("suggest", orNull q.suggest),
      ("displayMode", orNull q.displayMode),
      ("timeout", match q.timeout with
        | none => .null
        | some seconds => .number (.posInt seconds))]

/-! ### Arguments -/

/-- The first of the fields that holds a text which is not blank, trimmed. -/
def optString (value : Value) (keys : List String) : Option String :=
  keys.findSome? fun key =>
    (((value.get key).bind asStr).map Rust.trim).filter (· ≠ "")

def optBool (value : Value) (keys : List String) : Option Bool :=
  keys.findSome? fun key => (value.get key).bind asBool

def emptyTitle : String := "each option requires a non-empty `title`"

def optionDescription : Option Value → Except String (Option String)
  | none => .ok none
  | some value => do
    let text ← okOr value.asStr "option `description` must be a string"
    return some (Rust.trim text)

/-- The title and the description of an option in one of its forms. -/
def optionParts : Value → Except String (String × Option String)
  | .string title => .ok (Rust.trim title, none)
  | .object fields => do
    let text := ["title", "label", "text", "value", "name"].findSome? fun key =>
      (fields.lookup key).bind asStr
    let title ← okOr ((text.map Rust.trim).filter (· ≠ "")) emptyTitle
    let description ← optionDescription (fields.lookup "description")
    return (title, description)
  | other => .ok (other.compact, none)

def parseOption (option : Value) : Except String AskOption := do
  let parts ← optionParts option
  failIf (parts.1 = "") emptyTitle
  return { title := parts.1, description := parts.2 }

def parseOptions (item : Value) : Except String (List AskOption) :=
  match (item.get "options").bind asArray with
  | none => .ok []
  | some raw =>
    if 20 < raw.length then .error "a question may contain at most 20 options"
    else raw.mapM parseOption

def wrongQuestion : String := "each question must contain 1-500 characters"

def normalizeQuestion (item defaults : Value) (index : Nat) (topContext : Option String) :
    Except String AskQuestion := do
  let question := Rust.trim
    ((optString item ["question", "prompt"] <|> optString defaults ["question", "prompt"]).getD "")
  failIf (question = "") wrongQuestion
  failIf (500 < question.length) wrongQuestion
  let displayMode := optString item ["displayMode"] <|> optString defaults ["displayMode"]
  failIf (∃ mode ∈ displayMode, mode ≠ "overlay" ∧ mode ≠ "inline")
    "displayMode must be overlay or inline"
  let timeout := (item.get "timeout").bind asU64 <|> (defaults.get "timeout").bind asU64
  failIf (timeout = some 0) "timeout must be a positive integer"
  let options ← parseOptions item
  let freeform := ["allowFreeform", "allow_freeform", "allow_custom"]
  let multiple := ["allowMultiple", "allow_multiple", "multiple"]
  let comment := ["allowComment", "allow_comment"]
  return {
    id := (optString item ["id", "questionId"]).getD ("q" ++ (index + 1).repr)
    question
    header := optString item ["header"] <|> optString defaults ["header"]
    context := optString item ["context"] <|> topContext
    options
    allowMultiple := (optBool item multiple <|> optBool defaults multiple).getD false
    allowFreeform := (optBool item freeform <|> optBool defaults freeform).getD options.isEmpty
    allowComment := (optBool item comment <|> optBool defaults comment).getD false
    suggest := optString item ["suggest", "placeholder"] <|> optString defaults ["suggest", "placeholder"]
    displayMode
    timeout }

def ask (params : Value) : Except String AskPlan :=
  let kind := ((params.get "type").bind asStr).getD "question"
  if kind ≠ "question" ∧ kind ≠ "confirm" then .error "type must be question or confirm"
  else if kind = "confirm" then do
    let summary ← okOr (optString params ["summary", "question"]) "summary is required for confirm"
    return .confirm summary
  else
    let topContext := optString params ["context"]
    match (params.get "questions").bind asArray with
    | some items => do
      failIf (items = [] ∨ 3 < items.length) "questions must contain 1-3 items"
      let questions ← items.zipIdx.mapM fun item =>
        normalizeQuestion item.1 params item.2 topContext
      return .questions questions
    | none => do
      let question ← normalizeQuestion params params 0 topContext
      return .questions [question]

/-! ### Well-formed plans -/

structure AskQuestion.WellFormed (q : AskQuestion) : Prop where
  question : q.question ≠ "" ∧ q.question.length ≤ 500
  options : q.options.length ≤ 20 ∧ ∀ option ∈ q.options, option.title ≠ ""
  displayMode : ∀ mode ∈ q.displayMode, mode = "overlay" ∨ mode = "inline"
  timeout : q.timeout ≠ some 0

/-- What is asked to confirm something. -/
def confirmQuestion (summary : String) : AskQuestion where
  id := "confirm"
  question := summary
  header := none
  context := none
  options := [⟨"Yes", none⟩, ⟨"No", none⟩]
  allowMultiple := false
  allowFreeform := false
  allowComment := false
  suggest := none
  displayMode := none
  timeout := none

/-- The questions of a plan, in the order in which they are asked. -/
def AskPlan.asked : AskPlan → List AskQuestion
  | .confirm summary => [confirmQuestion summary]
  | .questions qs => qs

lemma parseOption_title {option : Value} {o : AskOption} (h : parseOption option = .ok o) :
    o.title ≠ "" := by
  rw [parseOption] at h
  obtain ⟨⟨title, description⟩, -, h⟩ := bind_eq_ok.mp h
  obtain ⟨_, hne, h⟩ := bind_eq_ok.mp h
  obtain rfl := Except.ok.inj h
  exact failIf_eq_ok.mp hne

lemma parseOptions_ok {item : Value} {options : List AskOption} (h : parseOptions item = .ok options) :
    options.length ≤ 20 ∧ ∀ option ∈ options, option.title ≠ "" := by
  rw [parseOptions] at h
  split at h
  · obtain rfl := Except.ok.inj h
    exact ⟨Nat.zero_le 20, fun _ ho => absurd ho List.not_mem_nil⟩
  · obtain ⟨hle, h⟩ := ite_error_eq_ok.mp h
    refine ⟨?_, fun option ho => ?_⟩
    · rw [length_of_mapM_eq_ok h]
      exact Nat.not_lt.mp hle
    · obtain ⟨raw, -, hraw⟩ := (mem_of_mapM_eq_ok h).2 option ho
      exact parseOption_title hraw

lemma normalizeQuestion_ok {item defaults : Value} {index : Nat} {topContext : Option String}
    {q : AskQuestion} (h : normalizeQuestion item defaults index topContext = .ok q) : q.WellFormed := by
  rw [normalizeQuestion] at h
  dsimp only at h
  obtain ⟨_, hne, h⟩ := bind_eq_ok.mp h
  obtain ⟨_, hle, h⟩ := bind_eq_ok.mp h
  obtain ⟨_, hmode, h⟩ := bind_eq_ok.mp h
  obtain ⟨_, htimeout, h⟩ := bind_eq_ok.mp h
  obtain ⟨options, hoptions, h⟩ := bind_eq_ok.mp h
  obtain rfl := Except.ok.inj h
  rw [failIf_eq_ok] at hne hle hmode htimeout
  refine ⟨⟨hne, Nat.not_lt.mp hle⟩, parseOptions_ok hoptions, fun mode hmem => ?_, htimeout⟩
  by_contra hother
  rw [not_or] at hother
  exact hmode ⟨mode, hmem, hother⟩

/-- A plan asks one to three well-formed questions, or to confirm something. -/
theorem ask_ok {params : Value} {plan : AskPlan} (h : ask params = .ok plan) :
    (∃ summary, plan = .confirm summary ∧ summary ≠ "") ∨
      ∃ qs, plan = .questions qs ∧ qs ≠ [] ∧ qs.length ≤ 3 ∧ ∀ q ∈ qs, q.WellFormed := by
  rw [ask] at h
  dsimp only at h
  obtain ⟨-, h⟩ := ite_error_eq_ok.mp h
  split at h
  · obtain ⟨summary, hsummary, h⟩ := bind_eq_ok.mp h
    obtain rfl := Except.ok.inj h
    refine .inl ⟨summary, rfl, ?_⟩
    obtain ⟨key, -, hkey⟩ := List.exists_of_findSome?_eq_some (okOr_eq_ok.mp hsummary)
    exact of_decide_eq_true (Option.mem_filter_iff.mp hkey).2
  · split at h
    · obtain ⟨_, hcount, h⟩ := bind_eq_ok.mp h
      obtain ⟨qs, hqs, h⟩ := bind_eq_ok.mp h
      obtain rfl := Except.ok.inj h
      rw [failIf_eq_ok, not_or] at hcount
      have hlength := length_of_mapM_eq_ok hqs
      rw [List.length_zipIdx] at hlength
      refine .inr ⟨qs, rfl, ?_, ?_, fun q hq => ?_⟩
      · rintro rfl
        exact hcount.1 (List.length_eq_zero_iff.mp hlength.symm)
      · rw [hlength]
        exact Nat.not_lt.mp hcount.2
      · obtain ⟨item, -, hitem⟩ := (mem_of_mapM_eq_ok hqs).2 q hq
        exact normalizeQuestion_ok hitem
    · obtain ⟨q, hq, h⟩ := bind_eq_ok.mp h
      obtain rfl := Except.ok.inj h
      refine .inr ⟨[q], rfl, List.cons_ne_nil _ _, Nat.le_add_left 1 2, fun q' hq' => ?_⟩
      rw [List.mem_singleton.mp hq']
      exact normalizeQuestion_ok hq

end AskUser
