import Mathlib.Data.List.Basic
import Mathlib.Tactic.Common

/-!
# Configuration options

What a client is shown of the configuration of a native host: the models, grouped by their
providers, and the levels of thinking.
-/

namespace Acp

structure ModelIdentity where
  id : String
  provider : Option String
  deriving DecidableEq, Repr

structure ModelOption where
  identity : ModelIdentity
  name : String
  contextWindow : Option UInt64
  deriving DecidableEq, Repr

structure ThinkingConfiguration where
  current : String
  levels : List String
  deriving DecidableEq, Repr

structure RuntimeConfiguration where
  model : ModelIdentity
  models : List ModelOption
  thinking : Option ThinkingConfiguration
  deriving DecidableEq, Repr

structure ConfigurationSnapshot where
  revision : UInt64
  configuration : RuntimeConfiguration
  deriving DecidableEq, Repr

structure SelectOption where
  value : String
  name : String
  description : Option String
  deriving DecidableEq, Repr

structure SelectGroup where
  group : String
  name : String
  options : List SelectOption
  deriving DecidableEq, Repr

/-- The choices of a select, which are grouped when there is more than one group. -/
inductive Choices where
  | flat (options : List SelectOption)
  | grouped (groups : List SelectGroup)
  deriving DecidableEq, Repr

/-- A select of the option set, with what it shows as its current value. -/
structure ConfigSelect where
  id : String
  name : String
  description : Option String
  category : String
  currentValue : String
  options : Choices
  deriving DecidableEq, Repr

abbrev ConfigOptions := List ConfigSelect

def qualified (provider id : String) : String :=
  if provider = "" then id else provider ++ "/" ++ id

def modelValue (identity : ModelIdentity) : String :=
  match identity.provider with
  | some provider => provider ++ "/" ++ identity.id
  | none => identity.id

/-- An option goes to the group of its provider, or makes a new one. -/
def addToGroup (provider : String) (option : SelectOption) :
    List (String × List SelectOption) → List (String × List SelectOption)
  | [] => [(provider, [option])]
  | group :: groups =>
    if group.1 = provider then (group.1, group.2 ++ [option]) :: groups
    else group :: addToGroup provider option groups

def selectOption (model : ModelOption) : SelectOption where
  value := qualified (model.identity.provider.getD "") model.identity.id
  name := model.name
  description :=
    match model.contextWindow with
    | some context => if context = 0 then none else some (toString context ++ " tokens")
    | none => none

/-- The first letter in upper case. -/
def capitalize (toUppercase : Char → String) (value : String) : String :=
  match value.toList with
  | c :: cs => toUppercase c ++ String.ofList cs
  | [] => ""

/-- The current identity is shown as it is, whether or not it is among the models. -/
def configOptionsWithIdentity (toUppercase : Char → String) (models : List ModelOption)
    (levels : List String) (currentProvider currentModelId currentThinking : String) :
    ConfigOptions :=
  let models := models.filter fun model => model.identity.id ≠ ""
  let groups := models.foldl (fun groups model =>
    addToGroup (model.identity.provider.getD "") (selectOption model) groups) []
  let choices :=
    if 1 < groups.length then
      Choices.grouped (groups.map fun group =>
        ⟨group.1, if group.1 = "" then "Other" else group.1, group.2⟩)
    else .flat (groups.flatMap fun group => group.2)
  let modelSelect : ConfigSelect :=
    ⟨"model", "Model / Provider", some "Select the model and provider used for the next prompt",
      "model", qualified currentProvider currentModelId, choices⟩
  let thinkingSelect : ConfigSelect :=
    ⟨"thinking", "Thinking", none, "thought_level",
      if levels.contains currentThinking then currentThinking else levels.headD currentThinking,
      .flat (levels.map fun level => ⟨level, capitalize toUppercase level, none⟩)⟩
  (if models.isEmpty then [] else [modelSelect]) ++ (if levels.isEmpty then [] else [thinkingSelect])

/-- Models whose values collide are not shown, and neither are levels without the current one. -/
def present (toUppercase : Char → String) (configuration : RuntimeConfiguration) : ConfigOptions :=
  let values := configuration.models.map fun model => modelValue model.identity
  let levels := (configuration.thinking.filter fun t => t.levels.contains t.current).map
    ThinkingConfiguration.levels
  configOptionsWithIdentity toUppercase (if values.Nodup then configuration.models else [])
    (levels.getD []) (configuration.model.provider.getD "") configuration.model.id
    ((configuration.thinking.map ThinkingConfiguration.current).getD "")

end Acp
