import RpiPackage.Lib.Json
import RpiPackage.Lib.Result
import RpiPackage.Lib.Rust

/-!
# Permission rules

The rules of a project: the three shapes of a rule file, how a rule matches a call, and what the
tool does to the file. The text of a file is written and read by `serde_json`, so that a file is
the value it holds.
-/

namespace Permissions

open Json Json.Value Result

structure Rules where
  allow : List String
  deny : List String
  deriving DecidableEq, Repr

def Rules.default : Rules := ⟨[], []⟩

/-! ### Rule files -/

def asObject : Value → Option (List (String × Value))
  | .object fields => some fields
  | _ => none

/-- The rules of one list, without blank ones. -/
def strings (root : Value) (key : String) : List String :=
  match (root.get key).bind asArray with
  | none => []
  | some items => ((items.filterMap asStr).map Rust.trim).filter fun s => s != ""

def parseRules (value : Value) : Except String Rules :=
  let root := (value.get "permissions").getD value
  match asObject root with
  | some _ => .ok ⟨strings root "allow", strings root "deny"⟩
  | none =>
    match value.asArray with
    | some items =>
      -- the shape of the first release, which stored capability objects
      .ok ⟨(items.filter fun r => (r.get "effect").bind asStr == some "allow").filterMap
        fun r => (r.get "capability").bind asStr, []⟩
    | none => .error "permissions must be an object with allow/deny arrays"

/-- A file that does not exist has no rules. -/
def load : Option Value → Except String Rules
  | none => .ok .default
  | some value => parseRules value

def rulesJson (rules : Rules) : Value :=
  .object [("allow", .array (rules.allow.map .string)), ("deny", .array (rules.deny.map .string))]

def fileJson (rules : Rules) : Value := .object [("permissions", rulesJson rules)]

/-! ### Matching -/

/-- The tool and the pattern of a rule. -/
def splitRule (rule : String) : String × String :=
  let cs := rule.toList
  match cs.findIdx? (· == '(') with
  | some i =>
    if cs.getLast? = some ')' ∧ 0 < i then
      (String.ofList (cs.take i), String.ofList (cs.drop (i + 1)).dropLast)
    else ("*", rule)
  | none => ("*", rule)

/-- The loop over the bytes of a pattern and of a value. What is left of both at the last star is
kept: after a mismatch the star takes one byte more. -/
def globLoop (p v : List UInt8) (star : Option (List UInt8 × List UInt8)) : Bool :=
  match v with
  | [] => p.all (· == 42)
  | c :: vs =>
    match p with
    | d :: ps =>
      if d = c then globLoop ps vs star
      else if d = 42 then globLoop ps (c :: vs) (some (ps, c :: vs))
      else
        match star with
        | some (ps, _ :: vs) => globLoop ps vs (some (ps, vs))
        | _ => false
    | [] =>
      match star with
      | some (ps, _ :: vs) => globLoop ps vs (some (ps, vs))
      | _ => false
termination_by (max v.length (star.elim 0 fun s => s.2.length), p.length)
decreasing_by
  all_goals simp_wf
  all_goals
    rw [Prod.lex_def]
    dsimp only [Option.elim, List.length_cons]
    omega

def globMatches (pattern value : String) : Bool :=
  globLoop pattern.toUTF8.data.toList value.toUTF8.data.toList none

def appliesTo (rule tool : String) : Bool :=
  (splitRule rule).1 == "*" || Rust.eqIgnoreAsciiCase (splitRule rule).1 tool

def ruleMatches (rule tool target : String) : Bool :=
  appliesTo rule tool && globMatches (splitRule rule).2 target

/-! ### The tool -/

inductive Effect where
  | allow
  | deny
  deriving DecidableEq, Repr

def Effect.name : Effect → String
  | .allow => "allow"
  | .deny => "deny"

/-- A change of the rules: a rule is taken out of both lists, and goes to the end of one of them if
it is granted. -/
structure Mutation where
  grant : Bool
  rule : String
  effect : Effect
  deriving DecidableEq, Repr

def Mutation.apply (m : Mutation) (rules : Rules) : Rules :=
  let allow := rules.allow.filter fun r => r != m.rule
  let deny := rules.deny.filter fun r => r != m.rule
  match m.grant, m.effect with
  | true, .allow => ⟨allow ++ [m.rule], deny⟩
  | true, .deny => ⟨allow, deny ++ [m.rule]⟩
  | false, _ => ⟨allow, deny⟩

def Rules.check (rules : Rules) (tool target : String) : Value :=
  let denied := rules.deny.any fun r => ruleMatches r tool target
  let hasAllowForTool := rules.allow.any fun r => appliesTo r tool
  let allowed :=
    !denied && (!hasAllowForTool || rules.allow.any fun r => ruleMatches r tool target)
  let reason := if denied then "deny rule" else if !allowed then "not in allow rules" else "allowed"
  .object [("action", .string "check"), ("tool", .string tool), ("value", .string target),
    ("allowed", .bool allowed), ("reason", .string reason),
    ("default", .string "allow-unless-allow-rules-exist")]

/-- The change that a call asks for. -/
def mutation (p : Value) (grant : Bool) : Except String Mutation := do
  let capability ← okOr (((p.get "rule").or (p.get "capability")).bind asStr) "capability is required"
  let rule := Rust.trim capability
  failIf (rule = "" ∨ 200 < rule.utf8ByteSize) "capability must contain 1-200 characters"
  let effect ← match ((p.get "effect").bind asStr).getD "allow" with
    | "allow" => .ok Effect.allow
    | "deny" => .ok Effect.deny
    | _ => .error "effect must be allow or deny"
  return ⟨grant, rule, effect⟩

/-- The rule files that a call can see: that of the project and the one that all projects share. -/
structure Project where
  localPath : String
  globalPath : String
  localFile : Option Value
  globalFile : Option Value

namespace Project

variable (s : Project)

/-- The file that is read. -/
def file : Option Value := s.localFile.or s.globalFile

def filePath : String := if s.localFile.isSome then s.localPath else s.globalPath

/-- Rules are always saved in the project, if they can be. -/
def save (rules : Rules) (saved : Except String Unit) : Project × Except String Unit :=
  match saved with
  | .ok () => ({ s with localFile := some (fileJson rules) }, .ok ())
  | .error e => (s, .error e)

def mutate (p : Value) (action : String) (rules : Rules) (saved : Except String Unit) :
    Project × Except String Value :=
  match mutation p (action == "grant") with
  | .error e => (s, .error e)
  | .ok m =>
    let x := s.save (m.apply rules) saved
    (x.1, x.2.map fun _ =>
      .object [("action", .string action), ("rule", .string m.rule),
        ("effect", .string m.effect.name), ("allowed", .bool m.grant)])

/-- A call, and whether its file can be saved. -/
def permissions (p : Value) (saved : Except String Unit) : Project × Except String Value :=
  match load s.file with
  | .error e => (s, .error e)
  | .ok rules =>
    match ((p.get "action").bind asStr).getD "list" with
    | "list" =>
      (s, .ok (.object [("action", .string "list"), ("rules", rulesJson rules),
        ("path", .string s.filePath)]))
    | "check" =>
      let tool := ((p.get "tool").bind asStr).getD "*"
      match ((p.get "value").or (p.get "capability")).bind asStr with
      | none => (s, .error "value (or capability) is required")
      | some target => (s, .ok (rules.check tool target))
    | "grant" => s.mutate p "grant" rules saved
    | "revoke" => s.mutate p "revoke" rules saved
    | _ => (s, .error "action must be one of: check, grant, revoke, list")

end Project

end Permissions
