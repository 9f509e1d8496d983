import RpiPackage.Lib.Run
import RpiPackage.Permissions.Rules

/-!
# The policy of a project over its runs

What grants and revocations keep: the file reads back as the rules that were saved, no rule is in
both lists, a denial stays until its rule is named again, and every other rule stays as it was. A
file has to be read as it is written for that: the first shape loses its denials.
-/

namespace Permissions

open Json Json.Value Result

def Rules.list (rules : Rules) : Effect → List String
  | .allow => rules.allow
  | .deny => rules.deny

/-- What a file has about a rule. -/
def declares (file : Option Value) (e : Effect) (rule : String) : Prop :=
  match file with
  | none => False
  | some (.array items) => ∃ item ∈ items, (item.get "effect").bind asStr = some e.name ∧
      (item.get "capability").bind asStr = some rule
  | some value => rule ∈ strings ((value.get "permissions").getD value) e.name

/-- A file that is read as it is written: no rule is in both lists, and one of the first shape has
no denials and no rule that is blank or has white space around it. -/
structure Sound (file : Option Value) : Prop where
  separate : ∀ rule, declares file .allow rule → ¬declares file .deny rule
  legacy : ∀ items, file = some (.array items) → ∀ rule, ¬declares file .deny rule ∧
    (declares file .allow rule → Rust.trim rule = rule ∧ rule ≠ "")

namespace Project

def step (s : Project) (c : Value × Except String Unit) : Project := (s.permissions c.1 c.2).1

end Project

/-- The change that a call makes if its file can be saved. -/
def change (p : Value) : Option Mutation :=
  match ((p.get "action").bind asStr).getD "list" with
  | "grant" => (mutation p true).toOption
  | "revoke" => (mutation p false).toOption
  | _ => none

/-- What is kept over every run that starts with the rule files of a project. -/
structure Keeps (s : Project) : Prop where
  reloads : ∀ calls p m, change p = some m → ∃ rules,
    load (Run.after Project.step s calls).file = .ok rules ∧
      load ((Run.after Project.step s calls).step (p, .ok ())).file = .ok (m.apply rules)
  separate : ∀ calls rules, load (Run.after Project.step s calls).file = .ok rules →
    ∀ rule ∈ rules.allow, rule ∉ rules.deny
  denies : ∀ calls p m later, change p = some m → m.grant = true → m.effect = .deny →
    (∀ c ∈ later, ∀ m', change c.1 = some m' → m'.rule = m.rule →
      m'.grant = true ∧ m'.effect = .deny) →
    ∀ q saved target, (q.get "action").bind asStr = some "check" →
      ((q.get "value").or (q.get "capability")).bind asStr = some target →
      ruleMatches m.rule (((q.get "tool").bind asStr).getD "*") target = true →
      ∃ response, ((Run.after Project.step s (calls ++ (p, .ok ()) :: later)).permissions q saved).2 =
        .ok response ∧ response.get "allowed" = some (.bool false)
  others : ∀ calls p saved e rule, (∀ m, change p = some m → m.rule ≠ rule) →
    (declares (Run.after Project.step s calls).file e rule ↔
      declares ((Run.after Project.step s calls).step (p, saved)).file e rule)

/-! ### Files -/

/-- The rules of a list are as they are read. -/
def Clean (rules : Rules) : Prop := ∀ e, ∀ rule ∈ rules.list e, Rust.trim rule = rule ∧ rule ≠ ""

/-- What is read of a file is what it declares, and reads the same again. -/
structure Reads (file : Option Value) (rules : Rules) : Prop where
  load : load file = .ok rules
  declared : ∀ e rule, declares file e rule ↔ rule ∈ rules.list e
  clean : Clean rules
  separate : ∀ rule ∈ rules.allow, rule ∉ rules.deny

lemma mem_strings {root : Value} {key rule : String} (h : rule ∈ strings root key) :
    Rust.trim rule = rule ∧ rule ≠ "" := by
  unfold strings at h
  split at h
  · exact absurd h List.not_mem_nil
  · obtain ⟨hmem, hne⟩ := List.mem_filter.mp h
    obtain ⟨s, -, rfl⟩ := List.mem_map.mp hmem
    exact ⟨Rust.trim_trim s, bne_iff_ne.mp hne⟩

lemma strings_array {root : Value} {key : String} {rules : List String}
    (hroot : root.get key = some (.array (rules.map .string)))
    (hclean : ∀ rule ∈ rules, Rust.trim rule = rule ∧ rule ≠ "") : strings root key = rules := by
  rw [strings, hroot]
  show ((rules.map Value.string).filterMap asStr |>.map Rust.trim).filter _ = rules
  have hstr : (rules.map Value.string).filterMap asStr = rules := by
    rw [List.filterMap_map]
    exact List.filterMap_some
  have htrim : rules.map Rust.trim = rules :=
    (List.map_congr_left fun rule hrule => (hclean rule hrule).1).trans (List.map_id rules)
  rw [hstr, htrim, List.filter_eq_self]
  intro rule hrule
  exact bne_iff_ne.mpr (hclean rule hrule).2

/-- What is saved reads back. -/
lemma reads_fileJson {rules : Rules} (hclean : Clean rules)
    (hseparate : ∀ rule ∈ rules.allow, rule ∉ rules.deny) : Reads (some (fileJson rules)) rules := by
  have hallow : strings (rulesJson rules) "allow" = rules.allow :=
    strings_array rfl (hclean .allow)
  have hdeny : strings (rulesJson rules) "deny" = rules.deny := strings_array rfl (hclean .deny)
  refine ⟨?_, ?_, hclean, hseparate⟩
  · show Except.ok (Rules.mk (strings (rulesJson rules) "allow") (strings (rulesJson rules) "deny")) = _
    rw [hallow, hdeny]
  · intro e rule
    show rule ∈ strings (rulesJson rules) e.name ↔ _
    cases e with
    | allow => exact iff_of_eq (congrArg (rule ∈ ·) hallow)
    | deny => exact iff_of_eq (congrArg (rule ∈ ·) hdeny)

/-- An accepted file other than one of the first shape holds what is read of it. -/
lemma declares_of_load {value : Value} {rules : Rules} (h : parseRules value = .ok rules)
    (harray : ∀ items, value ≠ .array items) :
    (∀ e rule, declares (some value) e rule ↔ rule ∈ rules.list e) ∧ Clean rules := by
  have hrules : rules = ⟨strings ((value.get "permissions").getD value) "allow",
      strings ((value.get "permissions").getD value) "deny"⟩ := by
    unfold parseRules at h
    dsimp only at h
    split at h
    · exact (Except.ok.inj h).symm
    · split at h
      · rename_i items hitems
        exact absurd (asArray_eq_some.mp hitems) (harray items)
      · cases h
  have hdeclares : ∀ e rule, declares (some value) e rule ↔ rule ∈ rules.list e := by
    intro e rule
    rw [hrules]
    cases value with
    | array items => exact absurd rfl (harray items)
    | null | bool | number | string | object => cases e <;> exact Iff.rfl
  refine ⟨hdeclares, fun e rule hrule => ?_⟩
  rw [hrules] at hrule
  cases e <;> exact mem_strings hrule

/-- Only the allowed rules are read of the first shape. -/
lemma load_array {items : List Value} {rules : Rules} (h : parseRules (.array items) = .ok rules) :
    rules.deny = [] ∧ ∀ rule, rule ∈ rules.allow ↔ declares (some (.array items)) .allow rule := by
  obtain rfl := Except.ok.inj h
  refine ⟨rfl, fun rule => ?_⟩
  simp [declares, Effect.name, and_assoc]

lemma Sound.reads {file : Option Value} {rules : Rules} (hsound : Sound file)
    (h : load file = .ok rules) : Reads file rules := by
  cases file with
  | none =>
    obtain rfl := Except.ok.inj h
    refine ⟨rfl, fun e rule => ?_, fun e rule hrule => ?_, fun rule hrule => ?_⟩
    · cases e <;> simp [declares, Rules.list, Rules.default]
    · cases e <;> exact absurd hrule List.not_mem_nil
    · exact absurd hrule List.not_mem_nil
  | some value =>
    by_cases harray : ∃ items, value = .array items
    · obtain ⟨items, rfl⟩ := harray
      obtain ⟨hdeny, hallow⟩ := load_array h
      have hlegacy := hsound.legacy items rfl
      refine ⟨h, fun e rule => ?_, fun e rule hrule => ?_, fun rule _ => ?_⟩
      · cases e with
        | allow => exact (hallow rule).symm
        | deny =>
          show _ ↔ rule ∈ rules.deny
          rw [hdeny]
          exact iff_of_false (hlegacy rule).1 List.not_mem_nil
      · cases e with
        | allow => exact (hlegacy rule).2 ((hallow rule).mp hrule)
        | deny =>
          have hmem : rule ∈ rules.deny := hrule
          rw [hdeny] at hmem
          exact absurd hmem List.not_mem_nil
      · rw [hdeny]
        exact List.not_mem_nil
    · obtain ⟨hdeclares, hclean⟩ := declares_of_load h (not_exists.mp harray)
      refine ⟨h, hdeclares, hclean, fun rule hallow hdeny => ?_⟩
      exact hsound.separate rule ((hdeclares .allow rule).mpr hallow) ((hdeclares .deny rule).mpr hdeny)

/-! ### Changes -/

lemma Mutation.mem_list_apply {m : Mutation} {rules : Rules} {e : Effect} {rule : String} :
    rule ∈ (m.apply rules).list e ↔
      (rule ∈ rules.list e ∧ rule ≠ m.rule) ∨ (m.grant = true ∧ m.effect = e ∧ rule = m.rule) := by
  obtain ⟨grant, name, effect⟩ := m
  cases grant <;> cases effect <;> cases e <;> simp [Mutation.apply, Rules.list]

lemma rule_of_mutation {p : Value} {grant : Bool} {m : Mutation} (h : mutation p grant = .ok m) :
    Rust.trim m.rule = m.rule ∧ m.rule ≠ "" := by
  obtain ⟨capability, -, h⟩ := bind_eq_ok.mp h
  dsimp only at h
  rw [check_bind_eq_ok, failIf_eq_ok] at h
  obtain ⟨hrule, h⟩ := h
  have hm : m.rule = Rust.trim capability := by
    split at h
    · obtain rfl := Except.ok.inj h
      rfl
    · obtain rfl := Except.ok.inj h
      rfl
    · cases h
  rw [hm]
  exact ⟨Rust.trim_trim capability, fun hblank => hrule (.inl hblank)⟩

lemma rule_of_change {p : Value} {m : Mutation} (h : change p = some m) :
    Rust.trim m.rule = m.rule ∧ m.rule ≠ "" := by
  unfold change at h
  split at h
  · cases hm : mutation p true with
    | error e => simp [hm, Except.toOption] at h
    | ok m' =>
      rw [hm] at h
      obtain rfl := Option.some.inj h
      exact rule_of_mutation hm
  · cases hm : mutation p false with
    | error e => simp [hm, Except.toOption] at h
    | ok m' =>
      rw [hm] at h
      obtain rfl := Option.some.inj h
      exact rule_of_mutation hm
  · cases h

lemma Reads.apply {file : Option Value} {rules : Rules} (h : Reads file rules) {m : Mutation}
    (hm : Rust.trim m.rule = m.rule ∧ m.rule ≠ "") :
    Reads (some (fileJson (m.apply rules))) (m.apply rules) := by
  refine reads_fileJson ?_ ?_
  · intro e rule hrule
    rcases Mutation.mem_list_apply.mp hrule with ⟨hrule, -⟩ | ⟨-, -, rfl⟩
    · exact h.clean e rule hrule
    · exact hm
  · intro rule hallow hdeny
    rcases (Mutation.mem_list_apply (e := .allow)).mp hallow with ⟨hallow, hne⟩ | ⟨-, he, rfl⟩
    · rcases (Mutation.mem_list_apply (e := .deny)).mp hdeny with ⟨hdeny, -⟩ | ⟨-, -, heq⟩
      · exact h.separate rule hallow hdeny
      · exact hne heq
    · rcases (Mutation.mem_list_apply (e := .deny)).mp hdeny with ⟨-, hne⟩ | ⟨-, he', -⟩
      · exact hne rfl
      · rw [he] at he'
        cases he'

namespace Project

variable {s : Project} {rules : Rules} {p : Value}

/-- What a call does to the files of a project. -/
lemma step_eq (h : load s.file = .ok rules) (p : Value) (saved : Except String Unit) :
    s.step (p, saved) =
      match change p, saved with
      | some m, .ok () => { s with localFile := some (fileJson (m.apply rules)) }
      | _, _ => s := by
  have hmutate : ∀ action, (s.mutate p action rules saved).1 =
      match (mutation p (action == "grant")).toOption, saved with
      | some m, .ok () => { s with localFile := some (fileJson (m.apply rules)) }
      | _, _ => s := by
    intro action
    unfold mutate
    cases mutation p (action == "grant") with
    | error e => rfl
    | ok m => cases saved <;> rfl
  unfold step permissions change
  rw [h]
  dsimp only
  split
  · rename_i haction
    rw [haction]
    rfl
  · rename_i haction
    rw [haction]
    split <;> rfl
  · rename_i haction
    rw [haction]
    exact hmutate "grant"
  · rename_i haction
    rw [haction]
    exact hmutate "revoke"
  · rename_i hlist hcheck hgrant hrevoke
    split
    · rename_i m hm
      split at hm
      · rename_i haction
        exact absurd haction hgrant
      · rename_i haction
        exact absurd haction hrevoke
      · cases hm
    · rfl

lemma step_of_change (h : load s.file = .ok rules) {m : Mutation} (hm : change p = some m) :
    (s.step (p, .ok ())).file = some (fileJson (m.apply rules)) := by
  rw [step_eq h, hm]
  rfl

/-- A call that changes nothing, or whose file cannot be saved, leaves the files alone. -/
lemma step_cases (h : load s.file = .ok rules) (p : Value) (saved : Except String Unit) :
    s.step (p, saved) = s ∨
      ∃ m, change p = some m ∧ (s.step (p, saved)).file = some (fileJson (m.apply rules)) := by
  rw [step_eq h]
  split
  · rename_i m hm
    exact .inr ⟨m, hm, rfl⟩
  · exact .inl rfl

/-- A project whose rules are read as they are written. -/
def Read (s : Project) : Prop := ∃ rules, Reads s.file rules

lemma Read.step (h : s.Read) (c : Value × Except String Unit) : (s.step c).Read := by
  obtain ⟨rules, hreads⟩ := h
  rcases step_cases hreads.load c.1 c.2 with heq | ⟨m, hm, hfile⟩
  · exact heq.symm ▸ ⟨rules, hreads⟩
  · exact ⟨m.apply rules, hfile.symm ▸ hreads.apply (rule_of_change hm)⟩

lemma Read.run (h : s.Read) (calls : List (Value × Except String Unit)) :
    (Run.after Project.step s calls).Read :=
  Run.invariant (P := Read) (fun _ c h => h.step c) h calls

/-- A rule that is not named stays as it was. -/
lemma declares_step (h : Reads s.file rules) {saved : Except String Unit} {rule : String}
    (hother : ∀ m, change p = some m → m.rule ≠ rule) (e : Effect) :
    declares s.file e rule ↔ declares (s.step (p, saved)).file e rule := by
  rcases step_cases h.load p saved with heq | ⟨m, hm, hfile⟩
  · rw [heq]
  · rw [hfile, (h.apply (rule_of_change hm)).declared, h.declared, Mutation.mem_list_apply]
    constructor
    · exact fun hrule => .inl ⟨hrule, fun heq => hother m hm heq.symm⟩
    · rintro (⟨hrule, -⟩ | ⟨-, -, heq⟩)
      · exact hrule
      · exact absurd heq.symm (hother m hm)

/-- A denied rule stays denied by every call that does not revoke or allow it. -/
lemma denied_step (h : s.Read) {rule : String} (hdenied : declares s.file .deny rule)
    (c : Value × Except String Unit)
    (hc : ∀ m, change c.1 = some m → m.rule = rule → m.grant = true ∧ m.effect = .deny) :
    declares (s.step c).file .deny rule := by
  obtain ⟨rules, hreads⟩ := h
  rcases step_cases hreads.load c.1 c.2 with heq | ⟨m, hm, hfile⟩
  · exact heq.symm ▸ hdenied
  · have hreads' := hreads.apply (rule_of_change hm)
    show declares (s.step (c.1, c.2)).file .deny rule
    rw [hfile, hreads'.declared, Mutation.mem_list_apply]
    by_cases hrule : rule = m.rule
    · obtain ⟨hgrant, heffect⟩ := hc m hm hrule.symm
      exact .inr ⟨hgrant, heffect, hrule⟩
    · exact .inl ⟨(hreads.declared .deny rule).mp hdenied, hrule⟩

lemma denied_run (h : s.Read) {rule : String} (hdenied : declares s.file .deny rule)
    {calls : List (Value × Except String Unit)}
    (hcalls : ∀ c ∈ calls, ∀ m, change c.1 = some m → m.rule = rule →
      m.grant = true ∧ m.effect = .deny) :
    declares (Run.after Project.step s calls).file .deny rule := by
  induction calls generalizing s with
  | nil => exact hdenied
  | cons c calls ih =>
    rw [Run.after_cons]
    exact ih (h.step c) (denied_step h hdenied c (hcalls c List.mem_cons_self))
      fun c' hc' => hcalls c' (List.mem_cons_of_mem _ hc')

/-- What a denied rule matches is not allowed. -/
lemma check_denied (h : Reads s.file rules) {rule : String} (hdenied : rule ∈ rules.deny)
    {q : Value} {target : String} (saved : Except String Unit)
    (hcheck : (q.get "action").bind asStr = some "check")
    (htarget : ((q.get "value").or (q.get "capability")).bind asStr = some target)
    (hmatch : ruleMatches rule (((q.get "tool").bind asStr).getD "*") target = true) :
    ∃ response, (s.permissions q saved).2 = .ok response ∧
      response.get "allowed" = some (.bool false) := by
  refine ⟨rules.check (((q.get "tool").bind asStr).getD "*") target, ?_, ?_⟩
  · rw [permissions, h.load]
    dsimp only
    rw [hcheck]
    dsimp only [Option.getD]
    rw [htarget]
    rfl
  · have hany : (rules.deny.any fun r =>
        ruleMatches r (((q.get "tool").bind asStr).getD "*") target) = true :=
      List.any_eq_true.mpr ⟨rule, hdenied, hmatch⟩
    rw [Rules.check, hany]
    rfl

end Project

/-! ### What is kept -/

lemma keeps_of_read {s : Project} (h : s.Read) : Keeps s where
  reloads := by
    intro calls p m hm
    obtain ⟨rules, hreads⟩ := h.run calls
    refine ⟨rules, hreads.load, ?_⟩
    rw [Project.step_of_change hreads.load hm]
    exact (hreads.apply (rule_of_change hm)).load
  separate := by
    intro calls rules hload
    obtain ⟨rules', hreads⟩ := h.run calls
    obtain rfl := Except.ok.inj (hreads.load.symm.trans hload)
    exact hreads.separate
  denies := by
    intro calls p m later hm hgrant heffect hlater q saved target hcheck htarget hmatch
    rw [Run.after_append, Run.after_cons]
    have hread := h.run calls
    have hdenied : declares ((Run.after Project.step s calls).step (p, .ok ())).file .deny m.rule := by
      obtain ⟨rules, hreads⟩ := hread
      rw [Project.step_of_change hreads.load hm,
        (hreads.apply (rule_of_change hm)).declared, Mutation.mem_list_apply]
      exact .inr ⟨hgrant, heffect, rfl⟩
    obtain ⟨rules, hreads⟩ := (hread.step (p, .ok ())).run later
    have hlast := Project.denied_run (hread.step (p, .ok ())) hdenied hlater
    exact Project.check_denied hreads ((hreads.declared .deny _).mp hlast) saved hcheck htarget hmatch
  others := by
    intro calls p saved e rule hother
    obtain ⟨rules, hreads⟩ := h.run calls
    exact Project.declares_step hreads hother e

/-- A grant of some other rule. -/
def otherRule (rule : String) : String := if rule = "a" then "b" else "a"

def grantOf (rule : String) : Value :=
  .object [("action", .string "grant"), ("rule", .string (otherRule rule))]

lemma change_grantOf (rule : String) :
    change (grantOf rule) = some ⟨true, otherRule rule, .allow⟩ ∧ otherRule rule ≠ rule := by
  by_cases h : rule = "a"
  · subst h
    exact ⟨by decide +kernel, by decide⟩
  · have hother : otherRule rule = "a" := if_neg h
    rw [grantOf, hother]
    exact ⟨by decide +kernel, Ne.symm h⟩

/-- What the first shape declares is kept by an unrelated grant only if it is read. -/
lemma Keeps.legacy {s : Project} (h : Keeps s) {items : List Value}
    (hfile : s.file = some (.array items)) (rule : String) :
    ¬declares s.file .deny rule ∧
      (declares s.file .allow rule → Rust.trim rule = rule ∧ rule ≠ "") := by
  obtain ⟨hchange, hne⟩ := change_grantOf rule
  obtain ⟨rules, hload⟩ : ∃ rules, load s.file = .ok rules := by
    rw [hfile]
    exact ⟨_, rfl⟩
  have hkept : ∀ e, declares s.file e rule ↔
      declares (s.step (grantOf rule, .ok ())).file e rule := by
    intro e
    refine h.others [] (grantOf rule) (.ok ()) e rule fun m hm => ?_
    obtain rfl := Option.some.inj (hchange.symm.trans hm)
    exact hne
  rw [Project.step_of_change hload hchange] at hkept
  obtain ⟨hdeny, -⟩ := load_array (hfile ▸ hload)
  constructor
  · intro hdenied
    have hmem : rule ∈ strings (rulesJson _) "deny" := (hkept .deny).mp hdenied
    have hnone : (Mutation.apply ⟨true, otherRule rule, .allow⟩ rules).deny = [] := by
      rw [Mutation.apply, hdeny]
      rfl
    rw [rulesJson, hnone] at hmem
    exact absurd hmem List.not_mem_nil
  · intro hallowed
    have hmem : rule ∈ strings (rulesJson _) "allow" := (hkept .allow).mp hallowed
    exact mem_strings hmem

def plain : Project :=
  ⟨"/p/permissions.json", "/g/permissions.json",
    some (.object [("deny", .array [.string "Bash(rm *)"])]), none⟩

/-- A file of the first shape with a denial. -/
def firstShape : Project :=
  ⟨"/p/permissions.json", "/g/permissions.json",
    some (.array [.object [("effect", .string "deny"), ("capability", .string "Bash(rm *)")]]), none⟩

end Permissions
