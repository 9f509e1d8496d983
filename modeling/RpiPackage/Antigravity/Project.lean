import RpiPackage.Antigravity.Json
import RpiPackage.Antigravity.Stream
import RpiPackage.Lib.Result

/-!
# Managed projects

The project of a packed refresh value: the one that it names, or one that is looked up and bound to
it. What the endpoints reply is a parameter.
-/

namespace Antigravity

open Json

/-! ### Packed refresh values -/

structure RefreshParts where
  refreshToken : String
  projectId : Option String
  managedProjectId : Option String
  deriving DecidableEq, Repr

def parseRefresh (value : String) : RefreshParts :=
  let parts := value.toList.splitOn '|'
  let part (i : Nat) := (parts[i]?.map String.ofList).filter fun part => part != ""
  ⟨String.ofList (parts.headD []), part 1, part 2⟩

def formatRefresh (parts : RefreshParts) : String :=
  let base := parts.refreshToken ++ "|" ++ parts.projectId.getD ""
  match parts.managedProjectId.filter fun managed => managed != "" with
  | some managed => base ++ "|" ++ managed
  | none => base

/-- The key of a refresh value: its token, or all of it where the token is blank. -/
def cacheKey (refresh : Option Value) : Except String (Option String) :=
  match refresh.filter fun value => !value.isNull with
  | none => .ok none
  | some value =>
    match value.asStr with
    | none => .error "refresh?.trim is not a function"
    | some text =>
      let packed := Script.trim text
      if packed = "" then .ok none
      else
        let key := Script.trim (parseRefresh packed).refreshToken
        .ok (some (if key = "" then packed else key))

/-! ### Resolution -/

def defaultProject : String := "rising-fact-p41fc"

def projectResult (auth project : Value) (tier : Option Value) : Value :=
  .object ([("auth", auth), ("effectiveProjectId", project)] ++
    (tier.map fun tier => ("capturedTier", tier)).toList)

/-- What the endpoints reply, where one that fails replies nothing: each of them to the request to
load, and to every attempt to onboard a tier for a project. The time is that of the reply. -/
structure Replies where
  load : List (Option Value)
  onboard : Value → Option String → List (List (Option Value))
  time : Value

def loadManaged (replies : Replies) : Option Value := replies.load.findSome? id

/-- An endpoint that fails is left; one that is not done is asked again. -/
def onboardAt (project : Option String) : List (Option Value) → Option Value
  | [] | none :: _ => none
  | some payload :: attempts =>
    let managed := ((payload.index "response").index "cloudaicompanionProject").index "id"
    if truthy (payload.index "done") then
      if truthy managed then some managed
      else
        match project.filter fun project => project != "" with
        | some project => some (.string project)
        | none => onboardAt project attempts
    else onboardAt project attempts

def onboard (replies : Replies) (tier : Value) (project : Option String) : Option Value :=
  (replies.onboard tier project).findSome? (onboardAt project)

/-- The project that was loaded. -/
def loadedProject (payload : Value) : Option Value :=
  let project := payload.index "cloudaicompanionProject"
  ((project.asStr <|> (project.index "id").asStr).filter fun id => id != "").map Value.string

def capturedTier (payload time : Value) : Option Value :=
  let current := (payload.index "currentTier").index "id"
  let paid := payload.index "paidTier"
  let paid := if paid.asStr.isSome then paid else paid.index "id"
  if truthy current then
    let tier := Value.object [("id", current)]
    let tier := if truthy paid then tier.set "paidId" paid else tier
    some (tier.set "capturedAt" time)
  else none

/-- The tier to onboard: the default one, the first one or the free one. -/
def allowedTier (payload : Value) : Except String Value :=
  let allowed := payload.index "allowedTiers"
  let free (tier : Value) := if tier.isNull then Value.string "free-tier" else tier
  if allowed.isNull || !truthy allowed then .ok (free .null)
  else
    match allowed.asArray with
    | none => .error "allowedTiers is not iterable"
    | some tiers =>
      let tier := tiers.find? (fun tier => truthy (tier.index "isDefault")) <|> tiers.head?
      .ok (free ((tier.map fun tier => tier.index "id").getD .null))

def refreshText (auth : Value) : Except String String :=
  match (auth.get "refresh").filter fun value => !value.isNull with
  | none => .ok ""
  | some value => Result.okOr value.asStr "refresh.split is not a function"

/-- The project that is provisioned, if there is one. -/
def provision (replies : Replies) (payload : Value) (project : Option String) :
    Except String (Option Value) :=
  match loadedProject payload with
  | some managed => .ok (some managed)
  | none => (allowedTier payload).map fun tier => onboard replies tier project

variable (F : Type) [Doubles F]

/-- The result for an authorization, and whether provisioning failed. It is not tried again after it
failed once. -/
def resolve (failed : Bool) (replies : Replies) (auth : Value) : Except String Value × Bool :=
  match refreshText auth with
  | .error e => (.error e, false)
  | .ok text =>
    let parts := parseRefresh text
    let own := Value.string (parts.projectId.getD defaultProject)
    match parts.managedProjectId with
    | some managed => (.ok (projectResult auth (.string managed) none), false)
    | none =>
      if failed then (.ok (projectResult auth own none), false)
      else
        let payload := (loadManaged replies).getD .null
        let tier := capturedTier payload replies.time
        match provision replies payload parts.projectId with
        | .error e => (.error e, false)
        | .ok (some managed) =>
          let refresh := formatRefresh { parts with managedProjectId := some (State.string F managed) }
          (.ok (projectResult (auth.set "refresh" (.string refresh)) managed tier), false)
        | .ok none => (.ok (projectResult auth own tier), true)

/-! ### Tokens and keys -/

/-- What stands before the first bar. -/
def token (text : String) : List Char := text.toList.takeWhile (· != '|')

/-- A refresh value with a token. -/
def HasToken (text : String) : Prop := ∃ c ∈ token text, Script.isSpace c = false

lemma headD_splitOn (cs : List Char) : (cs.splitOn '|').headD [] = cs.takeWhile (· != '|') := by
  have hcs := List.takeWhile_append_dropWhile (p := (· != '|')) (l := cs)
  have hplain : ∀ c ∈ cs.takeWhile (· != '|'), (c == '|') = false := by
    intro c hc
    have hne := List.mem_takeWhile_imp hc
    simpa using hne
  rw [List.splitOn_eq_splitOnP]
  cases hrest : cs.dropWhile (· != '|') with
  | nil =>
    rw [hrest, List.append_nil] at hcs
    rw [hcs] at hplain ⊢
    rw [List.splitOnP_eq_singleton hplain]
    rfl
  | cons c rest =>
    have hbar : c = '|' := by
      have hhead := List.head_dropWhile_not (· != '|') (l := cs) (by rw [hrest]; exact List.cons_ne_nil _ _)
      simpa [hrest] using hhead
    subst hbar
    rw [hrest] at hcs
    nth_rewrite 1 [← hcs]
    rw [List.splitOnP_append_cons_of_forall_mem hplain '|' (by decide)]
    rfl

lemma refreshToken_parseRefresh (text : String) :
    (parseRefresh text).refreshToken = String.ofList (token text) := by
  rw [parseRefresh, headD_splitOn, token]

lemma rdropWhile_append {p : Char → Bool} {c : Char} (hc : p c = false) (xs ys : List Char) :
    (xs ++ c :: ys).rdropWhile p = xs ++ c :: ys.rdropWhile p := by
  induction ys using List.reverseRecOn with
  | nil =>
    rw [List.rdropWhile_nil]
    exact List.rdropWhile_concat_neg _ _ _ (by rw [hc]; decide)
  | append_singleton ys d ih =>
    rw [← List.cons_append, ← List.append_assoc]
    by_cases hd : p d = true
    · rw [List.rdropWhile_concat_pos _ _ _ hd, List.rdropWhile_concat_pos _ _ _ hd]
      exact ih
    · rw [List.rdropWhile_concat_neg _ _ _ hd, List.rdropWhile_concat_neg _ _ _ hd]
      simp

/-- A text is its token, or goes on with a bar. -/
lemma token_cases (text : String) :
    text.toList = token text ∨ ∃ rest, text.toList = token text ++ '|' :: rest := by
  have hcs := List.takeWhile_append_dropWhile (p := (· != '|')) (l := text.toList)
  cases hrest : text.toList.dropWhile (· != '|') with
  | nil =>
    rw [hrest, List.append_nil] at hcs
    exact .inl hcs.symm
  | cons c rest =>
    have hhead := List.head_dropWhile_not (· != '|') (l := text.toList)
      (by rw [hrest]; exact List.cons_ne_nil _ _)
    have hbar : c = '|' := by simpa [hrest] using hhead
    rw [hrest, hbar] at hcs
    exact .inr ⟨rest, hcs.symm⟩

lemma bar_not_mem_token (text : String) : '|' ∉ token text := by
  intro hmem
  simpa using List.mem_takeWhile_imp hmem

lemma takeWhile_bar {cs : List Char} (h : '|' ∉ cs) (rest : List Char) :
    cs.takeWhile (· != '|') = cs ∧ (cs ++ '|' :: rest).takeWhile (· != '|') = cs := by
  have hplain : ∀ c ∈ cs, (c != '|') = true := by
    intro c hc
    rw [bne_iff_ne]
    rintro rfl
    exact h hc
  exact ⟨List.takeWhile_eq_self_iff.mpr hplain, by
    rw [List.takeWhile_append_of_pos hplain, List.takeWhile_cons_of_neg (by decide), List.append_nil]⟩

lemma HasToken.dropWhile_eq {text : String} (h : HasToken text) : ∃ c cs,
    (token text).dropWhile Script.isSpace = c :: cs ∧ Script.isSpace c = false := by
  obtain ⟨c, hc, hspace⟩ := h
  have hne : (token text).dropWhile Script.isSpace ≠ [] := by
    intro hnil
    rw [List.dropWhile_eq_nil_iff.mp hnil c hc] at hspace
    cases hspace
  have hhead := List.head_dropWhile_not Script.isSpace hne
  cases hdrop : (token text).dropWhile Script.isSpace with
  | nil => exact absurd hdrop hne
  | cons d ds =>
    simp only [hdrop, List.head_cons] at hhead
    exact ⟨d, ds, rfl, hhead⟩

lemma bar_not_space : Script.isSpace '|' = false := by decide

/-- Trimming a text trims its token. -/
lemma HasToken.token_trim {text : String} (h : HasToken text) :
    Script.trim (String.ofList (token (Script.trim text))) = Script.trim (String.ofList (token text)) ∧
      Script.trim text ≠ "" ∧ Script.trim (String.ofList (token text)) ≠ "" := by
  obtain ⟨c, cs, hdrop, hspace⟩ := h.dropWhile_eq
  have htoken : Script.trim (String.ofList (token text)) =
      String.ofList (c :: cs.rdropWhile Script.isSpace) := by
    rw [Script.trim, String.toList_ofList, hdrop]
    exact congrArg String.ofList (rdropWhile_append hspace [] cs)
  have hbar : '|' ∉ c :: cs := by
    rw [← hdrop]
    exact fun hmem => bar_not_mem_token text ((List.dropWhile_sublist _).subset hmem)
  have hagain : ∀ ds : List Char, ds.rdropWhile Script.isSpace = cs.rdropWhile Script.isSpace →
      Script.trim (String.ofList (c :: ds)) = String.ofList (c :: cs.rdropWhile Script.isSpace) := by
    intro ds hds
    rw [Script.trim, String.toList_ofList, List.dropWhile_cons_of_neg (by rw [hspace]; decide)]
    have hfirst := rdropWhile_append hspace [] ds
    rw [List.nil_append] at hfirst
    rw [hfirst, hds]
    rfl
  rw [htoken]
  rcases token_cases text with heq | ⟨rest, heq⟩
  · have htrim : (Script.trim text).toList = c :: cs.rdropWhile Script.isSpace := by
      have hfirst := rdropWhile_append hspace [] cs
      rw [Script.trim, String.toList_ofList, heq, hdrop]
      exact hfirst
    have hbar' : '|' ∉ c :: cs.rdropWhile Script.isSpace := by
      intro hmem
      rcases List.mem_cons.mp hmem with rfl | hmem
      · exact hbar List.mem_cons_self
      · exact hbar (List.mem_cons_of_mem _ ((List.rdropWhile_prefix _ _).subset hmem))
    refine ⟨?_, fun hempty => by simp [hempty] at htrim, by simp⟩
    rw [token, htrim, (takeWhile_bar hbar' []).1]
    exact hagain _ (List.rdropWhile_idempotent _ _)
  · have htrim : (Script.trim text).toList =
        (c :: cs) ++ '|' :: rest.rdropWhile Script.isSpace := by
      rw [Script.trim, String.toList_ofList, heq, List.dropWhile_append, hdrop]
      exact rdropWhile_append bar_not_space (c :: cs) rest
    refine ⟨?_, fun hempty => by simp [hempty] at htrim, by simp⟩
    rw [token, htrim, (takeWhile_bar hbar _).2]
    exact hagain cs rfl

/-- The key of a refresh value with a token is the token, which has no bar. -/
lemma HasToken.cacheKey {text : String} (h : HasToken text) :
    cacheKey (some (.string text)) = .ok (some (Script.trim (String.ofList (token text)))) := by
  obtain ⟨htrim, htext, htoken⟩ := h.token_trim
  simp only [Antigravity.cacheKey, Option.filter_some, Value.isNull, Value.asStr, refreshToken_parseRefresh,
    htrim, if_neg htext, if_neg htoken, Bool.not_false, ↓reduceIte]

lemma bar_not_mem_trim {cs : List Char} (h : '|' ∉ cs) :
    '|' ∉ (Script.trim (String.ofList cs)).toList := by
  rw [Script.trim, String.toList_ofList, String.toList_ofList]
  intro hmem
  exact h ((List.dropWhile_sublist _).subset ((List.rdropWhile_prefix _ _).subset hmem))

/-- A refresh value with bars but without a token is its own key. -/
lemma bar_mem_cacheKey {text : String} {rest : List Char} (h : ¬HasToken text)
    (htext : text.toList = token text ++ '|' :: rest) :
    ∃ key, cacheKey (some (.string text)) = .ok (some key) ∧ '|' ∈ key.toList := by
  have hblank : ∀ c ∈ token text, Script.isSpace c = true := by
    intro c hc
    by_contra hspace
    exact h ⟨c, hc, by simpa using hspace⟩
  have htrim : (Script.trim text).toList = '|' :: rest.rdropWhile Script.isSpace := by
    rw [Script.trim, String.toList_ofList, htext, List.dropWhile_append,
      List.dropWhile_eq_nil_iff.mpr hblank]
    exact rdropWhile_append bar_not_space [] rest
  have hne : Script.trim text ≠ "" := fun hempty => by simp [hempty] at htrim
  have htoken : token (Script.trim text) = [] := by
    rw [token, htrim, List.takeWhile_cons_of_neg (by decide)]
  refine ⟨Script.trim text, ?_, htrim ▸ List.mem_cons_self⟩
  simp only [Antigravity.cacheKey, Option.filter_some, Value.isNull, Value.asStr, refreshToken_parseRefresh,
    htoken, if_neg hne, Bool.not_false, ↓reduceIte]
  rfl

/-! ### What a lookup can give -/

def managedProject (auth : Value) : Option String :=
  (refreshText auth).toOption.bind fun text => (parseRefresh text).managedProjectId

/-- The key under which a result is kept. -/
def nextKey (value : Value) (key : String) : String :=
  ((cacheKey ((value.index "auth").get "refresh")).toOption.bind id).getD key

lemma index_projectResult (auth project : Value) (tier : Option Value) :
    (projectResult auth project tier).index "auth" = auth ∧
      (projectResult auth project tier).index "effectiveProjectId" = project := ⟨rfl, rfl⟩

/-- An authorization with a result is kept, or its refresh value is bound to the project. -/
lemma resolve_cases {failed : Bool} {replies : Replies} {auth value : Value}
    (h : (resolve F failed replies auth).1 = .ok value) : ∃ text, refreshText auth = .ok text ∧
      ((∃ project tier, value = projectResult auth project tier ∧
        ∀ managed, (parseRefresh text).managedProjectId = some managed → project = .string managed) ∨
      ∃ managed tier, (parseRefresh text).managedProjectId = none ∧ value =
        projectResult (auth.set "refresh" (.string (formatRefresh { parseRefresh text with
          managedProjectId := some (State.string F managed) }))) managed tier) := by
  rw [resolve] at h
  cases htext : refreshText auth with
  | error e =>
    rw [htext] at h
    cases h
  | ok text =>
    refine ⟨text, rfl, ?_⟩
    rw [htext] at h
    dsimp only at h
    cases hmanaged : (parseRefresh text).managedProjectId with
    | some managed =>
      rw [hmanaged] at h
      left
      refine ⟨_, _, (Except.ok.inj h).symm, ?_⟩
      rintro managed' ⟨⟩
      rfl
    | none =>
      rw [hmanaged] at h
      dsimp only at h
      split at h
      · exact .inl ⟨_, _, (Except.ok.inj h).symm, fun _ hnone => nomatch hnone⟩
      · split at h
        · cases h
        · exact .inr ⟨_, _, rfl, (Except.ok.inj h).symm⟩
        · exact .inl ⟨_, _, (Except.ok.inj h).symm, fun _ hnone => nomatch hnone⟩

/-- A refresh value that names a managed project gets that one. -/
lemma resolve_managed {failed : Bool} {replies : Replies} {auth value : Value} {managed : String}
    (h : (resolve F failed replies auth).1 = .ok value) (hmanaged : managedProject auth = some managed) :
    value.index "effectiveProjectId" = .string managed := by
  obtain ⟨text, htext, ⟨project, tier, rfl, hproject⟩ | ⟨project, tier, hnone, -⟩⟩ := resolve_cases F h
  · rw [managedProject, htext] at hmanaged
    exact hproject managed hmanaged
  · rw [managedProject, htext] at hmanaged
    have hsome : (parseRefresh text).managedProjectId = some managed := hmanaged
    rw [hnone] at hsome
    cases hsome

lemma token_formatRefresh (text : String) (managed : Option String) :
    let formatted := formatRefresh { parseRefresh text with managedProjectId := managed }
    token formatted = token text ∧ ∃ rest, formatted.toList = token formatted ++ '|' :: rest := by
  intro formatted
  obtain ⟨after, hafter⟩ : ∃ after, formatted = (parseRefresh text).refreshToken ++ ("|" ++ after) := by
    simp only [formatted, formatRefresh]
    split
    · rename_i managed _
      exact ⟨(parseRefresh text).projectId.getD "" ++ ("|" ++ managed), by
        simp only [String.append_assoc]⟩
    · exact ⟨(parseRefresh text).projectId.getD "", by simp only [String.append_assoc]⟩
  obtain ⟨rest, hrest⟩ : ∃ rest, formatted.toList = token text ++ '|' :: rest := by
    refine ⟨after.toList, ?_⟩
    rw [hafter, refreshToken_parseRefresh, String.toList_append, String.toList_append,
      String.toList_ofList]
    rfl
  have hsame : token formatted = token text := by
    rw [token, hrest, (takeWhile_bar (bar_not_mem_token text) rest).2]
  exact ⟨hsame, rest, by rw [hrest, hsame]⟩

lemma get_set_self {v : Value} (h : v.isObject = true) (key : String) (x : Value) :
    (v.set key x).get key = some x := by
  cases v with
  | object fields => rw [Value.set, Value.get_object, Value.lookup_setField, if_pos rfl]
  | null | bool | number | string | array => cases h

/-- Binding a refresh value does not change its key, unless it has no token. -/
lemma nextKey_cases {failed : Bool} {replies : Replies} {auth value : Value} {key : String}
    (hauth : auth.isObject = true) (hkey : cacheKey (auth.get "refresh") = .ok (some key))
    (h : (resolve F failed replies auth).1 = .ok value) :
    nextKey value key = key ∨ '|' ∈ (nextKey value key).toList := by
  obtain ⟨text, htext, ⟨project, tier, rfl, -⟩ | ⟨managed, tier, -, rfl⟩⟩ := resolve_cases F h
  · left
    rw [nextKey, (index_projectResult auth project tier).1, hkey]
    rfl
  · have hrefresh : auth.get "refresh" = some (.string text) := by
      cases hget : (auth.get "refresh").filter fun value => !value.isNull with
      | none =>
        rw [cacheKey, hget] at hkey
        cases hkey
      | some value =>
        rw [refreshText, hget] at htext
        obtain rfl := Value.asStr_eq_some.mp (Result.okOr_eq_ok.mp htext)
        exact (Option.filter_eq_some_iff.mp hget).1
    obtain ⟨hsame, rest, hrest⟩ := token_formatRefresh text (some (State.string F managed))
    rw [nextKey, (index_projectResult _ managed tier).1, get_set_self hauth]
    by_cases htoken : HasToken text
    · left
      have hformatted : HasToken (formatRefresh { parseRefresh text with
          managedProjectId := some (State.string F managed) }) := by
        rw [HasToken, hsame]
        exact htoken
      rw [hrefresh, htoken.cacheKey] at hkey
      rw [hformatted.cacheKey, hsame]
      exact Option.some.inj (Except.ok.inj hkey)
    · right
      have hformatted : ¬HasToken (formatRefresh { parseRefresh text with
          managedProjectId := some (State.string F managed) }) := by
        rw [HasToken, hsame]
        exact htoken
      obtain ⟨key', hkey', hbar⟩ := bar_mem_cacheKey hformatted hrest
      rw [hkey']
      exact hbar

end Antigravity
