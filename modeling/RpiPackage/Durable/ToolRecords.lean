import RpiPackage.Durable.Action
import RpiPackage.Lib.Run
import Mathlib.Data.List.Forall2

/-!
# Tool results that arrive twice

The host reports the end of a tool call twice. The second report changes nothing unless several
entries already match the call: then each report leaves an entry of its own.
-/

namespace Durable

section Digest

variable (sha256 : List UInt8 → Vector UInt8 32)

/-- A report about a tool call. -/
inductive ToolReport where
  | start (callId name params : String)
  | finish (callId name result : String) (isError : Bool)

def DurableState.report (state : DurableState) : ToolReport → DurableState
  | .start callId name params => recordToolStart sha256 state callId name params
  | .finish callId name result isError => recordToolEnd sha256 state callId name result isError

/-- A run that has just started, after some reports. -/
def reported (initial : DurableState) (reports : List ToolReport) : DurableState :=
  Run.after (DurableState.report sha256) (startRun initial) reports

def DurableState.tools (state : DurableState) : List ToolCheckpoint :=
  (state.run.map RunCheckpoint.tools).getD []

/-- The entry matches the call. -/
def matchesCall (callId : String) (tool : ToolCheckpoint) : Bool :=
  toolMatches tool callId (toolCallId sha256 callId) (toolCallKey sha256 callId)

/-- The entry that keeps a result which cannot be attached to one call. -/
def ambiguousResult (callId name result : String) : ToolCheckpoint :=
  ⟨toolCallId sha256 callId, some (toolCallKey sha256 callId), summary name, "", .unknown,
    summary result⟩

/-- At most one entry matches the call, or the bound leaves room only for copies of the result. -/
def ReportsOnce (state : DurableState) (callId name result : String) : Prop :=
  state.tools.countP (matchesCall sha256 callId) ≤ 1 ∨
    (maxToolEntries ≤ state.tools.length + 1 ∧
      state.tools.drop (state.tools.length + 1 - maxToolEntries) =
        List.replicate (maxToolEntries - 1) (ambiguousResult sha256 callId name result))

/-- An entry stays as it is once it is not started any more. -/
def Settled (before after : ToolCheckpoint) : Prop := before.status ≠ .started → after = before

/-- Some reports leave the entries, and add at most one each; the bound evicts the oldest. -/
def Keeps (reports : Nat) (before after : List ToolCheckpoint) : Prop :=
  ∃ kept added, List.Forall₂ Settled before kept ∧ added.length ≤ reports ∧
    after = newestTools (kept ++ added)

variable {state : DurableState} {run : RunCheckpoint} {tools : List ToolCheckpoint}
  {callId name result : String} {isError : Bool}

/-! ### The bound -/

lemma newestTools_eq_self (h : tools.length ≤ maxToolEntries) : newestTools tools = tools := by
  unfold newestTools
  rw [Nat.sub_eq_zero_of_le h, List.drop_zero]

lemma length_newestTools_le (tools : List ToolCheckpoint) :
    (newestTools tools).length ≤ maxToolEntries := by
  unfold newestTools
  rw [List.length_drop]
  omega

/-- Evicting makes room for one entry. -/
lemma newestTools_append_singleton (tools : List ToolCheckpoint) (tool : ToolCheckpoint) :
    newestTools (tools ++ [tool]) = tools.drop (tools.length + 1 - maxToolEntries) ++ [tool] := by
  unfold newestTools
  rw [List.length_append, List.length_singleton]
  apply List.drop_append_of_le_length
  have : 0 < maxToolEntries := by decide
  omega

/-- What is evicted first would have been evicted anyway. -/
lemma newestTools_newestTools_append (tools more : List ToolCheckpoint) :
    newestTools (newestTools tools ++ more) = newestTools (tools ++ more) := by
  unfold newestTools
  generalize maxToolEntries = bound
  have hdrop : tools.drop (tools.length - bound) ++ more =
      (tools ++ more).drop (tools.length - bound) := by
    rw [List.drop_append_of_le_length (by omega)]
  have hlength : tools.length - bound +
      ((tools ++ more).length - (tools.length - bound) - bound) =
        (tools ++ more).length - bound := by
    rw [List.length_append]
    omega
  rw [hdrop, List.drop_drop, List.length_drop, hlength]

/-! ### Entries stay -/

lemma forall₂_settled_refl (tools : List ToolCheckpoint) : List.Forall₂ Settled tools tools :=
  List.forall₂_same.mpr fun _ _ _ => rfl

lemma Settled.trans {a b c : ToolCheckpoint} (h : Settled a b) (h' : Settled b c) :
    Settled a c := by
  intro hstatus
  have hb := h hstatus
  rw [← hb] at hstatus
  rw [h' hstatus, hb]

lemma forall₂_settled_trans {before between after : List ToolCheckpoint}
    (h : List.Forall₂ Settled before between) (h' : List.Forall₂ Settled between after) :
    List.Forall₂ Settled before after := by
  induction h generalizing after with
  | nil => exact h'
  | cons hab _ ih =>
    cases h' with
    | cons hbc hrest => exact .cons (hab.trans hbc) (ih hrest)

lemma forall₂_append_left {left right after : List ToolCheckpoint}
    (h : List.Forall₂ Settled (left ++ right) after) :
    List.Forall₂ Settled left (after.take left.length) ∧
      List.Forall₂ Settled right (after.drop left.length) := by
  have htake := List.forall₂_take left.length h
  have hdrop := List.forall₂_drop left.length h
  rw [List.take_left] at htake
  rw [List.drop_left] at hdrop
  exact ⟨htake, hdrop⟩

lemma keeps_refl (h : tools.length ≤ maxToolEntries) : Keeps 0 tools tools :=
  ⟨tools, [], forall₂_settled_refl tools, Nat.le_refl _, by
    rw [List.append_nil, newestTools_eq_self h]⟩

lemma Keeps.mono {before after : List ToolCheckpoint} {m n : Nat} (h : Keeps m before after)
    (hle : m ≤ n) : Keeps n before after := by
  obtain ⟨kept, added, hkept, hadded, rfl⟩ := h
  exact ⟨kept, added, hkept, Nat.le_trans hadded hle, rfl⟩

lemma Keeps.trans {before between after : List ToolCheckpoint} {m n : Nat}
    (h : Keeps m before between) (h' : Keeps n between after) : Keeps (m + n) before after := by
  obtain ⟨kept, added, hkept, hadded, rfl⟩ := h
  obtain ⟨kept', added', hkept', hadded', rfl⟩ := h'
  -- the evicted entries are put back in front of the later ones
  let evicted := (kept ++ added).length - maxToolEntries
  have hfull : List.Forall₂ Settled (kept ++ added) ((kept ++ added).take evicted ++ kept') := by
    have happend := List.rel_append (forall₂_settled_refl ((kept ++ added).take evicted)) hkept'
    unfold newestTools at happend
    dsimp only at happend
    rwa [List.take_append_drop] at happend
  obtain ⟨hleft, hright⟩ := forall₂_append_left hfull
  have hlength := hright.length_eq
  refine ⟨_, ((kept ++ added).take evicted ++ kept').drop kept.length ++ added',
    forall₂_settled_trans hkept hleft, ?_, ?_⟩
  · rw [List.length_append, ← hlength]
    omega
  · rw [← List.append_assoc, List.take_append_drop]
    have hnewest : newestTools ((kept ++ added).take evicted ++ kept') = kept' := by
      have htotal := hfull.length_eq
      unfold newestTools
      rw [← htotal]
      apply List.drop_left'
      rw [List.length_take]
      exact Nat.min_eq_left (Nat.sub_le ..)
    rw [← newestTools_newestTools_append ((kept ++ added).take evicted ++ kept'), hnewest]

/-! ### One report -/

/-- A result is attached to the entry of its call, once. -/
def attach (callId result : String) (isError : Bool) (tool : ToolCheckpoint) : ToolCheckpoint :=
  if matchesCall sha256 callId tool && tool.status == .started then
    { tool with status := if isError then .failed else .completed, result := summary result }
  else tool

/-- What a result does to the entries. -/
def endTools (callId name result : String) (isError : Bool) (tools : List ToolCheckpoint) :
    List ToolCheckpoint :=
  if tools.countP (matchesCall sha256 callId) = 1 then
    tools.map (attach sha256 callId result isError)
  else newestTools (tools ++ [ambiguousResult sha256 callId name result])

lemma recordToolEnd_eq (hrun : state.run = some run) :
    recordToolEnd sha256 state callId name result isError =
      { state with
        run := some { run with
          tools := endTools sha256 callId name result isError run.tools } } := by
  unfold recordToolEnd endTools
  rw [hrun]
  dsimp only
  split
  · rename_i hcount
    rw [if_pos (show run.tools.countP (matchesCall sha256 callId) = 1 from hcount)]
    rfl
  · rename_i hcount
    rw [if_neg (show ¬run.tools.countP (matchesCall sha256 callId) = 1 from hcount)]
    rfl

lemma recordToolStart_eq (callId name params : String) (hrun : state.run = some run) :
    recordToolStart sha256 state callId name params = state ∨
      ∃ tool, recordToolStart sha256 state callId name params =
        { state with run := some { run with tools := newestTools (run.tools ++ [tool]) } } := by
  unfold recordToolStart
  rw [hrun]
  dsimp only
  split
  · exact .inl rfl
  · exact .inr ⟨_, rfl⟩

variable {sha256}

lemma settled_attach (tool : ToolCheckpoint) :
    Settled tool (attach sha256 callId result isError tool) := by
  intro hstatus
  unfold attach
  rw [if_neg]
  simp [hstatus]

lemma matchesCall_attach (tool : ToolCheckpoint) :
    matchesCall sha256 callId (attach sha256 callId result isError tool) =
      matchesCall sha256 callId tool := by
  unfold attach
  split <;> rfl

lemma attach_attach (tool : ToolCheckpoint) :
    attach sha256 callId result isError (attach sha256 callId result isError tool) =
      attach sha256 callId result isError tool := by
  by_cases h : tool.status = .started
  · by_cases hmatch : matchesCall sha256 callId tool = true
    · have hattach : (attach sha256 callId result isError tool).status ≠ .started := by
        unfold attach
        rw [if_pos (by simp [h, hmatch])]
        cases isError <;> simp
      exact settled_attach _ hattach
    · have hsame : attach sha256 callId result isError tool = tool := if_neg (by simp [hmatch])
      rw [hsame, hsame]
  · rw [settled_attach tool h, settled_attach tool h]

lemma matchesCall_ambiguousResult :
    matchesCall sha256 callId (ambiguousResult sha256 callId name result) = true := by
  simp [matchesCall, toolMatches, ambiguousResult]

lemma attach_of_not_matches {tool : ToolCheckpoint}
    (h : matchesCall sha256 callId tool = false) :
    attach sha256 callId result isError tool = tool :=
  if_neg (by simp [h])

lemma keeps_endTools (h : tools.length ≤ maxToolEntries) :
    Keeps 1 tools (endTools sha256 callId name result isError tools) := by
  unfold endTools
  split
  · refine ⟨tools.map (attach sha256 callId result isError), [], ?_, Nat.zero_le _, ?_⟩
    · rw [List.forall₂_map_right_iff]
      exact List.forall₂_same.mpr fun tool _ => settled_attach tool
    · rw [List.append_nil, newestTools_eq_self (by rwa [List.length_map])]
  · exact ⟨tools, [_], forall₂_settled_refl tools, Nat.le_refl _, rfl⟩

lemma keeps_report (sha256 : List UInt8 → Vector UInt8 32) (hrun : state.run = some run) (h : run.tools.length ≤ maxToolEntries)
    (report : ToolReport) : ∃ tools, state.report sha256 report =
        { state with run := some { run with tools } } ∧ tools.length ≤ maxToolEntries ∧
      Keeps 1 run.tools tools := by
  cases report with
  | start callId name params =>
    rcases recordToolStart_eq sha256 callId name params hrun with
      hsame | ⟨tool, happend⟩
    · refine ⟨run.tools, ?_, h, (keeps_refl h).mono (Nat.zero_le _)⟩
      rw [← hrun]
      exact hsame
    · exact ⟨_, happend, length_newestTools_le _,
        run.tools, [tool], forall₂_settled_refl _, Nat.le_refl _, rfl⟩
  | finish callId name result isError =>
    refine ⟨endTools sha256 callId name result isError run.tools, recordToolEnd_eq sha256 hrun, ?_,
      keeps_endTools h⟩
    unfold endTools
    split
    · rwa [List.length_map]
    · exact length_newestTools_le _

/-- Any reports. -/
lemma keeps_reports (sha256 : List UInt8 → Vector UInt8 32) (hrun : state.run = some run) (h : run.tools.length ≤ maxToolEntries)
    (reports : List ToolReport) :
    ∃ tools, (Run.after (DurableState.report sha256) state reports).run =
        some { run with tools } ∧ tools.length ≤ maxToolEntries ∧
      Keeps reports.length run.tools tools := by
  induction reports generalizing state run with
  | nil => exact ⟨run.tools, hrun, h, keeps_refl h⟩
  | cons report reports ih =>
    obtain ⟨tools, hstep, hlen, hkeeps⟩ := keeps_report sha256 hrun h report
    obtain ⟨tools', hrun', hlen', hkeeps'⟩ :=
      @ih { state with run := some { run with tools } } { run with tools } rfl hlen
    refine ⟨tools', ?_, hlen', (hkeeps.trans hkeeps').mono ?_⟩
    · rw [Run.after_cons, hstep]
      exact hrun'
    · rw [List.length_cons, Nat.add_comm]

/-! ### Reports that come twice -/

lemma append_singleton_eq_cons {α : Type*} {l : List α} {a b : α} :
    l ++ [b] = a :: l ↔ a = b ∧ l = List.replicate l.length b := by
  induction l generalizing a with
  | nil => simp [eq_comm]
  | cons c l ih =>
    rw [List.cons_append, List.cons.injEq, ih, List.length_cons, List.replicate_succ,
      List.cons.injEq]
    constructor
    · rintro ⟨rfl, rfl, hl⟩
      exact ⟨rfl, rfl, hl⟩
    · rintro ⟨rfl, rfl, hl⟩
      exact ⟨rfl, rfl, hl⟩

lemma endTools_of_match (h : tools.countP (matchesCall sha256 callId) = 1) :
    endTools sha256 callId name result isError
        (endTools sha256 callId name result isError tools) =
      endTools sha256 callId name result isError tools := by
  have hcount : (tools.map (attach sha256 callId result isError)).countP
      (matchesCall sha256 callId) = 1 := by
    rw [List.countP_map, ← h]
    apply List.countP_congr
    intro tool _
    rw [Function.comp_apply, matchesCall_attach]
  have hend : endTools sha256 callId name result isError tools =
      tools.map (attach sha256 callId result isError) := if_pos h
  rw [hend]
  unfold endTools
  rw [if_pos hcount, List.map_map]
  exact List.map_congr_left fun tool _ => attach_attach tool

lemma endTools_of_no_match (h : tools.countP (matchesCall sha256 callId) = 0) :
    endTools sha256 callId name result isError
        (endTools sha256 callId name result isError tools) =
      endTools sha256 callId name result isError tools := by
  have hnone : ∀ tool ∈ tools.drop (tools.length + 1 - maxToolEntries),
      matchesCall sha256 callId tool = false := by
    intro tool htool
    simpa using List.countP_eq_zero.mp h tool (List.mem_of_mem_drop htool)
  have hend : endTools sha256 callId name result isError tools =
      tools.drop (tools.length + 1 - maxToolEntries) ++
        [ambiguousResult sha256 callId name result] := by
    unfold endTools
    rw [if_neg (by omega), newestTools_append_singleton]
  rw [hend]
  unfold endTools
  have hcount : (tools.drop (tools.length + 1 - maxToolEntries) ++
      [ambiguousResult sha256 callId name result]).countP (matchesCall sha256 callId) = 1 := by
    rw [List.countP_append, List.countP_singleton, matchesCall_ambiguousResult,
      List.countP_eq_zero.mpr fun tool htool => by simp [hnone tool htool]]
    rfl
  rw [if_pos hcount, List.map_append, List.map_singleton]
  congr 1
  · refine (List.map_congr_left fun tool htool => ?_).trans (List.map_id _)
    exact attach_of_not_matches (hnone tool htool)
  · exact congrArg (fun tool => [tool]) (settled_attach _ (by simp [ambiguousResult]))

/-- Two entries match: each report is an entry of its own. -/
lemma endTools_of_matches (hlen : tools.length ≤ maxToolEntries)
    (h : 2 ≤ tools.countP (matchesCall sha256 callId)) :
    endTools sha256 callId name result isError
        (endTools sha256 callId name result isError tools) =
      endTools sha256 callId name result isError tools ↔
    maxToolEntries ≤ tools.length + 1 ∧ tools.drop (tools.length + 1 - maxToolEntries) =
      List.replicate (maxToolEntries - 1) (ambiguousResult sha256 callId name result) := by
  have hend : endTools sha256 callId name result isError tools =
      tools.drop (tools.length + 1 - maxToolEntries) ++
        [ambiguousResult sha256 callId name result] := by
    unfold endTools
    rw [if_neg (by omega), newestTools_append_singleton]
  have hevicted : (tools.take (tools.length + 1 - maxToolEntries)).countP
      (matchesCall sha256 callId) ≤ 1 := by
    refine Nat.le_trans (List.countP_le_length) ?_
    rw [List.length_take]
    omega
  have hsplit := @List.countP_append _ (matchesCall sha256 callId)
    (tools.take (tools.length + 1 - maxToolEntries))
    (tools.drop (tools.length + 1 - maxToolEntries))
  rw [List.take_append_drop] at hsplit
  have hlength : (tools.drop (tools.length + 1 - maxToolEntries)).length =
      tools.length - (tools.length + 1 - maxToolEntries) := List.length_drop
  have hpos : 1 < maxToolEntries := by decide
  generalize hkept : tools.drop (tools.length + 1 - maxToolEntries) = kept at *
  have hcount : (kept ++ [ambiguousResult sha256 callId name result]).countP
      (matchesCall sha256 callId) ≠ 1 := by
    rw [List.countP_append, List.countP_singleton, matchesCall_ambiguousResult, if_pos rfl]
    omega
  have hagain : endTools sha256 callId name result isError
      (kept ++ [ambiguousResult sha256 callId name result]) =
      (kept ++ [ambiguousResult sha256 callId name result]).drop
        (kept.length + 1 + 1 - maxToolEntries) ++
          [ambiguousResult sha256 callId name result] := by
    unfold endTools
    rw [if_neg hcount, newestTools_append_singleton, List.length_append, List.length_singleton]
  rw [hend, hagain, List.append_cancel_right_eq]
  by_cases hfull : maxToolEntries ≤ tools.length + 1
  · have hone : kept.length + 1 + 1 - maxToolEntries = 1 := by omega
    have hkeptLength : kept.length = maxToolEntries - 1 := by omega
    rw [hone]
    cases kept with
    | nil =>
      rw [List.length_nil] at hkeptLength
      omega
    | cons tool kept =>
      show kept ++ [ambiguousResult sha256 callId name result] = tool :: kept ↔ _
      rw [append_singleton_eq_cons, ← hkeptLength, List.length_cons, List.replicate_succ,
        List.cons.injEq]
      exact ⟨fun heq => ⟨hfull, heq⟩, fun heq => heq.2⟩
  · refine iff_of_false ?_ fun heq => hfull heq.1
    intro heq
    have hsame := congrArg List.length heq
    rw [List.length_drop, List.length_append, List.length_singleton] at hsame
    omega

lemma recordToolEnd_twice_iff (hrun : state.run = some run)
    (hlen : run.tools.length ≤ maxToolEntries) :
    recordToolEnd sha256 (recordToolEnd sha256 state callId name result isError) callId name result
        isError = recordToolEnd sha256 state callId name result isError ↔
      ReportsOnce sha256 state callId name result := by
  rw [recordToolEnd_eq sha256 hrun, recordToolEnd_eq sha256 rfl]
  have hiff : ∀ l l' : List ToolCheckpoint,
      ({ state with run := some { run with tools := l } } : DurableState) =
        { state with run := some { run with tools := l' } } ↔ l = l' := by
    intro l l'
    simp
  refine (hiff _ _).trans ?_
  unfold ReportsOnce
  rw [show state.tools = run.tools by unfold DurableState.tools; rw [hrun]; rfl]
  rcases Nat.lt_or_ge 1 (run.tools.countP (matchesCall sha256 callId)) with hmany | hfew
  · rw [endTools_of_matches hlen hmany]
    exact ⟨.inr, fun h => h.resolve_left (by omega)⟩
  · refine iff_of_true ?_ (.inl hfew)
    rcases Nat.le_one_iff_eq_zero_or_eq_one.mp hfew with hzero | hone
    · exact endTools_of_no_match hzero
    · exact endTools_of_match hone

/-- In every state that reports lead to, a result that comes twice counts once exactly when at most
one entry matches its call, or the bound leaves nothing but copies of the result; and later reports
leave the entries that are no longer started as they are, until the bound evicts them. -/
theorem reported_once_iff (sha256 : List UInt8 → Vector UInt8 32) (initial : DurableState)
    (reports : List ToolReport) :
    (∀ callId name result isError,
      recordToolEnd sha256 (recordToolEnd sha256 (reported sha256 initial reports) callId name result
          isError) callId name result isError =
        recordToolEnd sha256 (reported sha256 initial reports) callId name result isError ↔
      ReportsOnce sha256 (reported sha256 initial reports) callId name result) ∧
    ∀ later, Keeps later.length (reported sha256 initial reports).tools
      (reported sha256 initial (reports ++ later)).tools := by
  have hstart : ∃ run, (startRun initial).run = some run ∧ run.tools = [] := ⟨_, rfl, rfl⟩
  obtain ⟨run, hrun, htools⟩ := hstart
  have hempty : run.tools.length ≤ maxToolEntries := by simp [htools]
  obtain ⟨tools, hreported, hlen, -⟩ := keeps_reports sha256 hrun hempty reports
  refine ⟨fun callId name result isError => recordToolEnd_twice_iff hreported hlen, ?_⟩
  intro later
  obtain ⟨tools', hreported', -, hkeeps⟩ := keeps_reports sha256 hreported hlen later
  unfold DurableState.tools reported
  rw [Run.after_append]
  rw [hreported, hreported']
  exact hkeeps

/-- A result that comes before the start of its call leaves two entries that match the call. -/
theorem exists_result_recorded_twice : ¬∀ (sha256 : List UInt8 → Vector UInt8 32) initial reports
    callId name result isError,
    recordToolEnd sha256 (recordToolEnd sha256 (reported sha256 initial reports) callId name result
        isError) callId name result isError =
      recordToolEnd sha256 (reported sha256 initial reports) callId name result isError := by
  intro hall
  have htwice := hall (fun _ => Vector.replicate 32 0) .default
    [.finish "a" "tool" "ok" false, .start "a" "tool" ""] "a" "tool" "ok" false
  revert htwice
  decide +kernel

end Digest

end Durable
