import RpiPackage.Codemode.Budget

/-!
# Accounts of calls and results

What the operations of the bridge do to the calls that the host accepted and to the results that it
retains, as a few kinds of deals: each call is disposed of once, and each result is released at most
once. What is not a deal leaves the accounts alone.
-/

namespace Codemode

open Json Relation Result Bridge

/-- What an exchange was about, if it was for an operation. -/
def askedFor (op key : String) (e : Exchange) : Option String :=
  if (e.request.index "op").asStr = some op then (e.request.index key).asStr else none

/-- The calls and results of a bridge, with those that the host was told to give up. -/
structure Accounts where
  pending : List Call
  seen : List String
  started : Nat
  references : Table Nat Reference
  parts : List OutputPart
  result : Option Value
  selected : Option Nat
  hasEmission : Bool
  terminalError : Bool
  disposed : List String
  released : List String

namespace Bridge

def disposals (s : Bridge) : List String :=
  s.exchanges.filterMap (askedFor "dispose" "requestId")

def releases (s : Bridge) : List String :=
  s.exchanges.filterMap (askedFor "release_result" "resultId")

def accounts (s : Bridge) : Accounts :=
  ⟨s.pending, s.seenIds, s.started, s.references, s.outputParts, s.selectedResult,
    s.selectedReference, s.hasEmission, s.terminalError, s.disposals, s.releases⟩

end Bridge

/-- What the bridge changes of its accounts. -/
inductive Deal (a : Accounts) : Accounts → Prop
  | begun (h : a.started < maxCalls) : Deal a { a with started := a.started + 1 }
  | called (id name : String) (h : a.started < maxCalls) (hactive : a.pending.length < maxActive)
      (hid : id ∉ a.seen) :
      Deal a { a with
        started := a.started + 1
        seen := a.seen ++ [id]
        pending := a.pending ++ [⟨id, a.started + 1, name⟩] }
  | failed (index : Nat) (call : Call) (h : a.pending[index]? = some call) :
      Deal a { a with
        pending := a.pending.eraseIdx index
        disposed := a.disposed ++ [call.id] }
  | retained (index : Nat) (call : Call) (reference : Reference) (h : a.pending[index]? = some call)
      (hid : reference.id = call.id) (hsize : a.references.size < maxReferences)
      (hfresh : a.references.get call.token = none) :
      Deal a { a with
        pending := a.pending.eraseIdx index
        references := a.references.put call.token reference
        disposed := a.disposed ++ [call.id] }
  | released (token : Nat) (reference : Reference) (h : a.references.get token = some reference)
      (hemitted : a.parts.any (isEmitted token) = false) (hselected : a.selected ≠ some token) :
      Deal a { a with
        references := a.references.erase token
        released := a.released ++ [reference.id] }
  | emitted (blocks : List Value) (hresult : a.result = none) (hselected : a.selected = none) :
      Deal a { a with
        parts := a.parts ++ [.inline blocks]
        hasEmission := true }
  | referenced (token : Nat) (indices : Value) (h : a.references.get token ≠ none)
      (hresult : a.result = none) (hselected : a.selected = none) :
      Deal a { a with
        parts := a.parts ++ [.reference token indices]
        hasEmission := true }
  | chosen (value : Value) (hresult : a.result = none) (hselected : a.selected = none)
      (hemission : a.hasEmission = false) : Deal a { a with result := some value }
  | selected (token : Nat) (h : a.references.get token ≠ none) (hresult : a.result = none)
      (hselected : a.selected = none) (hemission : a.hasEmission = false) :
      Deal a { a with selected := some token }
  | terminated (isError : Bool) : Deal a { a with terminalError := isError }
  | dropped : Deal a { a with result := none }
  | promoted (blocks : List Value) : Deal a { a with parts := a.parts ++ [.inline blocks] }

abbrev Deals : Accounts → Accounts → Prop := ReflTransGen Deal

namespace Bridge

section

variable {fromStr : String → Option Value} {host : Host} {s s' : Bridge} {reference : Reference}
  {α β : Type}

/-! ### Steps that leave the accounts alone -/

@[simp] lemma accounts_check : (s.check host).2.accounts = s.accounts := rfl

@[simp] lemma accounts_fail (e : String) :
    (s.fail e : Except String α × Bridge).2.accounts = s.accounts := rfl

lemma accounts_of_check {r : Except String Unit} (h : s.check host = (r, s')) :
    s'.accounts = s.accounts := by
  obtain rfl : (s.check host).2 = s' := congrArg Prod.snd h
  rfl

/-- An action is entered as what it asks to be given up. -/
lemma accounts_action (request : Value) : (s.action host request).2.accounts =
    { s.accounts with
      disposed := s.accounts.disposed ++
        (askedFor "dispose" "requestId" ⟨request, (s.action host request).1⟩).toList
      released := s.accounts.released ++
        (askedFor "release_result" "resultId" ⟨request, (s.action host request).1⟩).toList } := by
  have hone : ∀ (f : Exchange → Option String) (e : Exchange), [e].filterMap f = (f e).toList := by
    intro f e
    rw [List.filterMap_cons, List.filterMap_nil]
    cases f e <;> rfl
  show (⟨s.pending, s.seenIds, s.started, s.references, s.outputParts, s.selectedResult,
    s.selectedReference, s.hasEmission, s.terminalError, (s.exchanges ++ [_]).filterMap _, (s.exchanges ++ [_]).filterMap _⟩ : Accounts) = _
  rw [List.filterMap_append, List.filterMap_append, hone, hone]
  rfl

lemma askedFor_of_op {op key op' : String} {fields : List (String × Value)}
    {reply : Except String Value} : askedFor op key ⟨.object (("op", .string op') :: fields), reply⟩ =
      if op' = op then ((Value.object (("op", .string op') :: fields)).index key).asStr else none := by
  have hop : ((Value.object (("op", .string op') :: fields)).index "op").asStr = some op' := rfl
  unfold askedFor
  dsimp only
  rw [hop]
  simp only [Option.some.injEq]

/-- A request that gives nothing up. -/
def Keeps (request : Value) : Prop := ∀ reply,
  askedFor "dispose" "requestId" ⟨request, reply⟩ = none ∧
    askedFor "release_result" "resultId" ⟨request, reply⟩ = none

lemma accounts_of_keeps {request : Value} (h : Keeps request) :
    (s.action host request).2.accounts = s.accounts := by
  rw [accounts_action, (h _).1, (h _).2]
  simp only [Option.toList_none, List.append_nil]

lemma keeps_of_op {op : String} {fields : List (String × Value)} (hdispose : op ≠ "dispose")
    (hrelease : op ≠ "release_result") : Keeps (.object (("op", .string op) :: fields)) := by
  intro reply
  rw [askedFor_of_op, askedFor_of_op, if_neg hdispose, if_neg hrelease]
  exact ⟨rfl, rfl⟩

lemma keeps_start (name : String) (args : Value) (millis : Nat) :
    Keeps (startRequest name args millis) := keeps_of_op (by decide) (by decide)

lemma keeps_poll (id : String) : Keeps (callRequest "poll" id) := keeps_of_op (by decide) (by decide)

lemma keeps_cancel (id : String) : Keeps (callRequest "cancel" id) :=
  keeps_of_op (by decide) (by decide)

lemma keeps_read (id : String) (offset : Nat) : Keeps (readRequest id offset) :=
  keeps_of_op (by decide) (by decide)

lemma keeps_measure (id : String) (indices : Value) : Keeps (measureRequest id indices) :=
  keeps_of_op (by decide) (by decide)

lemma keeps_list (offset limit : Nat) : Keeps (listRequest offset limit) :=
  keeps_of_op (by decide) (by decide)

lemma accounts_dispose (id : String) : (s.action host (callRequest "dispose" id)).2.accounts =
    { s.accounts with disposed := s.accounts.disposed ++ [id] } := by
  rw [accounts_action, callRequest, askedFor_of_op, askedFor_of_op, if_pos rfl, if_neg (by decide),
    Option.toList_none, List.append_nil]
  rfl

lemma accounts_release (id : String) : (s.action host (releaseRequest id)).2.accounts =
    { s.accounts with released := s.accounts.released ++ [id] } := by
  rw [accounts_action, releaseRequest, askedFor_of_op, askedFor_of_op, if_neg (by decide), if_pos rfl,
    Option.toList_none, List.append_nil]
  rfl

@[simp] lemma accounts_latch (r : Except String α × Bridge) : (latch r).2.accounts = r.2.accounts := by
  obtain ⟨r, s⟩ := r
  cases r <;> rfl

lemma accounts_andThen {r : Except String α × Bridge} {f : α → Bridge → Except String β × Bridge}
    {a : Accounts} (h : r.2.accounts = a) (hf : ∀ b s', s'.accounts = a → (f b s').2.accounts = a) :
    (andThen r f).2.accounts = a := by
  obtain ⟨r, s⟩ := r
  cases r with
  | error e => exact h
  | ok b => exact hf b s h

lemma accounts_of_action {request : Value} (hkeeps : Keeps request) {r : Except String Value}
    (h : s.action host request = (r, s')) : s'.accounts = s.accounts := by
  obtain rfl : (s.action host request).2 = s' := congrArg Prod.snd h
  exact accounts_of_keeps hkeeps

lemma accounts_readFrom {offset : Nat} {text : String} :
    (s.readFrom host reference offset text).2.accounts = s.accounts := by
  fun_induction readFrom host s reference offset text with
  | case1 s offset text hlt e s₁ hcheck => exact accounts_of_check hcheck
  | case2 s offset text hlt s₁ hcheck e s₂ haction =>
    exact (accounts_of_action (keeps_read _ _) haction).trans (accounts_of_check hcheck)
  | case3 s offset text hlt s₁ hcheck reply s₂ haction e s₃ hcheck' =>
    rw [accounts_of_check hcheck', accounts_of_action (keeps_read _ _) haction, accounts_of_check hcheck]
  | case4 s offset text hlt s₁ hcheck reply s₂ haction s₃ hcheck' e hchunk =>
    rw [accounts_of_check hcheck', accounts_of_action (keeps_read _ _) haction, accounts_of_check hcheck]
  | case5 s offset text hlt s₁ hcheck reply s₂ haction s₃ hcheck' data hchunk _ ih =>
    rw [ih, accounts_of_check hcheck', accounts_of_action (keeps_read _ _) haction,
      accounts_of_check hcheck]
  | case6 s offset text hlt => rfl

lemma accounts_readReference {token : Nat} {materialize : Bool} :
    (s.readReference fromStr host token materialize).2.accounts = s.accounts := by
  unfold readReference
  rw [accounts_latch]
  refine accounts_andThen accounts_check fun _ s₁ h₁ => ?_
  split
  · exact h₁
  · split
    · exact h₁
    · refine accounts_andThen (accounts_readFrom.trans h₁) fun text s₂ h₂ => ?_
      refine accounts_andThen (accounts_check.trans h₂) fun _ s₃ h₃ => ?_
      split
      · exact h₃
      · split
        · exact h₃
        · exact h₃

lemma accounts_measure {token : Nat} {encoded : String} :
    (s.measure fromStr host token encoded).2.accounts = s.accounts := by
  unfold measure
  refine accounts_andThen accounts_check fun _ s₁ h₁ => ?_
  split
  · exact h₁
  split
  · exact h₁
  split
  · exact h₁
  refine accounts_andThen ((accounts_of_keeps (keeps_measure _ _)).trans h₁) fun reply s₂ h₂ => ?_
  refine accounts_andThen (accounts_check.trans h₂) fun _ s₃ h₃ => ?_
  split
  · exact h₃
  · exact h₃

lemma accounts_log {level text : String} : (s.log host level text).2.accounts = s.accounts := by
  unfold log
  refine accounts_andThen accounts_check fun _ s₁ h₁ => ?_
  split
  · exact h₁
  · exact h₁

lemma accounts_outputBudget {blocks bytes : Nat} :
    (s.outputBudget blocks bytes).2.accounts = s.accounts := by
  unfold outputBudget
  split
  · rfl
  · rfl

/-! ### Steps that deal -/

lemma deals_of_eq {a a' : Accounts} (h : a' = a) : Deals a a' := by
  rw [h]

lemma deals_andThen {r : Except String α × Bridge} {f : α → Bridge → Except String β × Bridge}
    {a : Accounts} (h : Deals a r.2.accounts)
    (hf : ∀ b, r.1 = .ok b → Deals a (f b r.2).2.accounts) : Deals a (andThen r f).2.accounts := by
  obtain ⟨r, s⟩ := r
  cases r with
  | error e => exact h
  | ok b => exact hf b rfl

lemma deals_start {name args : String} :
    Deals s.accounts (s.start fromStr host name args).2.accounts := by
  unfold start
  refine deals_andThen .refl fun _ _ => ?_
  split
  · exact .refl
  split
  · exact .refl
  split
  · exact .refl
  split
  · exact .refl
  split
  · exact .refl
  next hbudget =>
  have hstarted : s.accounts.started < maxCalls := Nat.lt_of_not_le fun h => hbudget (.inl h)
  have hactive : s.accounts.pending.length < maxActive := Nat.lt_of_not_le fun h => hbudget (.inr h)
  dsimp only
  split
  · next e s₁ haction =>
    refine .single ?_
    rw [accounts_fail]
    show Deal s.accounts s₁.accounts
    rw [accounts_of_action (keeps_start _ _ _) haction]
    exact .begun hstarted
  · next reply s₁ haction =>
    have haccounts : s₁.accounts = { s.accounts with started := s.accounts.started + 1 } :=
      accounts_of_action (keeps_start _ _ _) haction
    have hbegun : Deals s.accounts s₁.accounts := by
      rw [haccounts]
      exact .single (.begun hstarted)
    unfold accept
    split
    · exact hbegun
    split
    · exact hbegun
    next id _ hid =>
    have hcalled : Deals s.accounts { s₁.accounts with
        seen := s₁.accounts.seen ++ [id]
        pending := s₁.accounts.pending ++ [⟨id, s₁.accounts.started, name⟩] } := by
      have hseen : s₁.accounts.seen = s.accounts.seen := by rw [haccounts]
      have hnew : id ∉ s.accounts.seen := hseen ▸ hid
      rw [haccounts]
      exact .single (.called id name hstarted hactive hnew)
    dsimp only
    split
    · exact hcalled
    · exact hcalled

lemma deals_releaseReference {token : Nat} :
    Deals s.accounts (s.releaseReference host token).2.accounts := by
  unfold releaseReference
  refine deals_andThen .refl fun _ _ => ?_
  split
  · exact .refl
  split
  · exact .refl
  next hfree =>
  rw [not_or, Bool.not_eq_true] at hfree
  split
  · exact .refl
  next reference hget =>
  have hreleased : Deals s.accounts { s.accounts with
      references := s.accounts.references.erase token
      released := s.accounts.released ++ [reference.id] } :=
    .single (.released token reference hget hfree.2 hfree.1)
  dsimp only
  have hafter : ∀ s₁ : Bridge, s₁.accounts = { s.accounts with
      references := s.accounts.references.erase token } →
      Deals s.accounts (s₁.action host (releaseRequest reference.id)).2.accounts := by
    intro s₁ hs₁
    rw [accounts_release, hs₁]
    exact hreleased
  have haccounts := hafter { (s.check host).2 with
    references := (s.check host).2.references.erase token } rfl
  split
  · exact haccounts
  · exact haccounts

lemma deals_selectResult {encoded : String} {isError : Bool} :
    Deals s.accounts (s.selectResult fromStr host encoded isError).2.accounts := by
  unfold selectResult
  refine deals_andThen .refl fun _ _ => ?_
  split
  · exact .refl
  next hfree =>
  simp only [not_or, Bool.not_eq_true, Option.isSome_eq_false_iff, Option.isNone_iff_eq_none]
    at hfree
  split
  · exact .refl
  split
  · exact .refl
  · exact .single (.chosen _ hfree.1 hfree.2.1 hfree.2.2)

lemma deals_selectReference {token : Nat} :
    Deals s.accounts (s.selectReference host token).2.accounts := by
  unfold selectReference
  refine deals_andThen .refl fun _ _ => ?_
  split
  · exact .refl
  next hcontains =>
  split
  · exact .refl
  next hfree =>
  simp only [not_or, Bool.not_eq_true, Option.isSome_eq_false_iff, Option.isNone_iff_eq_none]
    at hfree
  refine .single (.selected token ?_ hfree.2.1 hfree.1 hfree.2.2)
  rw [Table.contains, Bool.not_eq_false, Option.isSome_iff_ne_none] at hcontains
  exact hcontains

lemma deals_emit {encoded : String} :
    Deals s.accounts (s.emit fromStr host encoded).2.accounts := by
  unfold emit
  refine deals_andThen .refl fun _ _ => ?_
  split
  · exact .refl
  next hfree =>
  simp only [not_or, Bool.not_eq_true, Option.isSome_eq_false_iff, Option.isNone_iff_eq_none]
    at hfree
  split
  · exact .refl
  split
  · exact .refl
  split
  · exact .refl
  next selected _ hfits =>
  refine deals_andThen (deals_of_eq accounts_outputBudget) fun _ _ => ?_
  have hbudget := @accounts_outputBudget (s.check host).2 selected.length (blockBytes selected)
  generalize ((s.check host).2.outputBudget selected.length (blockBytes selected)).2 = s₁ at hbudget ⊢
  rw [accounts_check] at hbudget
  rw [← hbudget]
  refine .single (.emitted selected ?_ ?_)
  · rw [hbudget]
    exact hfree.1
  · rw [hbudget]
    exact hfree.2

/-- Nothing that was emitted is measured once there is a selection. -/
lemma free_of_measure {token : Nat} {encoded : String} {a : Value × Nat × Nat}
    (h : (s.measure fromStr host token encoded).1 = .ok a) :
    s.selectedResult = none ∧ s.selectedReference = none := by
  unfold measure at h
  obtain ⟨_, -, h⟩ := andThen_eq_ok h
  split at h
  · cases h
  next hfree =>
  simp only [not_or, Bool.not_eq_true, Option.isSome_eq_false_iff, Option.isNone_iff_eq_none]
    at hfree
  exact hfree

lemma deals_emitReference {token : Nat} {encoded : String} :
    Deals s.accounts (s.emitReference fromStr host token encoded).2.accounts := by
  have hlatch : (latch (s.measure fromStr host token encoded)).2.accounts = s.accounts :=
    (accounts_latch _).trans accounts_measure
  unfold emitReference
  refine deals_andThen (deals_of_eq hlatch) fun a hok => ?_
  obtain ⟨indices, count, bytes⟩ := a
  obtain ⟨reference, step, reply, hget, -⟩ := measured_of_measure (latch_eq_ok hok)
  obtain ⟨hresult, hselected⟩ := free_of_measure (latch_eq_ok hok)
  generalize (latch (s.measure fromStr host token encoded)).2 = s₁ at hlatch ⊢
  dsimp only
  refine deals_andThen (deals_of_eq (accounts_outputBudget.trans hlatch)) fun _ _ => ?_
  have hbudget := (@accounts_outputBudget s₁ count bytes).trans hlatch
  generalize (s₁.outputBudget count bytes).2 = s₂ at hbudget ⊢
  have hretained : s₂.accounts.references.get token ≠ none := by
    rw [hbudget]
    exact hget ▸ Option.some_ne_none _
  rw [← hbudget]
  refine .single (.referenced token indices hretained ?_ ?_)
  · rw [hbudget]
    exact hresult
  · rw [hbudget]
    exact hselected

/-! ### Polls -/

lemma deals_settleCall {call : Call} {isError : Bool} :
    Deals s.accounts (s.settleCall fromStr host call isError).2.accounts := by
  unfold settleCall
  split
  · exact .refl
  split
  · exact .single (.terminated isError)
  split
  · exact .refl
  refine deals_andThen (deals_of_eq accounts_readReference) fun text _ => ?_
  have hread : (s.readReference fromStr host call.token true).2.accounts = s.accounts :=
    accounts_readReference
  generalize (s.readReference fromStr host call.token true).2 = s₁ at hread ⊢
  rw [← hread]
  refine deals_andThen deals_releaseReference fun _ _ => ?_
  split
  · exact deals_releaseReference
  · exact deals_releaseReference

lemma deals_disposeCall {index : Nat} {call : Call} {reply : Value} {failed : Bool} :
    Deals { s.accounts with
        pending := s.accounts.pending.eraseIdx index
        disposed := s.accounts.disposed ++ [call.id] }
      (s.disposeCall fromStr host index call reply failed).2.accounts := by
  have hdispose := @accounts_dispose host { s with pending := s.pending.eraseIdx index } call.id
  unfold disposeCall
  dsimp only
  split
  · exact deals_of_eq hdispose
  split
  · exact deals_of_eq hdispose
  · refine ReflTransGen.trans (deals_of_eq ?_) deals_settleCall
    exact hdispose

lemma id_of_manifest {id : String} {reply : Value} (h : manifest id reply = .ok reference) :
    reference.id = id := by
  unfold manifest at h
  simp only [bind_eq_ok, pure_eq_ok, Except.ok.injEq] at h
  obtain ⟨_, -, _, -, _, -, _, -, _, -, _, -, rfl⟩ := h
  rfl

lemma deals_pollCall {index : Nat} {call : Call} (hcall : s.pending[index]? = some call)
    (hfresh : s.references.get call.token = none) :
    Deals s.accounts (s.pollCall fromStr host index call).2.accounts := by
  unfold pollCall
  split
  · next e s₁ haction => exact deals_of_eq (accounts_of_action (keeps_poll _) haction)
  next reply s₁ haction =>
  have haccounts := accounts_of_action (keeps_poll _) haction
  split
  · exact deals_of_eq haccounts
  · exact deals_of_eq haccounts
  have hpending : s₁.accounts.pending[index]? = some call := by
    rw [haccounts]
    exact hcall
  have hreferences : s₁.accounts.references.get call.token = none := by
    rw [haccounts]
    exact hfresh
  dsimp only
  rw [← haccounts]
  split
  · exact (ReflTransGen.single (.failed index call hpending)).trans deals_disposeCall
  unfold retain
  split
  · next reference hmanifest =>
    split
    · next hsize =>
      exact (ReflTransGen.single (.retained index call reference hpending (id_of_manifest hmanifest)
        hsize hreferences)).trans deals_disposeCall
    · exact .refl
  · exact .refl

lemma owned_edits {b b' : Books} (h : b.Owned) (hedits : Edits host b b') : b'.Owned := by
  induction hedits with
  | refl => exact h
  | tail _ hedit ih => exact ih.edit hedit

lemma deals_pollBelow {index : Nat} (howned : s.books.Owned) :
    Deals s.accounts (s.pollBelow fromStr host index).2.accounts := by
  induction index generalizing s with
  | zero => exact .refl
  | succ index ih =>
    unfold pollBelow
    split
    · exact ih howned
    next call hcall =>
    have hfresh := howned.apart call (List.mem_of_getElem? hcall)
    have hdeals := @deals_pollCall fromStr host s index call hcall hfresh
    have hedits := owned_edits howned (@edits_pollCall fromStr host s index call hcall)
    split
    · next e s₁ hpoll =>
      rw [hpoll] at hdeals
      exact hdeals
    · next s₁ hpoll =>
      rw [hpoll] at hdeals
      exact hdeals
    · next s₁ hpoll =>
      rw [hpoll] at hdeals hedits
      exact hdeals.trans (ih hedits)
    · next token ok payload large s₁ hpoll =>
      rw [hpoll] at hdeals hedits
      have hbelow := hdeals.trans (ih hedits)
      split
      · next ready s₂ hrest =>
        rw [hrest] at hbelow
        exact hbelow
      · exact hbelow

lemma deals_poll (howned : s.books.Owned) :
    Deals s.accounts (s.poll fromStr host).2.accounts := by
  unfold poll
  refine deals_andThen .refl fun _ _ => ?_
  exact @deals_pollBelow fromStr host (s.check host).2 _ howned

lemma deals_step (howned : s.books.Owned) (op : Op) :
    Deals s.accounts (s.step fromStr host op).accounts := by
  cases op with
  | start name args => exact deals_start
  | log level text => exact deals_of_eq accounts_log
  | emit encoded => exact deals_emit
  | selectResult encoded isError => exact deals_selectResult
  | readReference token materialize => exact deals_of_eq accounts_readReference
  | releaseReference token => exact deals_releaseReference
  | selectReference token => exact deals_selectReference
  | emitReference token encoded => exact deals_emitReference
  | poll => exact deals_poll howned

lemma deals_after (howned : s.books.Owned) (ops : List Op) :
    Deals s.accounts (ops.foldl (step fromStr host) s).accounts := by
  induction ops generalizing s with
  | nil => exact .refl
  | cons op ops ih => exact (deals_step howned op).trans (ih (owned_edits howned (edits_step op)))

end

end Bridge

/-! ### The balance -/

def Accounts.retained (a : Accounts) : List String := a.references.entries.map fun entry => entry.2.id

/-- The results that the host was ever left with. -/
def Accounts.known (a : Accounts) : List String := a.retained ++ a.released

/-- A call is pending or disposed of, and a result is retained or released, once in either case. -/
structure Accounts.Balanced (a : Accounts) : Prop where
  seen : a.seen.Nodup
  calls : (a.pending.map Call.id ++ a.disposed).Perm a.seen
  results : a.known.Nodup
  ends : ∀ id ∈ a.known, id ∈ a.disposed
  accepted : a.seen.length ≤ a.started
  started : a.started ≤ maxCalls
  active : a.pending.length ≤ maxActive
  size : a.references.size ≤ maxReferences
  parts : ∀ token, a.parts.any (isEmitted token) = true → a.references.get token ≠ none
  selected : ∀ token, a.selected = some token → a.references.get token ≠ none
  one : a.result = none ∨ a.selected = none
  alone : a.hasEmission = true → a.result = none ∧ a.selected = none
  emission : ∀ token, a.parts.any (isEmitted token) = true → a.hasEmission = true

lemma perm_eraseIdx {calls : List Call} {index : Nat} {call : Call}
    (h : calls[index]? = some call) :
    (calls.map Call.id).Perm (call.id :: (calls.eraseIdx index).map Call.id) := by
  obtain ⟨hlt, rfl⟩ := List.getElem?_eq_some_iff.mp h
  exact ((List.getElem_cons_eraseIdx_perm hlt).map Call.id).symm

namespace Accounts

variable {a a' : Accounts}

lemma known_release {token : Nat} {reference : Reference}
    (h : a.references.get token = some reference) :
    ({ a with
      references := a.references.erase token
      released := a.released ++ [reference.id] } : Accounts).known.Perm a.known := by
  have hentries := Table.perm_erase h
  have hretained : a.retained.Perm (reference.id ::
      ({ a with references := a.references.erase token } : Accounts).retained) :=
    hentries.map fun entry : Nat × Reference => entry.2.id
  show (({ a with references := a.references.erase token } : Accounts).retained ++
    (a.released ++ [reference.id])).Perm (a.retained ++ a.released)
  refine List.Perm.trans ?_ (hretained.symm.append_right _)
  rw [← List.append_assoc]
  exact List.perm_append_singleton _ _

lemma known_retain {token : Nat} {reference : Reference} (h : a.references.get token = none) :
    ({ a with references := a.references.put token reference } : Accounts).known.Perm
      (reference.id :: a.known) := by
  have hentries : (a.references.put token reference).entries =
      a.references.entries ++ [(token, reference)] :=
    Table.putEntries_of_not_mem (Table.get_eq_none.mp h)
  show ((a.references.put token reference).entries.map _ ++ a.released).Perm _
  rw [hentries, List.map_append, List.append_assoc]
  exact List.perm_middle

/-- A call that is taken from the pending ones is disposed of. -/
lemma Balanced.dispose (h : a.Balanced) {index : Nat} {call : Call}
    (hcall : a.pending[index]? = some call) :
    ({ a with
      pending := a.pending.eraseIdx index
      disposed := a.disposed ++ [call.id] } : Accounts).Balanced ∧ call.id ∉ a.known := by
  have hcalls : ((a.pending.eraseIdx index).map Call.id ++ (a.disposed ++ [call.id])).Perm
      (a.pending.map Call.id ++ a.disposed) := by
    refine List.Perm.trans ?_ ((perm_eraseIdx hcall).symm.append_right _)
    rw [← List.append_assoc]
    exact List.perm_append_singleton _ _
  have hnodup := h.calls.nodup_iff.mpr h.seen
  constructor
  · exact { h with
      calls := hcalls.trans h.calls
      ends := fun id hid => List.mem_append_left _ (h.ends id hid)
      active := (List.length_eraseIdx_le _ _).trans h.active }
  · intro hknown
    have hpending : call.id ∈ a.pending.map Call.id :=
      List.mem_map_of_mem (List.mem_of_getElem? hcall)
    exact List.disjoint_of_nodup_append hnodup hpending (h.ends _ hknown)

lemma any_of_inline {parts : List OutputPart} {blocks : List Value} {token : Nat}
    (h : (parts ++ [OutputPart.inline blocks]).any (isEmitted token) = true) :
    parts.any (isEmitted token) = true := by
  simpa [isEmitted] using h

/-- A deal keeps the balance. -/
lemma Balanced.deal (h : a.Balanced) (hdeal : Deal a a') : a'.Balanced := by
  cases hdeal with
  | begun hstarted =>
    exact { h with
      accepted := h.accepted.trans (Nat.le_succ _)
      started := hstarted }
  | called id name hstarted hactive hid =>
    refine { h with
      seen := ?seen, calls := ?calls, accepted := ?accepted, started := hstarted, active := ?active }
    case seen => exact List.nodup_append.mpr ⟨h.seen, List.nodup_singleton id, by
      rintro other hother _ hmem rfl
      exact hid (List.mem_singleton.mp hmem ▸ hother)⟩
    case calls =>
      show ((a.pending ++ [(⟨id, a.started + 1, name⟩ : Call)]).map Call.id ++ a.disposed).Perm
        (a.seen ++ [id])
      rw [List.map_append, List.append_assoc]
      refine List.perm_middle.trans ?_
      exact (h.calls.cons id).trans (List.perm_append_singleton id a.seen).symm
    case accepted =>
      show (a.seen ++ [id]).length ≤ a.started + 1
      rw [List.length_append]
      exact Nat.succ_le_succ h.accepted
    case active =>
      show (a.pending ++ [_]).length ≤ maxActive
      rw [List.length_append]
      exact hactive
  | failed index call hcall => exact (h.dispose hcall).1
  | retained index call reference hcall hid hsize hfresh =>
    obtain ⟨hdisposed, hnew⟩ := h.dispose hcall
    have hknown := @known_retain a call.token reference hfresh
    have hkeys : call.token ∉ a.references.keys := Table.get_eq_none.mp hfresh
    have hget : ∀ token, a.references.get token ≠ none →
        (a.references.put call.token reference).get token ≠ none := by
      intro token hget
      have hne : token ≠ call.token := fun heq => hget (heq ▸ hfresh)
      rw [Table.get_put_of_ne hne]
      exact hget
    refine { hdisposed with
      results := ?results, ends := ?ends, size := ?size
      parts := fun token htoken => hget token (h.parts token htoken)
      selected := fun token htoken => hget token (h.selected token htoken) }
    case results =>
      refine hknown.nodup_iff.mpr (List.nodup_cons.mpr ⟨?_, h.results⟩)
      rw [hid]
      exact hnew
    case ends =>
      intro id hmem
      rcases List.mem_cons.mp (hknown.mem_iff.mp hmem) with rfl | hmem
      · exact List.mem_append_right _ (List.mem_singleton.mpr hid)
      · exact List.mem_append_left _ (h.ends id hmem)
    case size =>
      show (a.references.put call.token reference).size ≤ maxReferences
      rw [Table.size_put hkeys]
      exact hsize
  | released token reference hget hemitted hselected =>
    have hknown := known_release hget
    have hkept : ∀ other, other ≠ token → a.references.get other ≠ none →
        (a.references.erase token).get other ≠ none := by
      intro other hne hother
      rw [Table.get_erase_of_ne hne]
      exact hother
    refine { h with
      results := hknown.nodup_iff.mpr h.results
      ends := fun id hid => h.ends id (hknown.mem_iff.mp hid)
      size := (Table.size_erase_le _ _).trans h.size
      parts := ?emitted', selected := ?selected' }
    case emitted' =>
      intro other hother
      refine hkept other ?_ (h.parts other hother)
      rintro rfl
      rw [hemitted] at hother
      cases hother
    case selected' =>
      intro other hother
      refine hkept other ?_ (h.selected other hother)
      rintro rfl
      exact hselected hother
  | emitted blocks hresult hselected =>
    exact { h with
      parts := fun token htoken => h.parts token (any_of_inline htoken)
      alone := fun _ => ⟨hresult, hselected⟩
      emission := fun _ _ => rfl }
  | referenced token indices hget hresult hselected =>
    refine { h with
      parts := ?_, alone := fun _ => ⟨hresult, hselected⟩, emission := fun _ _ => rfl }
    intro other hother
    have hcases : a.parts.any (isEmitted other) = true ∨ token = other := by
      simpa [isEmitted] using hother
    rcases hcases with hother | rfl
    · exact h.parts other hother
    · exact hget
  | chosen value hresult hselected hemission =>
    refine { h with one := .inr hselected, alone := fun hemitted => ?_ }
    rw [hemission] at hemitted
    cases hemitted
  | selected token hget hresult hselected hemission =>
    refine { h with selected := ?selected', one := .inl hresult, alone := fun hemitted => ?_ }
    · rintro other ⟨⟩
      exact hget
    · rw [hemission] at hemitted
      cases hemitted
  | terminated isError => exact { h with }
  | dropped => exact { h with one := .inl rfl, alone := fun hemitted => ⟨rfl, (h.alone hemitted).2⟩ }
  | promoted blocks =>
    exact { h with
      parts := fun token htoken => h.parts token (any_of_inline htoken)
      emission := fun token htoken => h.emission token (any_of_inline htoken) }

lemma Balanced.deals (h : a.Balanced) (hdeals : Deals a a') : a'.Balanced := by
  induction hdeals with
  | refl => exact h
  | tail _ hdeal ih => exact ih.deal hdeal

/-- A result that was once retained is retained or released. -/
lemma known_of_deal (hdeal : Deal a a') {id : String} (h : id ∈ a.known) : id ∈ a'.known := by
  cases hdeal with
  | begun | called | failed | emitted | referenced | chosen | selected | terminated | dropped
  | promoted => exact h
  | retained index call reference hcall hid hsize hfresh =>
    exact (known_retain (a := a) hfresh).mem_iff.mpr (List.mem_cons_of_mem _ h)
  | released token reference hget hemitted hselected => exact (known_release hget).mem_iff.mpr h

lemma known_of_deals (hdeals : Deals a a') {id : String} (h : id ∈ a.known) : id ∈ a'.known := by
  induction hdeals with
  | refl => exact h
  | tail _ hdeal ih => exact known_of_deal hdeal ih

/-- A result that was released stays so. -/
lemma released_of_deals (hdeals : Deals a a') {id : String} (h : id ∈ a.released) :
    id ∈ a'.released := by
  induction hdeals with
  | refl => exact h
  | tail _ hdeal ih =>
    cases hdeal with
    | released token reference hget hemitted hselected => exact List.mem_append_left _ ih
    | _ => exact ih

end Accounts

/-! ### From the catalog to the selection -/

section

variable {fromStr : String → Option Value} {host : Host} {s : Bridge}

lemma accounts_catalogFrom {offset : Nat} {catalog : List Value} :
    (s.catalogFrom host offset catalog).2.accounts = s.accounts := by
  have hlist : ∀ {s s' : Bridge} {offset : Nat} {r : Except String (List Value × Option Nat)},
      s.listPage host offset 32 = (r, s') → s'.accounts = s.accounts := by
    intro s s' offset r h
    unfold listPage at h
    split at h
    · next e s₁ haction =>
      rw [← (Prod.mk.inj h).2]
      exact accounts_of_action (keeps_list _ _) haction
    · next page s₁ haction =>
      rw [← (Prod.mk.inj h).2]
      exact accounts_of_action (keeps_list _ _) haction
  fun_induction catalogFrom host s offset catalog with
  | case1 s offset catalog e s₁ hcheck => exact accounts_of_check hcheck
  | case2 s offset catalog s₁ hcheck e s₂ hpage =>
    exact (hlist hpage).trans (accounts_of_check hcheck)
  | case3 s offset catalog s₁ hcheck tools next s₂ hpage hbudget =>
    exact (hlist hpage).trans (accounts_of_check hcheck)
  | case4 s offset catalog s₁ hcheck tools s₂ hbudget next hpage hrange _ ih =>
    exact ih.trans ((hlist hpage).trans (accounts_of_check hcheck))
  | case5 s offset catalog s₁ hcheck tools s₂ hbudget hpage =>
    exact (hlist hpage).trans (accounts_of_check hcheck)

lemma accounts_loadCatalog : (s.loadCatalog host).2.accounts = s.accounts := by
  unfold loadCatalog
  exact accounts_andThen accounts_catalogFrom fun _ _ h => h

lemma owned_new : Bridge.new.books.Owned := (@counted_new fun _ _ => []).owned

lemma balanced_new : Bridge.new.accounts.Balanced := by
  refine ⟨.nil, .nil, .nil, ?_, ?_, ?_, ?_, ?_, ?_, ?_, .inl rfl, fun _ => ⟨rfl, rfl⟩, ?_⟩
  · intro id hid
    cases hid
  · exact Nat.le_refl _
  · exact Nat.zero_le _
  · exact Nat.zero_le _
  · exact Nat.zero_le _
  · intro token htoken
    cases htoken
  · intro token htoken
    cases htoken
  · intro token htoken
    cases htoken

lemma deals_program (ops : List Op) :
    Deals Bridge.new.accounts (program fromStr host ops).accounts := by
  have howned : (new.loadCatalog host).2.books.Owned := by
    rw [books_loadCatalog]
    exact owned_new
  exact ReflTransGen.trans (deals_of_eq accounts_loadCatalog) (deals_after howned ops)

lemma owned_program (ops : List Op) : (program fromStr host ops).books.Owned :=
  owned_edits owned_new (edits_program ops)

/-- The accounts go on from those of an earlier moment. -/
lemma deals_of_append (ops rest : List Op) :
    Deals (program fromStr host ops).accounts (program fromStr host (ops ++ rest)).accounts := by
  have hsplit : program fromStr host (ops ++ rest) =
      rest.foldl (step fromStr host) (program fromStr host ops) :=
    List.foldl_append
  rw [hsplit]
  exact deals_after (owned_program ops) rest

/-- What is pending is disposed of, and released in case the host retains it. -/
def Accounts.closed (a : Accounts) : Accounts :=
  { a with
    pending := []
    disposed := a.disposed ++ a.pending.map Call.id
    released := a.released ++ a.pending.map Call.id }

lemma accounts_cleanup : (s.cleanup host).accounts = s.accounts.closed := by
  have hcall : ∀ (s : Bridge) (call : Call), (s.cleanupCall host call).accounts =
      { s.accounts with
        disposed := s.accounts.disposed ++ [call.id]
        released := s.accounts.released ++ [call.id] } := by
    intro s call
    show ((((s.action host (callRequest "cancel" call.id)).2.action host
      (callRequest "dispose" call.id)).2.action host (releaseRequest call.id)).2).accounts = _
    rw [accounts_release, accounts_dispose, accounts_of_keeps (keeps_cancel _)]
  have hfold : ∀ (calls : List Call) (s : Bridge), (calls.foldl (cleanupCall host) s).accounts =
      { s.accounts with
        disposed := s.accounts.disposed ++ calls.map Call.id
        released := s.accounts.released ++ calls.map Call.id } := by
    intro calls
    induction calls with
    | nil =>
      intro s
      rw [List.map_nil, List.append_nil, List.append_nil]
      rfl
    | cons call calls ih =>
      intro s
      rw [List.foldl_cons, ih, hcall, List.map_cons, List.append_assoc, List.append_assoc]
      rfl
  exact hfold s.pending { s with pending := [] }

lemma Accounts.Balanced.closed {a : Accounts} (h : a.Balanced) : a.closed.Balanced := by
  have hnodup := h.calls.nodup_iff.mpr h.seen
  have hcalls : (a.disposed ++ a.pending.map Call.id).Perm a.seen :=
    List.perm_append_comm.trans h.calls
  have hknown : a.closed.known = a.known ++ a.pending.map Call.id := (List.append_assoc _ _ _).symm
  refine { h with
    calls := hcalls, results := ?results, ends := ?ends, active := Nat.zero_le _ }
  case results =>
    rw [hknown]
    refine List.Nodup.append h.results (List.nodup_append.mp hnodup).1 ?_
    exact fun id hid hpending => List.disjoint_of_nodup_append hnodup hpending (h.ends id hid)
  case ends =>
    intro id hid
    rw [hknown] at hid
    rcases List.mem_append.mp hid with hid | hid
    · exact List.mem_append_left _ (h.ends id hid)
    · exact List.mem_append_right _ hid

lemma accounts_outcome (run : Except String Value) :
    (s.outcome host run).2.accounts = s.accounts := by
  unfold outcome
  dsimp only
  split
  · rfl
  split
  · rfl
  split
  · rfl
  split
  · rfl
  split
  · rfl
  split
  · rfl
  · rfl

/-- A selection drops the result or adds inline blocks, if anything. -/
structure Accounts.Extends (a a' : Accounts) : Prop where
  deals : Deals a a'
  same : a' = { a with result := a'.result, parts := a'.parts }

lemma Accounts.Extends.refl (a : Accounts) : a.Extends a := ⟨.refl, rfl⟩

lemma Accounts.Extends.trans {a b c : Accounts} (h : a.Extends b) (h' : b.Extends c) :
    a.Extends c := by
  refine ⟨h.deals.trans h'.deals, ?_⟩
  rw [h'.same, h.same]

lemma extends_promoteResult (o : Outcome) (selected : List Value) (hasSelection : Bool) :
    s.accounts.Extends (s.promoteResult o selected hasSelection).2.accounts ∧
      (s.promoteResult o selected hasSelection).2.selectedResult = s.selectedResult := by
  unfold promoteResult
  split
  · exact ⟨.refl _, rfl⟩
  · exact ⟨.refl _, rfl⟩
  next blocks result _ =>
  dsimp only
  have hbudget : (if maxJson < s.emittedBytes + blockBytes blocks +
      (selected.length + blocks.length - 1) + 2 then (.error selectedBudget, s)
      else s.outputBudget blocks.length (blockBytes blocks)).2.accounts = s.accounts := by
    split
    · rfl
    · exact accounts_outputBudget
  generalize (if maxJson < s.emittedBytes + blockBytes blocks +
      (selected.length + blocks.length - 1) + 2 then (.error selectedBudget, s)
      else s.outputBudget blocks.length (blockBytes blocks)) = r at hbudget ⊢
  obtain ⟨r, s₁⟩ := r
  have hresult : s₁.selectedResult = s.selectedResult := congrArg Accounts.result hbudget
  rw [← hbudget]
  cases r with
  | error e => exact ⟨.refl _, hresult⟩
  | ok u => exact ⟨⟨.single (.promoted blocks), rfl⟩, hresult⟩

lemma extends_selection (o : Outcome) : s.accounts.Extends (s.selection o).2.accounts := by
  unfold selection
  split
  · dsimp only
    split
    · exact (@extends_promoteResult { s with emitted := [] } _ _ _).1
    · exact .refl _
  · have hdropped : s.accounts.Extends { s.accounts with result := none } :=
      ⟨.single .dropped, rfl⟩
    dsimp only
    split
    · exact hdropped.trans
        (@extends_promoteResult { s with selectedResult := none, emitted := [] } _ _ _).1
    · exact hdropped

end

end Codemode
