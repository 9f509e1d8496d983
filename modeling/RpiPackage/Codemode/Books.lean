import Mathlib.Logic.Relation
import RpiPackage.Codemode.Reading
import RpiPackage.Codemode.Settle

/-!
# Edits of the books

What the operations of the bridge change of the calls, the retained results and the output, as a few
kinds of edits. Everything that happens between two edits leaves them alone.
-/

namespace Codemode

open Json Relation Result

/-- The part of the bridge that keeps account of calls, results and output. -/
structure Books where
  pending : List Call
  started : Nat
  references : Table Nat Reference
  emitted : List Value
  parts : List OutputPart
  blocks : Nat
  bytes : Nat
  emittedBytes : Nat

namespace Bridge

def books (s : Bridge) : Books :=
  ⟨s.pending, s.started, s.references, s.emitted, s.outputParts, s.outputBlocks, s.outputBytes,
    s.emittedBytes⟩

end Bridge

open Bridge

/-- What the output may still take. -/
def Books.Admits (b : Books) (count bytes : Nat) : Prop :=
  b.blocks + count ≤ maxBlocks ∧
    b.bytes + bytes + (b.blocks + count - 1) + 2 ≤ memory - outputDiagnosticReserve

inductive Edit (host : Host) (b : Books) : Books → Prop
  | begun : Edit host b { b with started := b.started + 1 }
  | called (id name : String) :
      Edit host b { b with
        started := b.started + 1
        pending := b.pending ++ [⟨id, b.started + 1, name⟩] }
  | dropped (index : Nat) (call : Call) (h : b.pending[index]? = some call) :
      Edit host b { b with pending := b.pending.eraseIdx index }
  | retained (index : Nat) (call : Call) (reference : Reference)
      (h : b.pending[index]? = some call) (hsize : b.references.size < maxReferences) :
      Edit host b { b with
        pending := b.pending.eraseIdx index
        references := b.references.put call.token reference }
  | released (token : Nat) (h : b.parts.any (isEmitted token) = false) :
      Edit host b { b with references := b.references.erase token }
  | emitted (selected : List Value) (hcount : b.emitted.length + selected.length ≤ maxBlocks)
      (hsize : b.emittedBytes + blockBytes selected + (b.emitted.length + selected.length - 1) + 2 ≤
        maxJson)
      (hadmits : b.Admits selected.length (blockBytes selected)) :
      Edit host b { b with
        emitted := b.emitted ++ selected
        emittedBytes := b.emittedBytes + blockBytes selected
        parts := b.parts ++ [.inline selected]
        blocks := b.blocks + selected.length
        bytes := b.bytes + blockBytes selected }
  | referenced (token : Nat) (reference : Reference) (indices : Value) (count bytes step : Nat)
      (reply : Value) (hget : b.references.get token = some reference)
      (hreply : host.reply step (measureRequest reference.id indices) = .ok reply)
      (hmeasured : measured reference count reply = .ok bytes) (hadmits : b.Admits count bytes) :
      Edit host b { b with
        parts := b.parts ++ [.reference token indices]
        blocks := b.blocks + count
        bytes := b.bytes + bytes }

/-- Any number of edits. -/
abbrev Edits (host : Host) : Books → Books → Prop := ReflTransGen (Edit host)

namespace Bridge

section

variable {fromStr : String → Option Value} {host : Host} {s s' : Bridge} {reference : Reference}
  {α β : Type}

/-! ### Steps that leave the books alone -/

@[simp] lemma books_check : (s.check host).2.books = s.books := rfl

@[simp] lemma books_action (request : Value) : (s.action host request).2.books = s.books := rfl

@[simp] lemma books_fail (e : String) : (s.fail e : Except String α × Bridge).2.books = s.books := rfl

lemma books_of_check {r : Except String Unit} (h : s.check host = (r, s')) :
    s'.books = s.books := by
  obtain rfl : (s.check host).2 = s' := congrArg Prod.snd h
  rfl

lemma books_of_action {request : Value} {r : Except String Value}
    (h : s.action host request = (r, s')) : s'.books = s.books := by
  obtain rfl : (s.action host request).2 = s' := congrArg Prod.snd h
  rfl

@[simp] lemma books_latch (r : Except String α × Bridge) : (latch r).2.books = r.2.books := by
  obtain ⟨r, s⟩ := r
  cases r <;> rfl

lemma books_andThen {r : Except String α × Bridge} {f : α → Bridge → Except String β × Bridge}
    {b : Books} (h : r.2.books = b) (hf : ∀ a s', s'.books = b → (f a s').2.books = b) :
    (andThen r f).2.books = b := by
  obtain ⟨r, s⟩ := r
  cases r with
  | error e => exact h
  | ok a => exact hf a s h

lemma books_readFrom {offset : Nat} {text : String} :
    (s.readFrom host reference offset text).2.books = s.books := by
  fun_induction readFrom host s reference offset text with
  | case1 s offset text hlt e s₁ hcheck => exact books_of_check hcheck
  | case2 s offset text hlt s₁ hcheck e s₂ haction =>
    exact (books_of_action haction).trans (books_of_check hcheck)
  | case3 s offset text hlt s₁ hcheck reply s₂ haction e s₃ hcheck' =>
    exact (books_of_check hcheck').trans ((books_of_action haction).trans (books_of_check hcheck))
  | case4 s offset text hlt s₁ hcheck reply s₂ haction s₃ hcheck' e hchunk =>
    exact (books_of_check hcheck').trans ((books_of_action haction).trans (books_of_check hcheck))
  | case5 s offset text hlt s₁ hcheck reply s₂ haction s₃ hcheck' data hchunk _ ih =>
    rw [ih, books_of_check hcheck', books_of_action haction, books_of_check hcheck]
  | case6 s offset text hlt => rfl

lemma books_readReference {token : Nat} {materialize : Bool} :
    (s.readReference fromStr host token materialize).2.books = s.books := by
  unfold readReference
  rw [books_latch]
  refine books_andThen books_check fun _ s₁ h₁ => ?_
  split
  · exact h₁
  · split
    · exact h₁
    · refine books_andThen (books_readFrom.trans h₁) fun text s₂ h₂ => ?_
      refine books_andThen (books_check.trans h₂) fun _ s₃ h₃ => ?_
      split
      · exact h₃
      · split
        · exact h₃
        · exact h₃

/-! ### Steps that edit the books -/

/-- The edits of a step go on with those of the step after it. -/
lemma edits_andThen {r : Except String α × Bridge} {f : α → Bridge → Except String β × Bridge}
    {b : Books} (h : Edits host b r.2.books)
    (hf : ∀ a, r.1 = .ok a → Edits host b (f a r.2).2.books) :
    Edits host b (andThen r f).2.books := by
  obtain ⟨r, s⟩ := r
  cases r with
  | error e => exact h
  | ok a => exact hf a rfl

lemma edits_of_eq {b b' : Books} (h : b' = b) : Edits host b b' := by
  rw [h]

lemma edits_start {name args : String} :
    Edits host s.books (s.start fromStr host name args).2.books := by
  unfold start
  refine edits_andThen .refl fun _ _ => ?_
  split
  · exact .refl
  split
  · exact .refl
  split
  · exact .refl
  split
  · exact .refl
  split
  · exact .refl
  dsimp only
  split
  · next e s₁ haction =>
    refine .single ?_
    rw [books_fail]
    show Edit host s.books s₁.books
    rw [books_of_action haction]
    exact .begun
  · next reply s₁ haction =>
    have hbooks : s₁.books = { s.books with started := s.books.started + 1 } :=
      books_of_action haction
    unfold accept
    split
    · rw [books_fail, hbooks]
      exact .single .begun
    split
    · rw [books_fail, hbooks]
      exact .single .begun
    next id _ _ =>
    have hcalled : Edits host s.books { s₁.books with
        pending := s₁.books.pending ++ [⟨id, s₁.books.started, name⟩] } := by
      rw [hbooks]
      exact .single (.called id name)
    dsimp only
    split
    · exact hcalled
    · exact hcalled

lemma books_log {level text : String} : (s.log host level text).2.books = s.books := by
  unfold log
  refine books_andThen books_check fun _ s₁ h₁ => ?_
  split
  · exact h₁
  · exact h₁

lemma books_selectResult {encoded : String} {isError : Bool} :
    (s.selectResult fromStr host encoded isError).2.books = s.books := by
  unfold selectResult
  refine books_andThen books_check fun _ s₁ h₁ => ?_
  split
  · exact h₁
  split
  · exact h₁
  split
  · exact h₁
  · exact h₁

lemma books_selectReference {token : Nat} :
    (s.selectReference host token).2.books = s.books := by
  unfold selectReference
  refine books_andThen books_check fun _ s₁ h₁ => ?_
  split
  · exact h₁
  split
  · exact h₁
  · exact h₁

lemma edits_releaseReference {token : Nat} :
    Edits host s.books (s.releaseReference host token).2.books := by
  unfold releaseReference
  refine edits_andThen .refl fun _ _ => ?_
  split
  · exact .refl
  split
  · exact .refl
  next hfree =>
  rw [not_or, Bool.not_eq_true] at hfree
  split
  · exact .refl
  have hreleased : Edits host s.books
      { s.books with references := s.books.references.erase token } :=
    .single (.released token hfree.2)
  dsimp only
  split
  · exact hreleased
  · exact hreleased

lemma edits_emit {encoded : String} : Edits host s.books (s.emit fromStr host encoded).2.books := by
  unfold emit
  refine edits_andThen .refl fun _ _ => ?_
  split
  · exact .refl
  split
  · exact .refl
  split
  · exact .refl
  split
  · exact .refl
  next selected _ hfits =>
  rw [not_or, not_lt, not_lt] at hfits
  unfold outputBudget
  split
  · exact .refl
  · next hadmits =>
    rw [not_or, not_or, not_lt, not_lt] at hadmits
    exact .single (.emitted selected hfits.1 hfits.2 hadmits.2)

lemma books_measure {token : Nat} {encoded : String} :
    (s.measure fromStr host token encoded).2.books = s.books := by
  unfold measure
  refine books_andThen books_check fun _ s₁ h₁ => ?_
  split
  · exact h₁
  split
  · exact h₁
  split
  · exact h₁
  refine books_andThen ((books_action _).trans h₁) fun reply s₂ h₂ => ?_
  refine books_andThen (books_check.trans h₂) fun _ s₃ h₃ => ?_
  split
  · exact h₃
  · exact h₃

lemma andThen_eq_ok {r : Except String α × Bridge} {f : α → Bridge → Except String β × Bridge}
    {b : β} (h : (andThen r f).1 = .ok b) : ∃ a, r.1 = .ok a ∧ (f a r.2).1 = .ok b := by
  obtain ⟨r, s⟩ := r
  cases r with
  | error e => cases h
  | ok a => exact ⟨a, rfl, h⟩

/-- A measurement is an answer of the host about a result that it retains. -/
lemma measured_of_measure {token count bytes : Nat} {encoded : String} {indices : Value}
    (h : (s.measure fromStr host token encoded).1 = .ok (indices, count, bytes)) :
    ∃ reference step reply, s.references.get token = some reference ∧
      host.reply step (measureRequest reference.id indices) = .ok reply ∧
        measured reference count reply = .ok bytes := by
  unfold measure at h
  obtain ⟨_, -, h⟩ := andThen_eq_ok h
  split at h
  · cases h
  split at h
  · cases h
  next reference hget =>
  split at h
  · cases h
  next indices' count' _ =>
  obtain ⟨reply, hreply, h⟩ := andThen_eq_ok h
  obtain ⟨_, -, h⟩ := andThen_eq_ok h
  split at h
  · cases h
  next bytes' hmeasured =>
  cases h
  exact ⟨reference, _, reply, hget, hreply, hmeasured⟩

lemma latch_eq_ok {r : Except String α × Bridge} {a : α} (h : (latch r).1 = .ok a) :
    r.1 = .ok a := by
  obtain ⟨r, s⟩ := r
  cases r with
  | error e => cases h
  | ok a => exact h

lemma edits_emitReference {token : Nat} {encoded : String} :
    Edits host s.books (s.emitReference fromStr host token encoded).2.books := by
  have hbooks : (latch (s.measure fromStr host token encoded)).2.books = s.books :=
    (books_latch _).trans books_measure
  unfold emitReference
  refine edits_andThen (edits_of_eq hbooks) fun a hok => ?_
  obtain ⟨indices, count, bytes⟩ := a
  obtain ⟨reference, step, reply, hget, hreply, hmeasured⟩ :=
    measured_of_measure (latch_eq_ok hok)
  generalize (latch (s.measure fromStr host token encoded)).2 = s₁ at hbooks
  dsimp only
  unfold outputBudget
  split
  · exact edits_of_eq hbooks
  next hadmits =>
  rw [not_or, not_or, not_lt, not_lt] at hadmits
  have hedit : Edit host s₁.books { s₁.books with
      parts := s₁.books.parts ++ [.reference token indices]
      blocks := s₁.books.blocks + count
      bytes := s₁.books.bytes + bytes } := by
    refine .referenced token reference indices count bytes step reply ?_ hreply hmeasured
      hadmits.2
    rw [hbooks]
    exact hget
  rw [← hbooks]
  exact .single hedit

/-! ### Polls -/

lemma edits_settleCall {call : Call} {isError : Bool} :
    Edits host s.books (s.settleCall fromStr host call isError).2.books := by
  unfold settleCall
  split
  · exact .refl
  split
  · exact .refl
  split
  · exact .refl
  refine edits_andThen (edits_of_eq books_readReference) fun text _ => ?_
  have hread : (s.readReference fromStr host call.token true).2.books = s.books :=
    books_readReference
  generalize (s.readReference fromStr host call.token true).2 = s₁ at hread ⊢
  rw [← hread]
  refine edits_andThen edits_releaseReference fun _ _ => ?_
  split
  · exact edits_releaseReference
  · exact edits_releaseReference

lemma edits_disposeCall {index : Nat} {call : Call} {reply : Value} {failed : Bool} :
    Edits host { s.books with pending := s.books.pending.eraseIdx index }
      (s.disposeCall fromStr host index call reply failed).2.books := by
  unfold disposeCall
  dsimp only
  split
  · exact .refl
  split
  · exact .refl
  · refine ReflTransGen.trans (edits_of_eq ?_) edits_settleCall
    rfl

lemma edits_pollCall {index : Nat} {call : Call} (hcall : s.pending[index]? = some call) :
    Edits host s.books (s.pollCall fromStr host index call).2.books := by
  unfold pollCall
  split
  · next e s₁ haction => exact edits_of_eq (books_of_action haction)
  next reply s₁ haction =>
  have hbooks := books_of_action haction
  split
  · exact edits_of_eq hbooks
  · exact edits_of_eq hbooks
  have hpending : s₁.books.pending[index]? = some call := by
    rw [hbooks]
    exact hcall
  dsimp only
  rw [← hbooks]
  split
  · exact (ReflTransGen.single (.dropped index call hpending)).trans edits_disposeCall
  unfold retain
  split
  · next reference _ =>
    split
    · next hsize =>
      exact (ReflTransGen.single (.retained index call reference hpending hsize)).trans
        edits_disposeCall
    · exact .refl
  · exact .refl

lemma edits_pollBelow {index : Nat} :
    Edits host s.books (s.pollBelow fromStr host index).2.books := by
  induction index generalizing s with
  | zero => exact .refl
  | succ index ih =>
    unfold pollBelow
    split
    · exact ih
    next call hcall =>
    have hedits := @edits_pollCall fromStr host s index call hcall
    split
    · next e s₁ hpoll =>
      rw [hpoll] at hedits
      exact hedits
    · next s₁ hpoll =>
      rw [hpoll] at hedits
      exact hedits
    · next s₁ hpoll =>
      rw [hpoll] at hedits
      exact hedits.trans ih
    · next token ok payload large s₁ hpoll =>
      rw [hpoll] at hedits
      have hbelow := hedits.trans (ih (s := s₁))
      split
      · next ready s₂ hrest =>
        rw [hrest] at hbelow
        exact hbelow
      · exact hbelow

lemma edits_poll : Edits host s.books (s.poll fromStr host).2.books := by
  unfold poll
  refine edits_andThen .refl fun _ _ => ?_
  show Edits host (s.check host).2.books _
  exact edits_pollBelow

/-- Every operation is a number of edits. -/
lemma edits_step (op : Op) : Edits host s.books (s.step fromStr host op).books := by
  cases op with
  | start name args => exact edits_start
  | log level text => exact edits_of_eq books_log
  | emit encoded => exact edits_emit
  | selectResult encoded isError => exact edits_of_eq books_selectResult
  | readReference token materialize => exact edits_of_eq books_readReference
  | releaseReference token => exact edits_releaseReference
  | selectReference token => exact edits_of_eq books_selectReference
  | emitReference token encoded => exact edits_emitReference
  | poll => exact edits_poll

lemma edits_after (ops : List Op) :
    Edits host s.books (ops.foldl (step fromStr host) s).books := by
  induction ops generalizing s with
  | nil => exact .refl
  | cons op ops ih => exact (edits_step op).trans ih

/-! ### The end of an invocation -/

lemma books_cleanup : (s.cleanup host).books = { s.books with pending := [] } := by
  have hfold : ∀ (calls : List Call) (s : Bridge),
      (calls.foldl (cleanupCall host) s).books = s.books := by
    intro calls
    induction calls with
    | nil => exact fun _ => rfl
    | cons call calls ih => exact fun s => (ih _).trans rfl
  exact hfold _ _

lemma books_outcome (run : Except String Value) : (s.outcome host run).2.books = s.books := by
  unfold outcome
  dsimp only
  split
  · rfl
  split
  · rfl
  split
  · rfl
  split
  · rfl
  split
  · rfl
  split
  · rfl
  · rfl

end

end Bridge

end Codemode
