import Mathlib.Data.List.Induction
import RpiPackage.Host.Writer

/-!
# What becomes of an execution

An intent that is no longer current never is again, so its command is not written any more. One
that has been published stays current until a frame of the native host rejects or settles it.
-/

namespace Host

open Json Result

namespace System

variable {s : System} {op : Op} {token : Nat}

/-- The intent of a token is current and published. -/
def Holds (s : System) (token : Nat) : Prop :=
  ∃ intent ∈ s.admission.current, intent.token = token ∧ intent.published = true

/-- A token has been handed out, and its intent is no longer current. -/
def Gone (s : System) (token : Nat) : Prop := token < s.tokens ∧ ¬s.Current token

/-- A frame has accepted the intent of a token. -/
def Accepted (ops : List Op) (token : Nat) : Prop :=
  ∃ left op right, ops = left ++ op :: right ∧
    ∃ frame intent, op = .observe frame ∧ intent ∈ (run left).admission.current ∧
      intent.token = token ∧ intent.Accepts frame

/-- The commands of a token that have been written. -/
def writes (s : System) (token : Nat) : List Outbound :=
  s.written.filter fun command => command.token == some token

/-! ### Tokens -/

/-- Every token in use has been handed out. -/
structure Issued (s : System) : Prop where
  current : ∀ token, s.Current token → token < s.tokens
  alive : ∀ ticket, s.Alive ticket → ticket.token < s.tokens

lemma step_tokens_le (s : System) (op : Op) : s.tokens ≤ (s.step op).tokens := by
  rcases s.step_effect op with ⟨_, _, -, h⟩ | ⟨_, _, _, -, -, h⟩ | ⟨_, _, _, -, -, -, h⟩ |
    ⟨_, _, _, -, -, -, h⟩ | ⟨_, _, -, h⟩
  · exact Nat.le_of_eq h.symm
  · exact h ▸ Nat.le_succ s.tokens
  · exact Nat.le_of_eq h.symm
  · exact Nat.le_of_eq h.symm
  · exact Nat.le_of_eq h.symm

/-- What is current after a step was current before, or has just been registered. -/
lemma current_of_step (h : (s.step op).Current token) :
    s.Current token ∨ token = s.tokens ∧ (s.step op).tokens = s.tokens + 1 := by
  obtain ⟨intent, hintent, rfl⟩ := h
  rcases s.step_effect op with ⟨_, _, hkeep, -⟩ | ⟨_, _, id, -, hregister, htokens⟩ |
    ⟨_, _, published, hcurrent, -, hpublish, -⟩ | ⟨_, _, _, -, -, hnone, -⟩ |
    ⟨frame, _, hobserve, -⟩
  · exact .inl ⟨intent, hkeep ▸ hintent, rfl⟩
  · obtain rfl := Option.some.inj (hregister.symm.trans hintent)
    exact .inr ⟨rfl, htokens⟩
  · obtain rfl := Option.some.inj (hpublish.symm.trans hintent)
    exact .inl ⟨published, hcurrent, rfl⟩
  · cases hnone.symm.trans hintent
  · left
    rw [hobserve] at hintent
    rcases hcurrent : s.admission.current with _ | before
    · cases (ExecutionAdmission.observe_none hcurrent frame).symm.trans hintent
    · rcases ExecutionAdmission.observe_current hcurrent frame with ⟨_, _, hkeep, -⟩ | ⟨hnone, -⟩
      · obtain rfl := Option.some.inj (hkeep.symm.trans hintent)
        exact ⟨before, hcurrent, rfl⟩
      · cases hnone.symm.trans hintent

lemma issued_step (h : s.Issued) (op : Op) : (s.step op).Issued where
  current token hcurrent := by
    rcases current_of_step hcurrent with hbefore | ⟨rfl, htokens⟩
    · exact Nat.lt_of_lt_of_le (h.current token hbefore) (s.step_tokens_le op)
    · exact htokens ▸ Nat.lt_succ_self s.tokens
  alive ticket halive := by
    rcases s.step_alive op halive with ⟨ticket', hbefore, heq⟩ | ⟨heq, htokens⟩
    · exact heq ▸ Nat.lt_of_lt_of_le (h.alive ticket' hbefore) (s.step_tokens_le op)
    · exact heq ▸ htokens ▸ Nat.lt_succ_self s.tokens

lemma issued (ops : List Op) : (run ops).Issued := by
  refine Run.invariant (P := Issued) (fun _ op h => issued_step h op) ⟨?_, ?_⟩ ops
  · rintro token ⟨intent, hintent, -⟩
    cases hintent
  · rintro ticket (hticket | ⟨command, hcommand, -⟩)
    · cases hticket
    · cases hcommand

/-! ### Steps -/

lemma gone_step (h : s.Gone token) (op : Op) : (s.step op).Gone token := by
  refine ⟨Nat.lt_of_lt_of_le h.1 (s.step_tokens_le op), fun hcurrent => ?_⟩
  rcases current_of_step hcurrent with hbefore | ⟨rfl, -⟩
  · exact h.2 hbefore
  · exact Nat.lt_irrefl _ h.1

/-- A published intent stays, whatever tickets are dropped, until a frame removes it. -/
lemma holds_step (h : s.Holds token) (op : Op) :
    (s.step op).Holds token ∨ ∃ frame intent, op = .observe frame ∧
      intent ∈ s.admission.current ∧ intent.token = token ∧
        (intent.Rejects frame ∨ intent.Settles frame) := by
  obtain ⟨intent, hintent, rfl, hpublished⟩ := h
  rcases s.step_effect op with ⟨_, _, hkeep, -⟩ | ⟨_, _, id, hfree, -, -⟩ |
    ⟨_, _, published, hcurrent, -, hpublish, -⟩ | ⟨_, _, intent', hcurrent, hunpublished, -, -⟩ |
    ⟨frame, _, hobserve, -⟩
  · exact .inl ⟨intent, hkeep ▸ hintent, rfl, hpublished⟩
  · cases hfree.symm.trans hintent
  · obtain rfl := Option.some.inj (hcurrent.symm.trans hintent)
    exact .inl ⟨_, hpublish, rfl, rfl⟩
  · obtain rfl := Option.some.inj (hcurrent.symm.trans hintent)
    cases hpublished.symm.trans hunpublished
  · rcases ExecutionAdmission.observe_current hintent frame with ⟨_, _, hkeep, -⟩ | ⟨-, hremoves⟩
    · exact .inl ⟨_, (congrArg _ hobserve).trans hkeep, rfl, hpublished⟩
    · exact .inr ⟨frame, intent, rfl, hintent, rfl, hremoves⟩

/-- A check passes for the current intent only, and publishes it. -/
lemma check_eq_some {passed : Bool} (h : s.check op = some (token, passed)) :
    (passed = true ↔ s.Current token) ∧ (passed = true → (s.step op).Holds token) ∧
      ∃ ticket, s.Alive ticket ∧ ticket.token = token := by
  cases op with
  | write requested =>
    cases requested with
    | false => cases h
    | true =>
      rcases houtbound : s.outbound with _ | ⟨⟨value, control⟩, outbound⟩
      · rw [check, houtbound] at h
        cases h
      · cases control with
        | none =>
          rw [check, houtbound] at h
          cases h
        | some ticket =>
          rw [check, houtbound] at h
          obtain ⟨rfl, rfl⟩ := Prod.mk.inj (Option.some.inj h)
          refine ⟨?_, ?_, ticket, .inr ⟨_, houtbound ▸ List.mem_cons_self, rfl⟩, rfl⟩
          · exact s.admission.published_iff ticket.token
          · intro hpassed
            rcases hcurrent : s.admission.current with _ | intent
            · simp [ExecutionAdmission.published, hcurrent] at hpassed
            · by_cases htoken : intent.token = ticket.token
              · simp [Holds, step, System.write, houtbound, ExecutionAdmission.published, hcurrent,
                  htoken]
              · simp [ExecutionAdmission.published, hcurrent, htoken] at hpassed
  | register | clone | retain | drop | send | observe => cases h

/-- A command of a token is written when its check passes, and at no other step. -/
lemma writes_step (h : s.check op ≠ some (token, true)) :
    (s.step op).writes token = s.writes token := by
  cases op with
  | register value =>
    simp only [step]
    split <;> rfl
  | drop ticket =>
    simp only [step]
    split <;> rfl
  | clone | retain | send | observe => rfl
  | write requested =>
    rcases houtbound : s.outbound with _ | ⟨⟨value, control⟩, outbound⟩
    · rw [step, System.write, houtbound]
    · cases requested with
      | false => rw [step, System.write, houtbound]; rfl
      | true =>
        cases control with
        | none => simp [step, System.write, houtbound, writes, Outbound.token]
        | some ticket =>
          rw [check, houtbound] at h
          rcases hpassed : s.admission.published ticket.token with ⟨passed, admission⟩
          simp only [hpassed] at h
          cases passed with
          | false => simp [step, System.write, houtbound, writes, hpassed]
          | true =>
            have htoken : ticket.token ≠ token := fun htoken => h (htoken ▸ rfl)
            simp [step, System.write, houtbound, writes, hpassed, Outbound.token, htoken]

/-- Dropping a ticket that is not retained ends an intent that has not been published. -/
lemma drop_not_current {i : Nat} {ticket : ExecutionTicket} (hticket : s.tickets[i]? = some ticket)
    (hcancel : ticket.cancelQueued = true) (hunpublished : ¬s.Holds ticket.token) :
    ¬(s.step (.drop i)).Current ticket.token := by
  rintro ⟨intent, hintent, htoken⟩
  rcases hcurrent : s.admission.current with _ | before
  · simp [step, hticket, ExecutionAdmission.drop, hcurrent] at hintent
  · by_cases hbefore : before.token = ticket.token
    · have hpublished : before.published = false := by
        rw [← Bool.not_eq_true]
        exact fun hpublished => hunpublished ⟨before, hcurrent, hbefore, hpublished⟩
      simp [step, hticket, ExecutionAdmission.drop, hcurrent, hcancel, hbefore, hpublished]
        at hintent
    · simp only [step, hticket, ExecutionAdmission.drop, hcurrent, hcancel, hbefore, false_and,
        if_true, if_false] at hintent
      obtain rfl := Option.some.inj hintent
      exact hbefore htoken

/-! ### Runs -/

lemma run_append (ops ops' : List Op) : run (ops ++ ops') = Run.after step (run ops) ops' :=
  Run.after_append start ops ops'

lemma run_concat (ops : List Op) (op : Op) : run (ops ++ [op]) = (run ops).step op :=
  run_append ops [op]

lemma gone_after (h : s.Gone token) (ops : List Op) : (Run.after step s ops).Gone token :=
  Run.invariant (P := fun s : System => s.Gone token) (fun _ op h => gone_step h op) h ops

/-- No check of a token passes once its intent is gone. -/
lemma check_gone (h : s.Gone token) (op : Op) : s.check op ≠ some (token, true) :=
  fun hcheck => h.2 ((check_eq_some hcheck).1.mp rfl)

lemma writes_gone (h : s.Gone token) (ops : List Op) :
    (Run.after step s ops).writes token = s.writes token := by
  have hall : (Run.after step s ops).Gone token ∧
      (Run.after step s ops).writes token = s.writes token := by
    refine Run.invariant (P := fun s' : System => s'.Gone token ∧ s'.writes token = s.writes token)
      (fun s' op hs' => ⟨gone_step hs'.1 op, ?_⟩) ⟨h, rfl⟩ ops
    rw [writes_step (check_gone hs'.1 op), hs'.2]
  exact hall.2

/-- The intent of a token that has been handed out and is not current is gone. -/
lemma gone_of_check {ops : List Op} (h : (run ops).check op = some (token, false)) :
    (run ops).Gone token := by
  obtain ⟨hpassed, -, ticket, halive, rfl⟩ := check_eq_some h
  exact ⟨(issued ops).alive ticket halive, fun hcurrent => Bool.noConfusion (hpassed.mpr hcurrent)⟩

lemma accepted_concat (ops : List Op) (op : Op) (token : Nat) :
    Accepted (ops ++ [op]) token ↔ Accepted ops token ∨
      ∃ frame intent, op = .observe frame ∧ intent ∈ (run ops).admission.current ∧
        intent.token = token ∧ intent.Accepts frame :=
  Run.exists_step_concat

/-- What has been accepted has been handed out. -/
lemma accepted_lt {ops : List Op} (h : Accepted ops token) : token < (run ops).tokens := by
  obtain ⟨left, op, right, rfl, -, intent, -, hintent, rfl, -⟩ := h
  refine Nat.lt_of_lt_of_le ((issued left).current intent.token ⟨intent, hintent, rfl⟩) ?_
  rw [run_append]
  exact Run.invariant (P := fun s : System => (run left).tokens ≤ s.tokens)
    (fun s op h => Nat.le_trans h (s.step_tokens_le op)) (Nat.le_refl _) (op :: right)

/-- The current intent is marked as accepted exactly when a frame has accepted it. -/
lemma accepted_iff {ops : List Op} {intent : Intent}
    (h : (run ops).admission.current = some intent) :
    intent.accepted = true ↔ Accepted ops intent.token := by
  induction ops using List.reverseRecOn generalizing intent with
  | nil => cases h
  | append_singleton ops op ih =>
    rw [run_concat] at h
    rw [accepted_concat]
    by_cases hop : ∃ frame, op = .observe frame
    · obtain ⟨frame, rfl⟩ := hop
      rcases hcurrent : (run ops).admission.current with _ | before
      · cases (ExecutionAdmission.observe_none hcurrent frame).symm.trans h
      · rcases ExecutionAdmission.observe_current hcurrent frame with
          ⟨accepted, run, hkeep, haccepted⟩ | ⟨hnone, -⟩
        · obtain rfl := Option.some.inj (hkeep.symm.trans h)
          rw [haccepted, ih hcurrent]
          refine or_congr_right ⟨?_, ?_⟩
          · exact fun hframe => ⟨frame, before, rfl, rfl, rfl, hframe⟩
          · rintro ⟨_, _, heq, hbefore, -, hframe⟩
            obtain rfl := Op.observe.inj heq
            obtain rfl := Option.some.inj hbefore
            exact hframe
        · cases hnone.symm.trans h
    · have hquiet : ¬∃ frame before, op = .observe frame ∧
          before ∈ (run ops).admission.current ∧ before.token = intent.token ∧
            before.Accepts frame := fun ⟨frame, _, heq, _⟩ => hop ⟨frame, heq⟩
      rw [or_iff_left hquiet]
      rcases (run ops).step_effect op with ⟨_, _, hkeep, -⟩ | ⟨_, _, id, -, hregister, -⟩ |
        ⟨_, _, before, hcurrent, -, hpublish, -⟩ | ⟨_, _, _, -, -, hnone, -⟩ | ⟨frame, _, -, -⟩
      · exact ih (hkeep ▸ h)
      · obtain rfl := Option.some.inj (hregister.symm.trans h)
        refine iff_of_false Bool.false_ne_true fun haccepted => ?_
        exact Nat.lt_irrefl _ (accepted_lt haccepted)
      · obtain rfl := Option.some.inj (hpublish.symm.trans h)
        have haccepted := ih hcurrent
        exact haccepted
      · cases hnone.symm.trans h
      · exact absurd ⟨frame, rfl⟩ hop

/-- Whatever the order of the steps: an unsettled execution excludes every other; a command is
written when its check passes and never after one that failed; an intent rolled back by a ticket
never passes a check; and one that has passed its check stays current until a frame rejects it
before its acceptance or settles it after. -/
theorem run_execution (ops : List Op) :
    (∀ token token', ((run ops).admission.published token).1 = true →
      ((run ops).admission.published token').1 = true → token = token') ∧
    ((run ops).admission.unsettled = true → ∀ token value, isExecution value = true →
      ∃ e, (run ops).admission.register token value = .error e) ∧
    (∀ intent ∈ (run ops).admission.current,
      intent.accepted = true ↔ Accepted ops intent.token) ∧
    (∀ op token, (run ops).check op = some (token, false) → ∀ later,
      (run (ops ++ op :: later)).writes token = (run ops).writes token) ∧
    (∀ (i : Nat) ticket, (run ops).tickets[i]? = some ticket → ticket.cancelQueued = true →
      ¬(run ops).Holds ticket.token → ∀ later op,
        (run (ops ++ .drop i :: later)).check op ≠ some (ticket.token, true)) ∧
    (∀ op token, (run ops).check op = some (token, true) → ∀ later,
      (run (ops ++ op :: later)).Holds token ∧
          (run (ops ++ op :: later)).admission.unsettled = true ∨
        ∃ left frame right intent, later = left ++ .observe frame :: right ∧
          intent ∈ (run (ops ++ op :: left)).admission.current ∧ intent.token = token ∧
            (intent.Rejects frame ∨ intent.Settles frame)) := by
  refine ⟨?_, ?_, ?_, ?_, ?_, ?_⟩
  · intro token token' hpassed hpassed'
    rw [ExecutionAdmission.published_iff] at hpassed hpassed'
    obtain ⟨intent, hcurrent, rfl⟩ := hpassed
    obtain ⟨intent', hcurrent', rfl⟩ := hpassed'
    rw [Option.some.inj (hcurrent.symm.trans hcurrent')]
  · intro hunsettled token value hexecution
    exact ExecutionAdmission.register_unsettled hunsettled token hexecution
  · intro intent hintent
    exact accepted_iff hintent
  · intro op token hcheck later
    rw [run_append]
    exact writes_gone (gone_of_check hcheck) (op :: later)
  · intro i ticket hticket hcancel hunpublished later op
    have halive := (issued ops).alive ticket (.inl (List.mem_of_getElem? hticket))
    have hgone : ((run ops).step (.drop i)).Gone ticket.token :=
      ⟨Nat.lt_of_lt_of_le halive ((run ops).step_tokens_le (.drop i)),
        drop_not_current hticket hcancel hunpublished⟩
    rw [run_append, Run.after_cons]
    exact check_gone (gone_after hgone later) op
  · intro op token hcheck later
    by_cases hholds : (run (ops ++ op :: later)).Holds token
    · obtain ⟨intent, hcurrent, -⟩ := id hholds
      refine .inl ⟨hholds, ?_⟩
      rw [ExecutionAdmission.unsettled, Option.mem_def.mp hcurrent]
      rfl
    · right
      have hpublished : ((run ops).step op).Holds token := (check_eq_some hcheck).2.1 rfl
      obtain ⟨left, op', right, rfl, hbefore, hlost⟩ :=
        Run.exists_breaking_step_between (P := fun s : System => s.Holds token) hpublished hholds
      rcases holds_step hbefore op' with hkept | ⟨frame, intent, rfl, hremoved⟩
      · exact absurd hkept hlost
      · exact ⟨left, frame, right, intent, rfl, hremoved⟩

/-- A request of `notify`, which keeps its own ticket from rolling the intent back. -/
def retainedPrompt : List Op :=
  let prompt : Value := .object [("type", .string "prompt"), ("id", .string "request")]
  [.register prompt, .send prompt (some 0), .retain 0]

/-- A ticket that is retained may be dropped before its command is published. -/
theorem retained_ticket_dropped :
    ¬∀ (ops : List Op) (i : Nat) (ticket : ExecutionTicket),
      (run ops).tickets[i]? = some ticket → ¬(run ops).Holds ticket.token → ∀ later op,
        (run (ops ++ .drop i :: later)).check op ≠ some (ticket.token, true) := by
  intro h
  refine h retainedPrompt 0 ⟨0, false⟩ rfl ?_ [] (.write true) rfl
  rintro ⟨intent, hcurrent, -, hpublished⟩
  obtain rfl := Option.some.inj hcurrent
  cases hpublished

end System

end Host
