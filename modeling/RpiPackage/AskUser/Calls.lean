import RpiPackage.AskUser.Dialogs

/-!
# Calls on the handle

Polls and cancellations are sequences of edits, so what the edits keep holds after every call: one
dialog at a time, in the order of the plan, and results that list the host's own answers. A dialog
is left open only by a destruction that finds it so.
-/

namespace AskUser

open Json Json.Value Relation

/-- The drive is under way. -/
structure Active (s : State) : Prop where
  live : s.crashed = false
  cancelled : s.cancelled = false
  destroyed : s.destroyed = false
  started : s.drive.started = true
  finished : s.drive.finished = false

/-- All questions are answered. -/
structure Complete (s : State) : Prop where
  remaining : s.drive.remaining = []
  pending : s.drive.pending = none
  ready : Ready s
  answered : s.drive.answers ≠ []

/-- How a drive goes on: by edits, and to a result only when all questions are answered. -/
structure Advances (s : State) (o : Outcome) (s' : State) : Prop where
  edits : Edits s s'
  active : o ≠ .panicked → Active s'
  complete : ∀ v, o = .response v → Complete s' ∧ v = buildDone s'.drive

section

variable {s s' : State} {o : Outcome}

lemma Edit.edits (h : Edit s s') (hlive : s.crashed = false) : Edits s s' :=
  ReflTransGen.single ⟨hlive, h⟩

/-- The next question is opened, is refused or ends in a panic, or none remains. -/
lemma Active.openNext (h : Active s) (hnone : s.drive.pending = none) (hready : Ready s) (w : Opening)
    (hresult : openNext s w = (o, s')) :
    Edits s s' ∧ (o ≠ .panicked → Active s') ∧ (o = .nothing → s' = s ∧ s.drive.remaining = []) := by
  unfold AskUser.openNext at hresult
  split at hresult
  · rename_i hremaining
    obtain ⟨rfl, rfl⟩ := Prod.mk.inj hresult
    exact ⟨.refl, fun _ => h, fun _ => ⟨rfl, hremaining⟩⟩
  · rename_i question remaining hremaining
    have hedit := fun pending crashed =>
      @Edit.opened s w question remaining pending crashed hremaining hnone h.started hready h.cancelled
        h.destroyed
    dsimp only at hresult
    split at hresult
    · rename_i e hreply
      obtain ⟨rfl, rfl⟩ := Prod.mk.inj hresult
      refine ⟨(hedit s.drive.pending s.crashed (fun p hp => ?_) fun response hok => ?_).edits h.live,
        fun _ => ⟨h.live, h.cancelled, h.destroyed, h.started, h.finished⟩, fun heq => by cases heq⟩
      · cases hnone.symm.trans hp
      · cases hreply.symm.trans hok
    · rename_i response hreply
      split at hresult
      · obtain ⟨rfl, rfl⟩ := Prod.mk.inj hresult
        refine ⟨(hedit s.drive.pending true (fun p hp => ?_) fun _ _ _ => rfl).edits h.live,
          fun hne => absurd rfl hne, fun heq => by cases heq⟩
        cases hnone.symm.trans hp
      · rename_i deadline hdeadline
        obtain ⟨rfl, rfl⟩ := Prod.mk.inj hresult
        refine ⟨(hedit (some ⟨_, question, deadline⟩) s.crashed (fun p hp => ?_)
            fun _ _ heq => by cases heq).edits h.live,
          fun _ => ⟨h.live, h.cancelled, h.destroyed, h.started, h.finished⟩, fun heq => by cases heq⟩
        obtain rfl := Option.some.inj hp
        exact ⟨rfl, rfl, response, hreply⟩

/-- The dialog that is open is asked for its answer, and the next one is opened after it. -/
lemma Active.pollOpenQuestion (h : Active s) (hinv : Inv s) (w : Polling)
    (hresult : pollOpenQuestion s w = (o, s')) : Advances s o s' := by
  unfold AskUser.pollOpenQuestion at hresult
  split at hresult
  · obtain ⟨rfl, rfl⟩ := Prod.mk.inj hresult
    exact ⟨.refl, fun _ => h, fun v heq => by cases heq⟩
  · rename_i p hp
    split at hresult
    · obtain ⟨rfl, rfl⟩ := Prod.mk.inj hresult
      exact ⟨(Edit.timedOut p hp).edits h.live,
        fun _ => ⟨h.live, h.cancelled, h.destroyed, h.started, h.finished⟩, fun v heq => by cases heq⟩
    · dsimp only at hresult
      have hactive : Active (s.record (.polled p.requestId w.reply)) :=
        ⟨h.live, h.cancelled, h.destroyed, h.started, h.finished⟩
      split at hresult
      · rename_i e hreply
        obtain ⟨rfl, rfl⟩ := Prod.mk.inj hresult
        refine ⟨(Edit.polled p w.reply hp fun response hok => ?_).edits h.live, fun _ => hactive,
          fun v heq => by cases heq⟩
        cases hreply.symm.trans hok
      · rename_i response hreply
        split at hresult
        · rename_i hanswered
          have hedit := Edit.answered p response hp hanswered
          obtain ⟨-, hready⟩ := hinv.answered hp hanswered
          have hactive' : Active { s with
              drive := { s.drive with
                pending := none
                answers := s.drive.answers ++ [answerOf p.question response] }
              log := s.log ++ [.polled p.requestId (.ok response)] } :=
            ⟨h.live, h.cancelled, h.destroyed, h.started, h.finished⟩
          rw [hreply] at hresult
          obtain ⟨o₁, s₁, hopen⟩ : ∃ o₁ s₁, AskUser.openNext { s with
              drive := { s.drive with
                pending := none
                answers := s.drive.answers ++ [answerOf p.question response] }
              log := s.log ++ [.polled p.requestId (.ok response)] } w.next = (o₁, s₁) := ⟨_, _, rfl⟩
          obtain ⟨hedits, hlive, hnothing⟩ := hactive'.openNext rfl hready w.next hopen
          have hall : Edits s s₁ := .head ⟨h.live, hedit⟩ hedits
          simp only [State.record] at hresult
          rw [hopen] at hresult
          cases o₁ with
          | nothing =>
            obtain ⟨rfl, rfl⟩ := Prod.mk.inj hresult
            obtain ⟨rfl, hremaining⟩ := hnothing rfl
            refine ⟨hall, fun _ => hactive', fun v hv => ⟨⟨hremaining, rfl, hready, ?_⟩, ?_⟩⟩
            · exact List.append_ne_nil_of_right_ne_nil _ (List.cons_ne_nil _ _)
            · exact (Outcome.response.inj hv).symm
          | response value =>
            obtain ⟨rfl, rfl⟩ := Prod.mk.inj hresult
            exact ⟨hall, fun _ => hlive (fun heq => by cases heq), fun v heq => by cases heq⟩
          | failed e =>
            obtain ⟨rfl, rfl⟩ := Prod.mk.inj hresult
            exact ⟨hall, fun _ => hlive (fun heq => by cases heq), fun v heq => by cases heq⟩
          | panicked =>
            obtain ⟨rfl, rfl⟩ := Prod.mk.inj hresult
            exact ⟨hall, fun hne => absurd rfl hne, fun v heq => by cases heq⟩
        · rename_i hnot
          have hpolled : Edits s (s.record (.polled p.requestId w.reply)) :=
            (Edit.polled p w.reply hp fun response' hok => by
              obtain rfl := Except.ok.inj (hreply.symm.trans hok)
              exact hnot).edits h.live
          split at hresult
          · obtain ⟨rfl, rfl⟩ := Prod.mk.inj hresult
            exact ⟨hpolled, fun _ => hactive, fun v heq => by cases heq⟩
          · obtain ⟨rfl, rfl⟩ := Prod.mk.inj hresult
            exact ⟨hpolled, fun _ => hactive, fun v heq => by cases heq⟩

/-- The first poll queues the questions of the plan and opens the first of them. -/
lemma startDrive_edits (hinv : Inv s) (hlive : s.crashed = false) (hcancelled : s.cancelled = false)
    (hdestroyed : s.destroyed = false) (hfinished : s.drive.finished = false)
    (hstarted : s.drive.started = false) (w : Turn)
    (hresult : startDrive { s with drive := { s.drive with started := true } } w = (o, s')) :
    Advances s o s' := by
  unfold startDrive at hresult
  split at hresult
  · rename_i e hask
    obtain ⟨rfl, rfl⟩ := Prod.mk.inj hresult
    have hplan : (ask s.drive.params).toOption = none := by
      rw [show ask s.drive.params = .error e from hask]
      rfl
    exact ⟨(Edit.started none hstarted hplan).edits hlive,
      fun _ => ⟨hlive, hcancelled, hdestroyed, rfl, hfinished⟩, fun v heq => by cases heq⟩
  · rename_i plan hask
    have hplan : (ask s.drive.params).toOption = some plan := by
      rw [show ask s.drive.params = .ok plan from hask]
      rfl
    obtain ⟨hopenings, -, hnone, hanswers⟩ := hinv.waiting hstarted
    have hedit := Edit.started (some plan) hstarted hplan
    have hinv₁ := hinv.edit hlive hedit
    have hready : Ready { s with drive := { s.drive with started := true }.enqueue plan } := by
      show List.Forall₂ _ s.drive.answers (openings s.log)
      rw [hopenings, hanswers]
      exact .nil
    have hactive : Active { s with drive := { s.drive with started := true }.enqueue plan } :=
      ⟨hlive, hcancelled, hdestroyed, rfl, hfinished⟩
    obtain ⟨o₁, s₁, hopen⟩ : ∃ o₁ s₁, openNext
        { s with drive := { s.drive with started := true }.enqueue plan } w.first = (o₁, s₁) :=
      ⟨_, _, rfl⟩
    obtain ⟨hedits, hstill, -⟩ := hactive.openNext hnone hready w.first hopen
    have hall : Edits s s₁ := .head ⟨hlive, hedit⟩ hedits
    rw [hopen] at hresult
    cases o₁ with
    | response value =>
      dsimp only at hresult
      have hactive₁ := hstill fun heq => by cases heq
      split at hresult
      · have hpolls := hactive₁.pollOpenQuestion (hinv₁.edits hedits) w.poll hresult
        exact ⟨hall.trans hpolls.edits, hpolls.active, hpolls.complete⟩
      · obtain ⟨rfl, rfl⟩ := Prod.mk.inj hresult
        exact ⟨hall, fun _ => hactive₁, fun v heq => by cases heq⟩
    | nothing =>
      obtain ⟨rfl, rfl⟩ := Prod.mk.inj hresult
      exact ⟨hall, fun _ => hstill (fun heq => by cases heq), fun v heq => by cases heq⟩
    | failed e =>
      obtain ⟨rfl, rfl⟩ := Prod.mk.inj hresult
      exact ⟨hall, fun _ => hstill (fun heq => by cases heq), fun v heq => by cases heq⟩
    | panicked =>
      obtain ⟨rfl, rfl⟩ := Prod.mk.inj hresult
      exact ⟨hall, fun hne => absurd rfl hne, fun v heq => by cases heq⟩

/-- Asking the host to cancel what is pending. -/
lemma cancelPending_edits (hlive : s.crashed = false) :
    Edits s (cancelPending s) ∧ (cancelPending s).crashed = false ∧
      (cancelPending s).drive = s.drive ∧ (cancelPending s).cancelling = s.cancelling ∧
        ∀ p, s.drive.pending = some p → .cancelRequested p.requestId ∈ (cancelPending s).log := by
  unfold cancelPending
  split
  · rename_i p hp
    refine ⟨(Edit.cancelRequested p hp).edits hlive, hlive, rfl, rfl, fun p' hp' => ?_⟩
    obtain rfl := Option.some.inj (hp.symm.trans hp')
    exact List.mem_append_right _ List.mem_cons_self
  · rename_i hnone
    exact ⟨.refl, hlive, rfl, rfl, fun p hp => by cases hnone.symm.trans hp⟩

lemma returns_edits (hlive : s.crashed = false) {result : StepResult} (h : ∀ v, result ≠ .done v) :
    Edits s (s.returns result) :=
  (Edit.returned result h).edits hlive

lemma Advances.finish {v : Value} (h : Advances s (.response v) s') :
    Edits s ({ s' with drive := { s'.drive with finished := true } }.returns (.done v)) := by
  obtain ⟨hcomplete, rfl⟩ := h.complete v rfl
  have hactive := h.active fun heq => by cases heq
  exact h.edits.tail ⟨hactive.live, Edit.finished hcomplete.remaining hcomplete.pending hactive.started
    hactive.finished hcomplete.ready hcomplete.answered⟩

lemma Advances.returns (h : Advances s o s') (ho : o ≠ .panicked) {result : StepResult}
    (hresult : ∀ v, result ≠ .done v) : Edits s (s'.returns result) :=
  h.edits.trans (returns_edits (h.active ho).live hresult)

lemma poll_edits (hinv : Inv s) (hlive : s.crashed = false) (w : Turn) : Edits s (poll s w) := by
  have herr : ∀ {t : State}, Edits s t → t.crashed = false → ∀ e, Edits s (t.returns (.err e)) :=
    fun hedits ht e => hedits.trans (returns_edits ht fun v heq => by cases heq)
  unfold poll
  split
  · exact herr .refl hlive _
  · rename_i hdestroyed
    rw [Bool.not_eq_true] at hdestroyed
    split
    · obtain ⟨hedits, hlive', -⟩ := cancelPending_edits hlive
      exact herr hedits hlive' _
    · rename_i hcancelled
      rw [Bool.not_eq_true] at hcancelled
      split
      · exact herr .refl hlive _
      · rename_i hfinished
        rw [Bool.not_eq_true] at hfinished
        split
        · rename_i hstarted
          have hstart := fun o s' => @startDrive_edits s s' o hinv hlive hcancelled hdestroyed hfinished
            hstarted w
          split
          · rename_i v s' hresult
            exact (hstart _ _ hresult).finish
          · rename_i s' hresult
            exact (hstart _ _ hresult).returns (fun heq => by cases heq) (fun v heq => by cases heq)
          · rename_i e s' hresult
            exact (hstart _ _ hresult).returns (fun heq => by cases heq) (fun v heq => by cases heq)
          · rename_i s' hresult
            exact (hstart _ _ hresult).edits
        · rename_i hstarted
          rw [Bool.not_eq_false] at hstarted
          have hactive : Active s := ⟨hlive, hcancelled, hdestroyed, hstarted, hfinished⟩
          have hpoll := fun o s' => @Active.pollOpenQuestion s s' o hactive hinv w.poll
          split
          · rename_i v s' hresult
            exact (hpoll _ _ hresult).finish
          · rename_i s' hresult
            have hadvances := hpoll _ _ hresult
            split
            · obtain ⟨hedits, hlive', -⟩ :=
                cancelPending_edits (hadvances.active fun heq => by cases heq).live
              exact herr (hadvances.edits.trans hedits) hlive' _
            · exact hadvances.returns (fun heq => by cases heq) (fun v heq => by cases heq)
          · rename_i e s' hresult
            exact (hpoll _ _ hresult).returns (fun heq => by cases heq) (fun v heq => by cases heq)
          · rename_i s' hresult
            exact (hpoll _ _ hresult).edits

lemma signal_edits (hlive : s.crashed = false) : Edits s (signal s) := by
  unfold signal
  split
  · exact .refl
  · rename_i hdestroyed
    rw [Bool.not_eq_true] at hdestroyed
    exact (Edit.signalled hdestroyed).edits hlive

lemma cancelLocked_edits (hlive : s.crashed = false) : Edits s (cancelLocked s) := by
  unfold cancelLocked
  split
  · exact .refl
  · rename_i hcancelling
    obtain ⟨hedits, hlive', hdrive, hcount, hrequested⟩ := cancelPending_edits hlive
    refine hedits.tail ⟨hlive', ?_⟩
    rw [← hcount] at hcancelling ⊢
    exact Edit.cancelled hcancelling fun p hp => hrequested p (hdrive ▸ hp)

/-- Every call but a destruction is a sequence of edits. -/
lemma step_edits (hinv : Inv s) {op : Op} (hop : op ≠ .destroy) : Edits s (step s op) := by
  unfold step
  split
  · exact .refl
  · rename_i hlive
    rw [Bool.not_eq_true] at hlive
    cases op with
    | poll turn =>
      have hpoll := poll_edits hinv hlive turn
      dsimp only
      split
      · rename_i hsignalled
        exact hpoll.trans (signal_edits hsignalled.2)
      · exact hpoll
    | signal => exact signal_edits hlive
    | cancelLocked => exact cancelLocked_edits hlive
    | destroy => exact absurd rfl hop

lemma Inv.step (hinv : Inv s) (op : Op) : Inv (step s op) := by
  by_cases hop : op = .destroy
  · subst hop
    unfold AskUser.step
    split
    · exact hinv
    · exact ⟨hinv.fresh, hinv.known, hinv.distinct, hinv.waiting, hinv.order, hinv.pending, hinv.only,
        hinv.single, hinv.results, hinv.once, hinv.timedOut, hinv.cancelled, hinv.cancelling⟩
  · exact hinv.edits (step_edits hinv hop)

lemma Edit.params (h : Edit s s') : s'.drive.params = s.drive.params := by
  cases h with
  | started plan =>
    cases plan with
    | none => rfl
    | some plan => rfl
  | _ => rfl

lemma Edits.params (h : Edits s s') : s'.drive.params = s.drive.params := by
  induction h with
  | refl => rfl
  | tail _ hedit ih => exact hedit.2.params.trans ih

lemma step_params (hinv : Inv s) (op : Op) : (step s op).drive.params = s.drive.params := by
  by_cases hop : op = .destroy
  · subst hop
    unfold step
    split <;> rfl
  · exact (step_edits hinv hop).params

lemma inv_execute (pid nextSeq : Nat) (toolCallId : String) (params : Value) :
    Inv (execute pid nextSeq toolCallId params) := by
  have hopen : ∀ id, ¬Open [] id := fun id hid => by
    obtain ⟨⟨question, request, response, hmem⟩, -⟩ := hid
    cases hmem
  constructor
  · intro o ho
    cases ho
  · intro e he
    cases he
  · exact List.nodup_nil
  · exact fun _ => ⟨rfl, rfl, rfl, rfl⟩
  · intro hfalse
    cases hfalse
  · intro p hp
    cases hp
  · exact fun _ id hid => absurd hid (hopen id)
  · intro before hbefore id id' hid
    rw [List.prefix_nil.mp hbefore] at hid
    exact absurd hid (hopen id)
  · intro v hv
    cases hv
  · rfl
  · intro id hid
    cases hid
  · intro hmem
    cases hmem
  · exact fun hne => absurd rfl hne

end

/-! ### Every sequence of calls -/

/-- The first value of the answer to a request is Yes. -/
def AnsweredYes (log : List Event) (id : String) : Prop :=
  ∃ response value, .polled id (.ok response) ∈ log ∧ status response = "answered" ∧
    (answerValues ((response.get "answer").getD .null)).head? = some value ∧
      Rust.eqIgnoreAsciiCase value "yes" = true

structure Sound (params : Value) (log : List Event) : Prop where
  -- at every moment
  single : ∀ before, before <+: log → ∀ id id', Open before id → Open before id' → id = id'
  ordered : (openings log).map Prod.snd <+: planned params
  named : ((openings log).map Prod.fst).Nodup
  once : (log.filter Event.isDone).length ≤ 1
  results : ∀ v, .returned (.done v) ∈ log → ∃ plan answers, ask params = .ok plan ∧
    (openings log).map Prod.snd = plan.asked ∧ v = doneValue plan answers ∧
      List.Forall₂ (fun answer opening => Bears log answer opening ∧
        (answer.confirmed = some true → AnsweredYes log opening.1)) answers (openings log) ∧
      ∀ summary, plan = .confirm summary →
        answerSummary plan answers = "Confirmed" ++ ": " ++ summary →
          ∃ opening ∈ openings log, AnsweredYes log opening.1
  timedOut : ∀ id, .timedOut id ∈ log → ∀ id', ¬Open log id'
  cancelled : .cancelled ∈ log → ∀ id, ¬Open log id

/-- A handle is destroyed when no dialog is pending, or when the one that is has been cancelled. -/
def Releases (s : State) (op : Op) : Prop :=
  op = .destroy → ∀ p, s.drive.pending = some p → Over s.log p.requestId

section

variable {log : List Event} {s : State}

lemma Bears.answeredYes {answer : AskAnswer} {opening : String × AskQuestion}
    (h : Bears log answer opening) (hconfirmed : answer.confirmed = some true) :
    AnsweredYes log opening.1 := by
  obtain ⟨response, hpolled, hanswered, rfl⟩ := h
  simp only [answerOf] at hconfirmed
  split at hconfirmed
  · cases hconfirmed
  · rw [Option.some.injEq] at hconfirmed
    cases hvalue : (answerValues ((response.get "answer").getD .null)).head? with
    | none =>
      rw [hvalue] at hconfirmed
      cases hconfirmed
    | some value =>
      rw [hvalue] at hconfirmed
      exact ⟨response, value, hpolled, hanswered, hvalue, hconfirmed⟩

/-- A confirmation is reported as confirmed only if the first answer is. -/
lemma confirmed_of_summary {answers : List AskAnswer} {summary : String}
    (h : answerSummary (.confirm summary) answers = "Confirmed" ++ ": " ++ summary) :
    ∃ answer ∈ answers, answer.confirmed = some true := by
  have hword : ∀ confirmed : Bool,
      (if confirmed then "Confirmed" else "Declined") ++ ": " ++ summary =
        "Confirmed" ++ ": " ++ summary → confirmed = true := by
    rintro (_ | _) heq
    · have hlist := congrArg String.toList heq
      simp only [String.toList_append, List.append_assoc] at hlist
      exact absurd (List.head_eq_of_cons_eq hlist) (by decide)
    · rfl
  have hconfirmed := hword _ h
  cases answers with
  | nil => cases hconfirmed
  | cons answer answers =>
    refine ⟨answer, List.mem_cons_self, ?_⟩
    cases hanswer : answer.confirmed with
    | none =>
      rw [List.head?_cons, Option.bind_some, hanswer] at hconfirmed
      cases hconfirmed
    | some confirmed =>
      rw [List.head?_cons, Option.bind_some, hanswer, Option.getD_some] at hconfirmed
      rw [hconfirmed]

lemma Inv.sound (h : Inv s) : Sound s.drive.params s.log := by
  have hclosed : s.crashed = false →
      (∀ p, s.drive.pending = some p → Over s.log p.requestId) → ∀ id, ¬Open s.log id := by
    intro hlive hover id hid
    obtain ⟨p, hp, rfl⟩ := h.only hlive id hid
    exact hid.2 (hover p hp)
  refine ⟨h.single, ?_, h.distinct, ?_, ?_, ?_, ?_⟩
  · by_cases hstarted : s.drive.started = true
    · rw [← h.order hstarted]
      exact List.prefix_append _ _
    · rw [Bool.not_eq_true] at hstarted
      rw [(h.waiting hstarted).1]
      exact List.nil_prefix
  · rw [h.once]
    split <;> omega
  · intro v hv
    obtain ⟨plan, answers, hplan, hanswers, hasked, rfl⟩ := h.results v hv
    refine ⟨plan, answers, hplan, hasked, rfl,
      hanswers.imp fun _ _ hbears => ⟨hbears, hbears.answeredYes⟩, ?_⟩
    rintro summary rfl hsummary
    obtain ⟨answer, hanswer, hconfirmed⟩ := confirmed_of_summary hsummary
    obtain ⟨opening, hopening, hbears⟩ := exists_of_forall₂ hanswers.flip hanswer
    exact ⟨opening, hopening, Bears.answeredYes hbears hconfirmed⟩
  · intro id hid
    obtain ⟨hlive, hnone, -⟩ := h.timedOut id hid
    exact hclosed hlive fun p hp => by cases hnone.symm.trans hp
  · intro hmem
    obtain ⟨-, hlive, hrequested⟩ := h.cancelled hmem
    exact hclosed hlive fun p hp => .inr (hrequested p hp)

lemma Kept.step (hinv : Inv s) (h : Kept s) {op : Op} (hop : Releases s op) : Kept (step s op) := by
  by_cases hdestroy : op = .destroy
  · unfold AskUser.step
    split
    · exact h
    · rename_i hlive
      rw [Bool.not_eq_true] at hlive
      subst hdestroy
      exact fun _ => ⟨hlive, hop rfl⟩
  · exact h.edits (step_edits hinv hdestroy)

end

/-- After every sequence of calls at most one dialog has been open at a time, the results list the
answers of the host, and no dialog is open after a cancellation or a deadline; where each destruction
finds no dialog open, none is open after it. -/
theorem dialogs_sound (pid nextSeq : Nat) (toolCallId : String) (params : Value) (ops : List Op) :
    let s := Run.after step (execute pid nextSeq toolCallId params) ops
    Sound params s.log ∧
      (Run.Meets step Releases (execute pid nextSeq toolCallId params) ops →
        s.destroyed = true → ∀ id, ¬Open s.log id) := by
  intro s
  obtain ⟨hinv, hparams⟩ : Inv s ∧ s.drive.params = params :=
    Run.invariant (P := fun t => Inv t ∧ t.drive.params = params)
      (fun t op ht => ⟨ht.1.step op, (step_params ht.1 op).trans ht.2⟩)
      ⟨inv_execute pid nextSeq toolCallId params, rfl⟩ ops
  refine ⟨hparams ▸ hinv.sound, fun hmeets hdestroyed id hid => ?_⟩
  have hkept : Inv s ∧ Kept s := hmeets.invariant (P := fun t => Inv t ∧ Kept t)
    (fun t op ht hop => ⟨ht.1.step op, ht.2.step ht.1 hop⟩)
    ⟨inv_execute pid nextSeq toolCallId params, fun hfalse => by cases hfalse⟩
  obtain ⟨hlive, hover⟩ := hkept.2 hdestroyed
  obtain ⟨p, hp, rfl⟩ := hinv.only hlive id hid
  exact hid.2 (hover p hp)

/-- A destruction sends no request to cancel the dialog that is pending. -/
theorem destroy_leaves_dialog :
    let opening : Opening := ⟨0, 0, .ok (.object [("status", .string "pending")]), 0⟩
    let s := Run.after step
      (execute 1 1 "call" (.object [("question", .string "Which target?")]))
      [.poll ⟨opening, ⟨0, .error "", opening⟩, false⟩, .destroy]
    s.destroyed = true ∧ Open s.log "ask-1-1-0" := by
  intro opening s
  let question : AskQuestion := ⟨"q1", "Which target?", none, none, [], false, true, false, none, none, none⟩
  have hplan : ask (.object [("question", .string "Which target?")]) = .ok (.questions [question]) := by
    decide +kernel
  have hname : requestId 1 1 0 = "ask-1-1-0" := by decide +kernel
  have hlog : s.log = [.opened "ask-1-1-0" question (openRequest "ask-1-1-0" "call" question) opening.reply,
      .returned (.pending (some (pendingProgress question)))] := by
    simp [s, step, poll, startDrive, execute, hplan, Drive.enqueue, AskPlan.asked, openNext, hname,
      question, opening, deadlineOf, status, State.returns, State.record]
  refine ⟨rfl, ?_⟩
  rw [hlog]
  refine ⟨⟨question, _, _, List.mem_cons_self⟩, ?_⟩
  rintro (⟨response, hpolled, -⟩ | hcancelled)
  · simp at hpolled
  · simp at hcancelled

/-! ### What is asked -/

/-- What is asked to confirm something is a summary; every other question has passed its checks. -/
def Asks (params : Value) (q : AskQuestion) : Prop :=
  q.WellFormed ∨ ∃ summary, summary ≠ "" ∧ ask params = .ok (.confirm summary) ∧ q = confirmQuestion summary

lemma planned_asks (params : Value) :
    (planned params).length ≤ 3 ∧ ∀ q ∈ planned params, Asks params q := by
  cases hplan : ask params with
  | error e =>
    rw [planned, hplan]
    exact ⟨Nat.zero_le 3, fun q hq => absurd hq List.not_mem_nil⟩
  | ok plan =>
    rw [planned_of_ok hplan]
    obtain ⟨summary, rfl, hne⟩ | ⟨qs, rfl, -, hlength, hqs⟩ := ask_ok hplan
    · exact ⟨Nat.le_add_left 1 2, fun q hq => .inr ⟨summary, hne, hplan, List.mem_singleton.mp hq⟩⟩
    · exact ⟨hlength, fun q hq => .inl (hqs q hq)⟩

end AskUser
