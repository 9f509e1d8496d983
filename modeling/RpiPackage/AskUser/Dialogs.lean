import Mathlib.Data.List.Forall2
import Mathlib.Logic.Relation
import RpiPackage.AskUser.Drive
import RpiPackage.Lib.Decimal

/-!
# Dialogs of a tool call

Everything a poll, a cancellation or a destruction does to the log is one of a few edits, and each
edit keeps what ties the drive to the log: the dialog that is pending is the only one that may be
open, the questions opened are those of the plan in their order, and the answers are those of the host.
-/

namespace AskUser

open Json Json.Value Relation

/-! ### Reading the log -/

def Event.opening : Event → Option (String × AskQuestion)
  | .opened id question _ _ => some (id, question)
  | _ => none

/-- The requests to open a question, in order. -/
def openings (log : List Event) : List (String × AskQuestion) := log.filterMap Event.opening

/-- The request that an event is about, where it is not the one that opens it. -/
def Event.about : Event → Option String
  | .polled id _ => some id
  | .cancelRequested id => some id
  | .timedOut id => some id
  | _ => none

def Event.isDone : Event → Bool
  | .returned (.done _) => true
  | _ => false

/-- The host accepted a dialog. -/
def Accepted (log : List Event) (id : String) : Prop :=
  ∃ question request response, .opened id question request (.ok response) ∈ log

/-- The host answered a dialog or reported it cancelled, or was asked to cancel it. -/
def Over (log : List Event) (id : String) : Prop :=
  (∃ response, .polled id (.ok response) ∈ log ∧
    (status response = "answered" ∨ status response = "cancelled")) ∨ .cancelRequested id ∈ log

def Open (log : List Event) (id : String) : Prop := Accepted log id ∧ ¬Over log id

/-- An answer is what the host answered to the request that opened the question. -/
def Bears (log : List Event) (answer : AskAnswer) (opening : String × AskQuestion) : Prop :=
  ∃ response, .polled opening.1 (.ok response) ∈ log ∧ status response = "answered" ∧
    answer = answerOf opening.2 response

/-- The questions of the arguments, where they are accepted. -/
def planned (params : Value) : List AskQuestion :=
  match ask params with
  | .ok plan => plan.asked
  | .error _ => []

/-- Every question that was opened is answered. -/
def Ready (s : State) : Prop := List.Forall₂ (Bears s.log) s.drive.answers (openings s.log)

section

variable {log : List Event} {e : Event} {id : String}

@[simp] lemma openings_nil : openings [] = [] := rfl

lemma openings_concat : openings (log ++ [e]) = openings log ++ e.opening.toList := by
  rw [openings, openings, List.filterMap_append]
  cases h : e.opening <;> simp [h]

lemma openings_concat_of_none (h : e.opening = none) : openings (log ++ [e]) = openings log := by
  rw [openings_concat, h]
  exact List.append_nil _

lemma Bears.mono {answer : AskAnswer} {opening : String × AskQuestion} (h : Bears log answer opening) :
    Bears (log ++ [e]) answer opening := by
  obtain ⟨response, hpolled, hanswered⟩ := h
  exact ⟨response, List.mem_append_left _ hpolled, hanswered⟩

lemma Over.mono (h : Over log id) : Over (log ++ [e]) id := by
  rcases h with ⟨response, hpolled, hstatus⟩ | h
  · exact .inl ⟨response, List.mem_append_left _ hpolled, hstatus⟩
  · exact .inr (List.mem_append_left _ h)

/-- Only a request that opens a dialog makes it open. -/
lemma Open.of_concat (he : e.opening = none) (h : Open (log ++ [e]) id) : Open log id := by
  obtain ⟨⟨question, request, response, hopened⟩, hover⟩ := h
  refine ⟨⟨question, request, response, ?_⟩, fun hlog => hover hlog.mono⟩
  rcases List.mem_append.mp hopened with hmem | hmem
  · exact hmem
  · rw [← List.mem_singleton.mp hmem] at he
    cases he

lemma Open.of_opened {id' : String} {question : AskQuestion} {request : Value} {reply : Reply}
    (h : Open (log ++ [.opened id' question request reply]) id) :
    Open log id ∨ id = id' ∧ ∃ response, reply = .ok response := by
  obtain ⟨⟨q, r, response, hopened⟩, hover⟩ := h
  rcases List.mem_append.mp hopened with hmem | hmem
  · exact .inl ⟨⟨q, r, response, hmem⟩, fun hlog => hover hlog.mono⟩
  · obtain ⟨rfl, -, -, rfl⟩ := Event.opened.inj (List.mem_singleton.mp hmem)
    exact .inr ⟨rfl, response, rfl⟩

/-- The sequence number of a request is part of its name. -/
lemma requestId_injective {pid seq seq' nanos nanos' : Nat}
    (h : requestId pid seq nanos = requestId pid seq' nanos') : seq = seq' := by
  have hlist := congrArg String.toList h
  simp only [requestId, String.toList_append, Nat.toList_repr, List.append_assoc] at hlist
  have hrest := List.append_cancel_left (List.append_cancel_left hlist)
  have hdash : ∀ n, '-' ∉ Nat.toDigits 10 n := fun n => Decimal.not_mem_toDigits (by decide) n
  have hseq : Nat.toDigits 10 seq ++ '-' :: Nat.toDigits 10 nanos =
      Nat.toDigits 10 seq' ++ '-' :: Nat.toDigits 10 nanos' := List.append_cancel_left hrest
  have heq := (List.append_cons_inj_of_notMem (hdash seq) (hdash nanos)).mp hseq
  apply Decimal.repr_injective
  apply String.toList_injective
  rw [Nat.toList_repr, Nat.toList_repr]
  exact heq.1

end

/-! ### Edits -/

/-- What a call does, one event of the log at a time. -/
inductive Edit (s : State) : State → Prop
  | returned (result : StepResult) (h : ∀ v, result ≠ .done v) : Edit s (s.returns result)
  | started (plan : Option AskPlan) (h : s.drive.started = false)
    (hplan : (ask s.drive.params).toOption = plan) :
      Edit s { s with drive := (plan.elim { s.drive with started := true }
        fun plan => { s.drive with started := true }.enqueue plan) }
  /-- A request to open the next question: every question before it is answered. -/
  | opened (w : Opening) (question : AskQuestion) (remaining : List AskQuestion)
    (pending : Option PendingQuestion) (crashed : Bool)
    (hremaining : s.drive.remaining = question :: remaining) (hnone : s.drive.pending = none)
    (hstarted : s.drive.started = true) (hready : Ready s) (hcancelled : s.cancelled = false)
    (hdestroyed : s.destroyed = false)
    (hpending : ∀ p, pending = some p →
      p.requestId = requestId s.pid (s.nextSeq + w.others) w.nanos ∧ p.question = question ∧
        ∃ response, w.reply = .ok response)
    (hlost : ∀ response, w.reply = .ok response → pending = none → crashed = true) :
      Edit s { s with
        nextSeq := s.nextSeq + w.others + 1
        drive := { s.drive with remaining, pending }
        crashed
        log := s.log ++ [.opened (requestId s.pid (s.nextSeq + w.others) w.nanos) question
          (openRequest (requestId s.pid (s.nextSeq + w.others) w.nanos) s.drive.toolCallId question)
          w.reply] }
  | polled (p : PendingQuestion) (reply : Reply) (hp : s.drive.pending = some p)
    (h : ∀ response, reply = .ok response → status response ≠ "answered") :
      Edit s (s.record (.polled p.requestId reply))
  | answered (p : PendingQuestion) (response : Value) (hp : s.drive.pending = some p)
    (h : status response = "answered") :
      Edit s { s with
        drive := { s.drive with
          pending := none
          answers := s.drive.answers ++ [answerOf p.question response] }
        log := s.log ++ [.polled p.requestId (.ok response)] }
  | timedOut (p : PendingQuestion) (hp : s.drive.pending = some p) :
      Edit s { s with
        drive := { s.drive with pending := none }
        log := s.log ++ [.timedOut p.requestId] ++ [.cancelRequested p.requestId] }
  | cancelRequested (p : PendingQuestion) (hp : s.drive.pending = some p) :
      Edit s (s.record (.cancelRequested p.requestId))
  | signalled (h : s.destroyed = false) :
      Edit s { s with cancelled := true, cancelling := s.cancelling + 1 }
  | cancelled (h : s.cancelling ≠ 0)
    (hover : ∀ p, s.drive.pending = some p → .cancelRequested p.requestId ∈ s.log) :
      Edit s { s with cancelling := s.cancelling - 1, log := s.log ++ [.cancelled] }
  | finished (hremaining : s.drive.remaining = []) (hnone : s.drive.pending = none)
    (hstarted : s.drive.started = true) (hfinished : s.drive.finished = false) (hready : Ready s)
    (hne : s.drive.answers ≠ []) :
      Edit s ({ s with drive := { s.drive with finished := true } }.returns (.done (buildDone s.drive)))

/-! ### What ties the drive to the log -/

structure Inv (s : State) : Prop where
  fresh : ∀ o ∈ openings s.log, ∃ seq nanos, o.1 = requestId s.pid seq nanos ∧ seq < s.nextSeq
  known : ∀ e ∈ s.log, ∀ id, e.about = some id → id ∈ (openings s.log).map Prod.fst
  distinct : ((openings s.log).map Prod.fst).Nodup
  waiting : s.drive.started = false → openings s.log = [] ∧ s.drive.remaining = [] ∧
    s.drive.pending = none ∧ s.drive.answers = []
  order : s.drive.started = true →
    (openings s.log).map Prod.snd ++ s.drive.remaining = planned s.drive.params
  pending : ∀ p, s.drive.pending = some p → Accepted s.log p.requestId ∧
    (∀ response, .polled p.requestId (.ok response) ∈ s.log → status response ≠ "answered") ∧
      ∃ os, List.Forall₂ (Bears s.log) s.drive.answers os ∧
        openings s.log = os ++ [(p.requestId, p.question)]
  only : s.crashed = false → ∀ id, Open s.log id → ∃ p, s.drive.pending = some p ∧ p.requestId = id
  single : ∀ before, before <+: s.log → ∀ id id', Open before id → Open before id' → id = id'
  results : ∀ v, .returned (.done v) ∈ s.log → ∃ plan answers, ask s.drive.params = .ok plan ∧
    List.Forall₂ (Bears s.log) answers (openings s.log) ∧
      (openings s.log).map Prod.snd = plan.asked ∧ v = doneValue plan answers
  once : (s.log.filter Event.isDone).length = if s.drive.finished then 1 else 0
  timedOut : ∀ id, .timedOut id ∈ s.log → s.crashed = false ∧ s.drive.pending = none ∧
    id ∈ (openings s.log).map Prod.fst ∧
      ∀ response, .polled id (.ok response) ∈ s.log → status response ≠ "answered"
  cancelled : .cancelled ∈ s.log → s.cancelled = true ∧ s.crashed = false ∧
    ∀ p, s.drive.pending = some p → .cancelRequested p.requestId ∈ s.log
  cancelling : s.cancelling ≠ 0 → s.cancelled = true

section

variable {s s' : State}

lemma exists_of_forall₂ {α β : Type} {R : α → β → Prop} {as : List α} {bs : List β}
    (h : List.Forall₂ R as bs) {b : β} (hb : b ∈ bs) : ∃ a ∈ as, R a b := by
  induction h with
  | nil => cases hb
  | @cons a _ as _ hr _ ih =>
    rcases List.mem_cons.mp hb with rfl | hb
    · exact ⟨a, List.mem_cons_self, hr⟩
    · obtain ⟨a', ha', hr'⟩ := ih hb
      exact ⟨a', List.mem_cons_of_mem _ ha', hr'⟩

lemma prefix_concat {before log : List Event} {e : Event} (h : before <+: log ++ [e]) :
    before <+: log ∨ before = log ++ [e] := by
  rcases List.prefix_concat_iff.mp h with h | h
  · exact .inr h
  · exact .inl h

/-- At most one dialog is open where the last event opens none. -/
lemma Inv.single_concat (h : Inv s) {e : Event} (he : e.opening = none) :
    ∀ before, before <+: s.log ++ [e] → ∀ id id', Open before id → Open before id' → id = id' := by
  intro before hbefore id id' hid hid'
  rcases prefix_concat hbefore with hbefore | rfl
  · exact h.single before hbefore id id' hid hid'
  · exact h.single s.log (List.prefix_refl _) id id' (hid.of_concat he) (hid'.of_concat he)

lemma Inv.known_concat (h : Inv s) {e : Event} (he : e.opening = none)
    (habout : ∀ id, e.about = some id → id ∈ (openings s.log).map Prod.fst) :
    ∀ e' ∈ s.log ++ [e], ∀ id, e'.about = some id → id ∈ (openings (s.log ++ [e])).map Prod.fst := by
  intro e' he' id hid
  rw [openings_concat_of_none he]
  rcases List.mem_append.mp he' with hmem | hmem
  · exact h.known e' hmem id hid
  · rw [List.mem_singleton.mp hmem] at hid
    exact habout id hid

lemma Inv.results_concat (h : Inv s) {e : Event} (he : e.opening = none) (hdone : e.isDone = false) :
    ∀ v, .returned (.done v) ∈ s.log ++ [e] → ∃ plan answers, ask s.drive.params = .ok plan ∧
      List.Forall₂ (Bears (s.log ++ [e])) answers (openings (s.log ++ [e])) ∧
        (openings (s.log ++ [e])).map Prod.snd = plan.asked ∧ v = doneValue plan answers := by
  intro v hv
  rw [openings_concat_of_none he]
  rcases List.mem_append.mp hv with hmem | hmem
  · obtain ⟨plan, answers, hplan, hanswers, horder, hvalue⟩ := h.results v hmem
    exact ⟨plan, answers, hplan, hanswers.imp fun _ _ => Bears.mono, horder, hvalue⟩
  · rw [← List.mem_singleton.mp hmem] at hdone
    cases hdone

lemma Inv.once_concat (h : Inv s) {e : Event} (hdone : e.isDone = false) :
    ((s.log ++ [e]).filter Event.isDone).length = if s.drive.finished then 1 else 0 := by
  rw [List.filter_append, List.filter_singleton, hdone]
  simpa using h.once

/-- An event that is no answer and leaves the drive alone. -/
lemma Inv.record (h : Inv s) {e : Event} (he : e.opening = none) (hdone : e.isDone = false)
    (habout : ∀ id, e.about = some id → id ∈ (openings s.log).map Prod.fst)
    (hanswered : ∀ id response, e = .polled id (.ok response) → status response ≠ "answered")
    (htimed : ∀ id, e ≠ .timedOut id) (hcancelled : e ≠ .cancelled) : Inv (s.record e) := by
  have hopenings : openings (s.log ++ [e]) = openings s.log := openings_concat_of_none he
  have hpolled : ∀ id, (∀ response, .polled id (.ok response) ∈ s.log → status response ≠ "answered") →
      ∀ response, .polled id (.ok response) ∈ s.log ++ [e] → status response ≠ "answered" := by
    intro id hlog response hmem
    rcases List.mem_append.mp hmem with hmem | hmem
    · exact hlog response hmem
    · exact hanswered id response (List.mem_singleton.mp hmem).symm
  constructor
  · show ∀ o ∈ openings (s.log ++ [e]), _
    rw [hopenings]
    exact h.fresh
  · exact h.known_concat he habout
  · show ((openings (s.log ++ [e])).map Prod.fst).Nodup
    rw [hopenings]
    exact h.distinct
  · show _ → openings (s.log ++ [e]) = [] ∧ _
    rw [hopenings]
    exact h.waiting
  · show _ → (openings (s.log ++ [e])).map Prod.snd ++ _ = _
    rw [hopenings]
    exact h.order
  · intro p hp
    obtain ⟨⟨q, request, response, hopened⟩, hnot, os, hos, hlast⟩ := h.pending p hp
    refine ⟨⟨q, request, response, List.mem_append_left _ hopened⟩, hpolled _ hnot, os,
      hos.imp fun _ _ => Bears.mono, ?_⟩
    show openings (s.log ++ [e]) = _
    rw [hopenings]
    exact hlast
  · exact fun hlive id hid => h.only hlive id (hid.of_concat he)
  · exact h.single_concat he
  · exact h.results_concat he hdone
  · exact h.once_concat hdone
  · intro id hid
    rcases List.mem_append.mp hid with hmem | hmem
    · obtain ⟨hlive, hnone, hopened, hnot⟩ := h.timedOut id hmem
      refine ⟨hlive, hnone, ?_, hpolled id hnot⟩
      show id ∈ (openings (s.log ++ [e])).map Prod.fst
      rw [hopenings]
      exact hopened
    · exact absurd (List.mem_singleton.mp hmem).symm (htimed id)
  · intro hmem
    rcases List.mem_append.mp hmem with hmem | hmem
    · obtain ⟨hflag, hlive, hrequested⟩ := h.cancelled hmem
      exact ⟨hflag, hlive, fun p hp => List.mem_append_left _ (hrequested p hp)⟩
    · exact absurd (List.mem_singleton.mp hmem).symm hcancelled
  · exact h.cancelling

lemma Inv.mem_of_pending (h : Inv s) {p : PendingQuestion} (hp : s.drive.pending = some p) :
    p.requestId ∈ (openings s.log).map Prod.fst := by
  obtain ⟨-, -, os, -, hlast⟩ := h.pending p hp
  rw [hlast]
  simp

lemma planned_of_ok {params : Value} {plan : AskPlan} (h : ask params = .ok plan) :
    planned params = plan.asked := by
  rw [planned, h]

lemma toOption_ask {params : Value} :
    (ask params).toOption.elim [] AskPlan.asked = planned params := by
  rw [planned]
  cases ask params <;> rfl

lemma Inv.started (h : Inv s) {plan : Option AskPlan} (hstarted : s.drive.started = false)
    (hplan : (ask s.drive.params).toOption = plan) :
    Inv { s with drive := (plan.elim { s.drive with started := true }
      fun plan => { s.drive with started := true }.enqueue plan) } := by
  obtain ⟨hopenings, hremaining, hpending, hanswers⟩ := h.waiting hstarted
  have hplanned : planned s.drive.params = plan.elim [] AskPlan.asked := by
    rw [← hplan, toOption_ask]
  have hdrive : ∀ d : Drive, d.params = s.drive.params → d.started = true →
      d.finished = s.drive.finished → d.pending = none → d.remaining = plan.elim [] AskPlan.asked →
      Inv { s with drive := d } := by
    intro d hparams hstarted' hfinished hnone hqueued
    constructor
    · exact h.fresh
    · exact h.known
    · exact h.distinct
    · intro hfalse
      exact absurd (hstarted'.symm.trans hfalse) (by decide)
    · intro _
      show (openings s.log).map Prod.snd ++ d.remaining = planned d.params
      rw [hopenings, hqueued, hparams, hplanned]
      rfl
    · intro p hp
      cases hnone.symm.trans hp
    · intro hlive id hid
      obtain ⟨p, hp, -⟩ := h.only hlive id hid
      cases hpending.symm.trans hp
    · exact h.single
    · show ∀ v, _ → ∃ plan answers, ask d.params = _ ∧ _
      rw [hparams]
      exact h.results
    · show _ = if d.finished then 1 else 0
      rw [hfinished]
      exact h.once
    · intro id hid
      obtain ⟨hlive, -, hrest⟩ := h.timedOut id hid
      exact ⟨hlive, hnone, hrest⟩
    · intro hmem
      obtain ⟨hflag, hlive, -⟩ := h.cancelled hmem
      exact ⟨hflag, hlive, fun p hp => by cases hnone.symm.trans hp⟩
    · exact h.cancelling
  cases plan with
  | none => exact hdrive _ rfl rfl rfl hpending hremaining
  | some plan =>
    refine hdrive _ rfl rfl rfl hpending ?_
    show s.drive.remaining ++ plan.asked = plan.asked
    rw [hremaining]
    rfl

/-- An answer leaves every question that was opened with an answer. -/
lemma Inv.answered (h : Inv s) {p : PendingQuestion} {response : Value}
    (hp : s.drive.pending = some p) (hstatus : status response = "answered") :
    let s' : State := { s with
      drive := { s.drive with
        pending := none
        answers := s.drive.answers ++ [answerOf p.question response] }
      log := s.log ++ [.polled p.requestId (.ok response)] }
    Inv s' ∧ Ready s' := by
  intro s'
  have hopenings : openings (s.log ++ [.polled p.requestId (.ok response)]) = openings s.log :=
    openings_concat_of_none rfl
  obtain ⟨-, -, os, hos, hlast⟩ := h.pending p hp
  refine ⟨?_, ?_⟩
  · constructor
    · show ∀ o ∈ openings (s.log ++ [.polled p.requestId (.ok response)]), _
      rw [hopenings]
      exact h.fresh
    · exact h.known_concat rfl fun id hid => Option.some.inj hid ▸ h.mem_of_pending hp
    · show ((openings (s.log ++ [.polled p.requestId (.ok response)])).map Prod.fst).Nodup
      rw [hopenings]
      exact h.distinct
    · intro hstarted
      obtain ⟨-, -, hnone, -⟩ := h.waiting hstarted
      cases hnone.symm.trans hp
    · show _ → (openings (s.log ++ [.polled p.requestId (.ok response)])).map Prod.snd ++ _ = _
      rw [hopenings]
      exact h.order
    · intro p' hp'
      cases hp'
    · intro hlive id hid
      have hid' : Open s.log id := hid.of_concat rfl
      obtain ⟨p', hp', rfl⟩ := h.only hlive id hid'
      obtain rfl := Option.some.inj (hp.symm.trans hp')
      exact absurd (.inl ⟨response, List.mem_append_right _ List.mem_cons_self, .inl hstatus⟩) hid.2
    · exact h.single_concat rfl
    · exact h.results_concat rfl rfl
    · exact h.once_concat rfl
    · intro id hid
      rcases List.mem_append.mp hid with hmem | hmem
      · obtain ⟨-, hnone, -⟩ := h.timedOut id hmem
        cases hnone.symm.trans hp
      · cases List.mem_singleton.mp hmem
    · intro hmem
      rcases List.mem_append.mp hmem with hmem | hmem
      · obtain ⟨hflag, hlive, -⟩ := h.cancelled hmem
        exact ⟨hflag, hlive, fun p' hp' => by cases hp'⟩
      · cases List.mem_singleton.mp hmem
    · exact h.cancelling
  · show List.Forall₂ (Bears (s.log ++ [.polled p.requestId (.ok response)]))
      (s.drive.answers ++ [answerOf p.question response])
      (openings (s.log ++ [.polled p.requestId (.ok response)]))
    rw [hopenings, hlast]
    refine List.rel_append (hos.imp fun _ _ => Bears.mono) (.cons ⟨response, ?_, hstatus, rfl⟩ .nil)
    exact List.mem_append_right _ List.mem_cons_self

/-- A dialog that is cancelled as it times out is open no longer, and no other opens. -/
lemma Inv.cancelTimedOut (h : Inv s) (hlive : s.crashed = false) {p : PendingQuestion}
    (hp : s.drive.pending = some p) :
    Inv { s with
      drive := { s.drive with pending := none }
      log := s.log ++ [.timedOut p.requestId] ++ [.cancelRequested p.requestId] } := by
  have hopenings : openings (s.log ++ [.timedOut p.requestId] ++ [.cancelRequested p.requestId]) =
      openings s.log := by
    rw [openings_concat_of_none rfl, openings_concat_of_none rfl]
  have hmem : ∀ {e : Event}, e ∈ s.log ++ [.timedOut p.requestId] ++ [.cancelRequested p.requestId] →
      e ∈ s.log ∨ e = .timedOut p.requestId ∨ e = .cancelRequested p.requestId := by
    intro e he
    simpa [or_assoc] using he
  have hopen : ∀ {id}, Open (s.log ++ [.timedOut p.requestId] ++ [.cancelRequested p.requestId]) id →
      Open s.log id := fun hid => (hid.of_concat rfl).of_concat rfl
  constructor
  · show ∀ o ∈ openings (s.log ++ [.timedOut p.requestId] ++ [.cancelRequested p.requestId]), _
    rw [hopenings]
    exact h.fresh
  · intro e he id hid
    show id ∈ (openings (s.log ++ [.timedOut p.requestId] ++ [.cancelRequested p.requestId])).map Prod.fst
    rw [hopenings]
    rcases hmem he with he | rfl | rfl
    · exact h.known e he id hid
    · exact Option.some.inj hid ▸ h.mem_of_pending hp
    · exact Option.some.inj hid ▸ h.mem_of_pending hp
  · show ((openings (s.log ++ [.timedOut p.requestId] ++ [.cancelRequested p.requestId])).map
      Prod.fst).Nodup
    rw [hopenings]
    exact h.distinct
  · intro hstarted
    obtain ⟨-, -, hnone, -⟩ := h.waiting hstarted
    cases hnone.symm.trans hp
  · show _ → (openings (s.log ++ [.timedOut p.requestId] ++ [.cancelRequested p.requestId])).map
      Prod.snd ++ _ = _
    rw [hopenings]
    exact h.order
  · intro p' hp'
    cases hp'
  · intro _ id hid
    obtain ⟨p', hp', rfl⟩ := h.only hlive id (hopen hid)
    obtain rfl := Option.some.inj (hp.symm.trans hp')
    exact absurd (.inr (List.mem_append_right _ List.mem_cons_self)) hid.2
  · intro before hbefore id id' hid hid'
    rcases prefix_concat hbefore with hbefore | rfl
    · exact h.single_concat rfl before hbefore id id' hid hid'
    · exact h.single s.log (List.prefix_refl _) id id' (hopen hid) (hopen hid')
  · intro v hv
    show ∃ plan answers, _ ∧ List.Forall₂ _ answers (openings (s.log ++ [.timedOut p.requestId] ++
      [.cancelRequested p.requestId])) ∧ (openings (s.log ++ [.timedOut p.requestId] ++
        [.cancelRequested p.requestId])).map Prod.snd = _ ∧ _
    rw [hopenings]
    rcases hmem hv with hv | hv | hv
    · obtain ⟨plan, answers, hplan, hanswers, hrest⟩ := h.results v hv
      exact ⟨plan, answers, hplan, hanswers.imp fun _ _ hbears => hbears.mono.mono, hrest⟩
    · cases hv
    · cases hv
  · show ((s.log ++ [Event.timedOut p.requestId] ++ [Event.cancelRequested p.requestId]).filter
      Event.isDone).length = _
    rw [List.filter_append, List.filter_append]
    simpa [Event.isDone] using h.once
  · intro id hid
    rcases hmem hid with hid | hid | hid
    · obtain ⟨-, hnone, -⟩ := h.timedOut id hid
      cases hnone.symm.trans hp
    · obtain rfl := Event.timedOut.inj hid
      refine ⟨hlive, rfl, ?_, fun response hpolled => ?_⟩
      · show p.requestId ∈ (openings (s.log ++ [.timedOut p.requestId] ++
          [.cancelRequested p.requestId])).map Prod.fst
        rw [hopenings]
        exact h.mem_of_pending hp
      · rcases hmem hpolled with hpolled | hpolled | hpolled
        · exact (h.pending p hp).2.1 response hpolled
        · cases hpolled
        · cases hpolled
    · cases hid
  · intro hcancelled
    rcases hmem hcancelled with hcancelled | hcancelled | hcancelled
    · obtain ⟨hflag, -, -⟩ := h.cancelled hcancelled
      exact ⟨hflag, hlive, fun p' hp' => by cases hp'⟩
    · cases hcancelled
    · cases hcancelled
  · exact h.cancelling

/-- A name with a number not used before. -/
lemma Inv.notMem_openings (h : Inv s) (others nanos : Nat) :
    requestId s.pid (s.nextSeq + others) nanos ∉ (openings s.log).map Prod.fst := by
  intro hmem
  obtain ⟨o, ho, heq⟩ := List.mem_map.mp hmem
  obtain ⟨seq, nanos', hname, hlt⟩ := h.fresh o ho
  have hseq := requestId_injective (hname.symm.trans heq)
  omega

lemma Inv.opened (h : Inv s) (hlive : s.crashed = false) {w : Opening} {question : AskQuestion}
    {remaining : List AskQuestion} {pending : Option PendingQuestion} {crashed : Bool}
    (hremaining : s.drive.remaining = question :: remaining) (hnone : s.drive.pending = none)
    (hstarted : s.drive.started = true) (hready : Ready s) (hcancelled : s.cancelled = false)
    (hpending : ∀ p, pending = some p →
      p.requestId = requestId s.pid (s.nextSeq + w.others) w.nanos ∧ p.question = question ∧
        ∃ response, w.reply = .ok response)
    (hlost : ∀ response, w.reply = .ok response → pending = none → crashed = true) :
    Inv { s with
      nextSeq := s.nextSeq + w.others + 1
      drive := { s.drive with remaining, pending }
      crashed
      log := s.log ++ [.opened (requestId s.pid (s.nextSeq + w.others) w.nanos) question
        (openRequest (requestId s.pid (s.nextSeq + w.others) w.nanos) s.drive.toolCallId question)
        w.reply] } := by
  have hnew := h.notMem_openings w.others w.nanos
  generalize hid : requestId s.pid (s.nextSeq + w.others) w.nanos = newId at hnew hpending ⊢
  generalize openRequest newId s.drive.toolCallId question = request
  have hopenings : openings (s.log ++ [.opened newId question request w.reply]) =
      openings s.log ++ [(newId, question)] := openings_concat
  have hclosed : ∀ id, ¬Open s.log id := by
    intro id hopen
    obtain ⟨p, hp, -⟩ := h.only hlive id hopen
    cases hnone.symm.trans hp
  have hmem : ∀ {e : Event}, e ∈ s.log ++ [.opened newId question request w.reply] → e.opening = none →
      e ∈ s.log := by
    intro e he hnot
    rcases List.mem_append.mp he with he | he
    · exact he
    · rw [List.mem_singleton.mp he] at hnot
      cases hnot
  have hdone : ∀ v, .returned (.done v) ∉ s.log := by
    intro v hv
    obtain ⟨plan, -, hplan, -, hasked, -⟩ := h.results v hv
    have horder := h.order hstarted
    rw [hremaining, hasked, planned_of_ok hplan] at horder
    exact absurd (List.append_right_eq_self.mp horder) (List.cons_ne_nil _ _)
  constructor
  · intro o ho
    rw [hopenings] at ho
    rcases List.mem_append.mp ho with ho | ho
    · obtain ⟨seq, nanos, heq, hlt⟩ := h.fresh o ho
      exact ⟨seq, nanos, heq, by show seq < s.nextSeq + w.others + 1; omega⟩
    · rw [List.mem_singleton.mp ho]
      exact ⟨_, _, hid.symm, Nat.lt_succ_self _⟩
  · intro e he id habout
    show id ∈ (openings (s.log ++ [.opened newId question request w.reply])).map Prod.fst
    rw [hopenings, List.map_append]
    rcases List.mem_append.mp he with he | he
    · exact List.mem_append_left _ (h.known e he id habout)
    · rw [List.mem_singleton.mp he] at habout
      cases habout
  · show ((openings (s.log ++ [.opened newId question request w.reply])).map Prod.fst).Nodup
    rw [hopenings, List.map_append]
    exact List.nodup_append.mpr ⟨h.distinct, by simp, fun a ha b hb => by
      rw [List.mem_singleton.mp hb]
      rintro rfl
      exact hnew ha⟩
  · intro hfalse
    exact absurd (hstarted.symm.trans hfalse) (by decide)
  · intro _
    show (openings (s.log ++ [.opened newId question request w.reply])).map Prod.snd ++ remaining = _
    rw [hopenings, ← h.order hstarted, hremaining, List.map_append, List.append_assoc]
    rfl
  · intro p hp
    obtain ⟨hname, rfl, response, hreply⟩ := hpending p hp
    rw [hname]
    refine ⟨⟨p.question, request, response, ?_⟩, fun response' hpolled => ?_, openings s.log, ?_, hopenings⟩
    · rw [hreply]
      exact List.mem_append_right _ List.mem_cons_self
    · exact absurd (h.known _ (hmem hpolled rfl) newId rfl) hnew
    · exact hready.imp fun _ _ => Bears.mono
  · intro hlive' id hopen
    rcases hopen.of_opened with hopen | ⟨rfl, response, hreply⟩
    · exact absurd hopen (hclosed id)
    · cases hp : pending with
      | none =>
        have hcrashed := hlost response hreply hp
        exact absurd (hcrashed.symm.trans hlive') (by decide)
      | some p => exact ⟨p, rfl, (hpending p hp).1⟩
  · intro before hbefore id id' hopen hopen'
    rcases prefix_concat hbefore with hbefore | rfl
    · exact h.single before hbefore id id' hopen hopen'
    · rcases hopen.of_opened with hopen | ⟨rfl, -⟩
      · exact absurd hopen (hclosed id)
      · rcases hopen'.of_opened with hopen' | ⟨rfl, -⟩
        · exact absurd hopen' (hclosed id')
        · rfl
  · intro v hv
    exact absurd (hmem hv rfl) (hdone v)
  · exact h.once_concat rfl
  · intro id htimed
    obtain ⟨-, -, hopened, hnot⟩ := h.timedOut id (hmem htimed rfl)
    obtain ⟨o, ho, rfl⟩ := List.mem_map.mp hopened
    obtain ⟨answer, -, response, hpolled, hanswered, -⟩ := exists_of_forall₂ hready ho
    exact absurd hanswered (hnot response hpolled)
  · intro hmem'
    obtain ⟨hflag, -⟩ := h.cancelled (hmem hmem' rfl)
    exact absurd (hcancelled.symm.trans hflag) (by decide)
  · exact h.cancelling

lemma Inv.finished (h : Inv s) (hremaining : s.drive.remaining = [])
    (hstarted : s.drive.started = true) (hfinished : s.drive.finished = false) (hready : Ready s)
    (hne : s.drive.answers ≠ []) :
    Inv ({ s with drive := { s.drive with finished := true } }.returns (.done (buildDone s.drive))) := by
  have hopenings : openings (s.log ++ [.returned (.done (buildDone s.drive))]) = openings s.log :=
    openings_concat_of_none rfl
  have horder := h.order hstarted
  rw [hremaining, List.append_nil] at horder
  obtain ⟨plan, hplan⟩ : ∃ plan, ask s.drive.params = .ok plan := by
    cases hask : ask s.drive.params with
    | ok plan => exact ⟨plan, rfl⟩
    | error e =>
      rw [planned, hask, List.map_eq_nil_iff] at horder
      have hready' : List.Forall₂ _ s.drive.answers (openings s.log) := hready
      rw [horder] at hready'
      exact absurd (List.forall₂_nil_right_iff.mp hready') hne
  have hvalue : buildDone s.drive = doneValue plan s.drive.answers := by
    rw [buildDone, hplan]
    rfl
  constructor
  · show ∀ o ∈ openings (s.log ++ [.returned (.done (buildDone s.drive))]), _
    rw [hopenings]
    exact h.fresh
  · exact h.known_concat rfl fun id hid => by cases hid
  · show ((openings (s.log ++ [.returned (.done (buildDone s.drive))])).map Prod.fst).Nodup
    rw [hopenings]
    exact h.distinct
  · intro hfalse
    exact absurd (hstarted.symm.trans hfalse) (by decide)
  · show _ → (openings (s.log ++ [.returned (.done (buildDone s.drive))])).map Prod.snd ++ _ = _
    rw [hopenings]
    exact h.order
  · intro p hp
    obtain ⟨⟨q, request, response, hopened⟩, hnot, os, hos, hlast⟩ := h.pending p hp
    refine ⟨⟨q, request, response, List.mem_append_left _ hopened⟩, fun response' hpolled => ?_, os,
      hos.imp fun _ _ => Bears.mono, hopenings.trans hlast⟩
    rcases List.mem_append.mp hpolled with hpolled | hpolled
    · exact hnot response' hpolled
    · cases List.mem_singleton.mp hpolled
  · exact fun hlive id hid => h.only hlive id (hid.of_concat rfl)
  · exact h.single_concat rfl
  · intro v hv
    show ∃ plan answers, _ ∧ List.Forall₂ _ answers (openings (s.log ++
      [.returned (.done (buildDone s.drive))])) ∧ (openings (s.log ++
        [.returned (.done (buildDone s.drive))])).map Prod.snd = _ ∧ _
    rw [hopenings]
    rcases List.mem_append.mp hv with hv | hv
    · obtain ⟨plan', answers, hplan', hanswers, hrest⟩ := h.results v hv
      exact ⟨plan', answers, hplan', hanswers.imp fun _ _ => Bears.mono, hrest⟩
    · obtain rfl := StepResult.done.inj (Event.returned.inj (List.mem_singleton.mp hv))
      exact ⟨plan, s.drive.answers, hplan, hready.imp fun _ _ => Bears.mono,
        horder.trans (planned_of_ok hplan), hvalue⟩
  · have honce := h.once
    rw [hfinished] at honce
    show ((s.log ++ [Event.returned (.done (buildDone s.drive))]).filter Event.isDone).length = 1
    rw [List.filter_append, List.length_append, honce]
    rfl
  · intro id hid
    rcases List.mem_append.mp hid with hid | hid
    · obtain ⟨hlive, hnone, hopened, hnot⟩ := h.timedOut id hid
      refine ⟨hlive, hnone, ?_, fun response hpolled => ?_⟩
      · show id ∈ (openings (s.log ++ [.returned (.done (buildDone s.drive))])).map Prod.fst
        rw [hopenings]
        exact hopened
      · rcases List.mem_append.mp hpolled with hpolled | hpolled
        · exact hnot response hpolled
        · cases List.mem_singleton.mp hpolled
    · cases List.mem_singleton.mp hid
  · intro hmem
    rcases List.mem_append.mp hmem with hmem | hmem
    · obtain ⟨hflag, hlive, hrequested⟩ := h.cancelled hmem
      exact ⟨hflag, hlive, fun p hp => List.mem_append_left _ (hrequested p hp)⟩
    · cases List.mem_singleton.mp hmem
  · exact h.cancelling

lemma Inv.cancelEnds (h : Inv s) (hlive : s.crashed = false) (hcancelling : s.cancelling ≠ 0)
    (hover : ∀ p, s.drive.pending = some p → .cancelRequested p.requestId ∈ s.log) :
    Inv { s with cancelling := s.cancelling - 1, log := s.log ++ [.cancelled] } := by
  have hopenings : openings (s.log ++ [.cancelled]) = openings s.log := openings_concat_of_none rfl
  have hmem : ∀ {e : Event}, e ∈ s.log ++ [.cancelled] → e ≠ .cancelled → e ∈ s.log := by
    intro e he hne
    exact (List.mem_append.mp he).resolve_right fun he => hne (List.mem_singleton.mp he)
  constructor
  · show ∀ o ∈ openings (s.log ++ [.cancelled]), _
    rw [hopenings]
    exact h.fresh
  · exact h.known_concat rfl fun id hid => by cases hid
  · show ((openings (s.log ++ [.cancelled])).map Prod.fst).Nodup
    rw [hopenings]
    exact h.distinct
  · show _ → openings (s.log ++ [.cancelled]) = [] ∧ _
    rw [hopenings]
    exact h.waiting
  · show _ → (openings (s.log ++ [.cancelled])).map Prod.snd ++ _ = _
    rw [hopenings]
    exact h.order
  · intro p hp
    obtain ⟨⟨q, request, response, hopened⟩, hnot, os, hos, hlast⟩ := h.pending p hp
    exact ⟨⟨q, request, response, List.mem_append_left _ hopened⟩,
      fun response' hpolled => hnot response' (hmem hpolled (fun heq => by cases heq)), os,
      hos.imp fun _ _ => Bears.mono, hopenings.trans hlast⟩
  · exact fun hlive id hid => h.only hlive id (hid.of_concat rfl)
  · exact h.single_concat rfl
  · exact h.results_concat rfl rfl
  · exact h.once_concat rfl
  · intro id hid
    obtain ⟨hlive, hnone, hopened, hnot⟩ := h.timedOut id (hmem hid (fun heq => by cases heq))
    refine ⟨hlive, hnone, ?_, fun response hpolled =>
      hnot response (hmem hpolled (fun heq => by cases heq))⟩
    show id ∈ (openings (s.log ++ [.cancelled])).map Prod.fst
    rw [hopenings]
    exact hopened
  · exact fun _ => ⟨h.cancelling hcancelling, hlive, fun p hp => List.mem_append_left _ (hover p hp)⟩
  · exact fun _ => h.cancelling hcancelling

lemma Inv.edit (h : Inv s) (hlive : s.crashed = false) (hedit : Edit s s') : Inv s' := by
  cases hedit with
  | returned result hresult =>
    refine h.record rfl ?_ (fun id hid => by cases hid) (fun _ _ heq => by cases heq)
      (fun _ heq => by cases heq) (fun heq => by cases heq)
    cases result with
    | done v => exact absurd rfl (hresult v)
    | pending => rfl
    | err => rfl
  | started plan hstarted hplan => exact h.started hstarted hplan
  | opened w question remaining pending crashed hremaining hnone hstarted hready hcancelled _ hpending
      hlost =>
    exact h.opened hlive hremaining hnone hstarted hready hcancelled hpending hlost
  | polled p reply hp hstatus =>
    refine h.record rfl rfl (fun id hid => Option.some.inj hid ▸ h.mem_of_pending hp) ?_
      (fun _ heq => by cases heq) (fun heq => by cases heq)
    intro id response heq
    exact hstatus response (Event.polled.inj heq).2
  | answered p response hp hstatus => exact (h.answered hp hstatus).1
  | timedOut p hp => exact h.cancelTimedOut hlive hp
  | cancelRequested p hp =>
    exact h.record rfl rfl (fun id hid => Option.some.inj hid ▸ h.mem_of_pending hp)
      (fun _ _ heq => by cases heq) (fun _ heq => by cases heq) (fun heq => by cases heq)
  | signalled hdestroyed =>
    exact ⟨h.fresh, h.known, h.distinct, h.waiting, h.order, h.pending, h.only, h.single, h.results,
      h.once, h.timedOut, fun hmem => ⟨rfl, (h.cancelled hmem).2⟩, fun _ => rfl⟩
  | cancelled hcancelling hover => exact h.cancelEnds hlive hcancelling hover
  | finished hremaining hnone hstarted hfinished hready hne =>
    exact h.finished hremaining hstarted hfinished hready hne

/-- Any number of edits, none after a panic. -/
abbrev Edits : State → State → Prop := ReflTransGen fun s s' => s.crashed = false ∧ Edit s s'

lemma Inv.edits (h : Inv s) (hedits : Edits s s') : Inv s' := by
  induction hedits with
  | refl => exact h
  | tail _ hedit ih => exact ih.edit hedit.1 hedit.2

/-- A handle that is destroyed leaves no dialog that is still open. -/
def Kept (s : State) : Prop :=
  s.destroyed = true → s.crashed = false ∧ ∀ p, s.drive.pending = some p → Over s.log p.requestId

lemma Kept.edit (h : Kept s) (hedit : Edit s s') : Kept s' := by
  intro hdestroyed
  cases hedit with
  | returned result hresult =>
    obtain ⟨hlive, hover⟩ := h hdestroyed
    exact ⟨hlive, fun p hp => (hover p hp).mono⟩
  | started plan hstarted hplan =>
    obtain ⟨hlive, hover⟩ := h hdestroyed
    refine ⟨hlive, fun p hp => hover p ?_⟩
    cases plan with
    | none => exact hp
    | some plan => exact hp
  | opened w question remaining pending crashed hremaining hnone hstarted hready hcancelled hnot =>
    exact absurd (hnot.symm.trans hdestroyed) (by decide)
  | polled p reply hp hstatus =>
    obtain ⟨hlive, hover⟩ := h hdestroyed
    exact ⟨hlive, fun p' hp' => (hover p' hp').mono⟩
  | answered p response hp hstatus => exact ⟨(h hdestroyed).1, fun p' hp' => by cases hp'⟩
  | timedOut p hp => exact ⟨(h hdestroyed).1, fun p' hp' => by cases hp'⟩
  | cancelRequested p hp =>
    obtain ⟨hlive, hover⟩ := h hdestroyed
    exact ⟨hlive, fun p' hp' => (hover p' hp').mono⟩
  | signalled hnot => exact absurd (hnot.symm.trans hdestroyed) (by decide)
  | cancelled hcancelling hrequested =>
    obtain ⟨hlive, hover⟩ := h hdestroyed
    exact ⟨hlive, fun p' hp' => (hover p' hp').mono⟩
  | finished hremaining hnone hstarted hfinished hready hne =>
    obtain ⟨hlive, hover⟩ := h hdestroyed
    exact ⟨hlive, fun p' hp' => (hover p' hp').mono⟩

lemma Kept.edits (h : Kept s) (hedits : Edits s s') : Kept s' := by
  induction hedits with
  | refl => exact h
  | tail _ hedit ih => exact ih.edit hedit.2

end

end AskUser
