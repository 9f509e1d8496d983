import RpiPackage.Host.Admission
import RpiPackage.Lib.Run

/-!
# Settlement

Which run settles an execution. Once a start has been seen after the publication, only the
settlement of the newest started run counts. An accepted execution of which no start has been seen
is settled by any settlement, since an execution may settle without a start of its own.
-/

namespace Host

open Json Result

/-- The frame answers the request with an acceptance. -/
def Accepts (id : String) (frame : Value) : Prop :=
  (frame.index "type").asStr = some "response" ∧ (frame.index "id").asStr = some id ∧
    (frame.index "success").asBool = some true ∧
      ((frame.index "data").index "accepted").asBool = some true

/-- The frame answers the request with a refusal. -/
def Refuses (id : String) (frame : Value) : Prop :=
  (frame.index "type").asStr = some "response" ∧ (frame.index "id").asStr = some id ∧
    (frame.index "success").asBool = some false

instance (id : String) (frame : Value) : Decidable (Accepts id frame) :=
  inferInstanceAs (Decidable (_ ∧ _ ∧ _ ∧ _))

/-- A frame accepts the request, and none before it refuses it. -/
def Accepted (id : String) (frames : List Value) : Prop :=
  ∃ before frame later, frames = before ++ frame :: later ∧ Accepts id frame ∧
    ∀ f ∈ before, ¬Refuses id f

def IsStart (frame : Value) : Prop := (frame.index "type").asStr = some "agent_start"

def IsSettlement (frame : Value) : Prop := (frame.index "type").asStr = some "agent_settled"

instance (frame : Value) : Decidable (IsStart frame) := inferInstanceAs (Decidable (_ = _))

instance (frame : Value) : Decidable (IsSettlement frame) := inferInstanceAs (Decidable (_ = _))

def runOf (frame : Value) : Option String := (frame.index "runId").asStr

/-- The newest start among the frames is the one of the run. -/
def LatestRun (run : String) (frames : List Value) : Prop :=
  ∃ before frame later, frames = before ++ frame :: later ∧ IsStart frame ∧ runOf frame = some run ∧
    ∀ f ∈ later, ¬IsStart f

namespace ExecutionAdmission

variable {a : ExecutionAdmission} {intent : Intent} {id run : String} {frame : Value}

/-! ### What a frame does -/

lemma observe_start (h : IsStart frame) : a.observe frame = a.agentStart (runOf frame) := by
  unfold observe
  rw [h]
  rfl

lemma observe_settlement (h : IsSettlement frame) :
    a.observe frame = a.agentSettled (runOf frame) := by
  unfold observe
  rw [h]
  rfl

/-- A frame that is no start answers the request, settles, or changes nothing. -/
lemma observe_cases (h : ¬IsStart frame) : a.observe frame = a.response frame ∨
    (IsSettlement frame ∧ a.observe frame = a.agentSettled (runOf frame)) ∨
      a.observe frame = a := by
  unfold observe
  split
  · exact .inl rfl
  · rename_i htype
    exact absurd htype h
  · rename_i htype
    exact .inr (.inl ⟨htype, rfl⟩)
  · exact .inr (.inr rfl)

/-- A response refuses the current intent, accepts it, or changes nothing. -/
lemma response_cases (a : ExecutionAdmission) (frame : Value) :
    (a.response frame).current = none ∧ (a.response frame).nativeUnsettled = a.nativeUnsettled ∧
        (a.response frame).nativeRun = a.nativeRun ∨
      (∃ intent, a.current = some intent ∧ a.response frame =
        ⟨some { intent with accepted := true }, true, intent.run⟩) ∨
      a.response frame = a := by
  unfold response
  split
  · exact .inr (.inr rfl)
  · rename_i intent hcurrent
    split
    · exact .inr (.inr rfl)
    · split
      · exact .inl ⟨rfl, rfl, rfl⟩
      · split
        · exact .inr (.inl ⟨intent, hcurrent, rfl⟩)
        · exact .inr (.inr rfl)

@[simp] lemma current_agentSettled (event : Option String) : (a.agentSettled event).current =
    a.current.filter fun intent => !(intent.accepted && matchesRun intent.run event) := by
  unfold agentSettled
  split <;> rfl

@[simp] lemma nativeUnsettled_agentSettled (event : Option String) :
    (a.agentSettled event).nativeUnsettled =
      (a.nativeUnsettled && !matchesRun a.nativeRun event) := by
  unfold agentSettled
  split <;> rename_i hmatches <;> simp [hmatches]

@[simp] lemma nativeRun_agentSettled (event : Option String) :
    (a.agentSettled event).nativeRun = if matchesRun a.nativeRun event then none else a.nativeRun := by
  unfold agentSettled
  split <;> rfl

lemma unsettled_eq_false :
    a.unsettled = false ↔ a.current = none ∧ a.nativeUnsettled = false := by
  simp [unsettled]

/-! ### The intent after its publication -/

/-- What is current is the published intent of the request. -/
def OnlyPublished (id : String) (a : ExecutionAdmission) : Prop :=
  ∀ intent ∈ a.current, intent.id = id ∧ intent.published = true

lemma OnlyPublished.observe (h : a.OnlyPublished id) (frame : Value) :
    (a.observe frame).OnlyPublished id := by
  intro intent hmem
  rcases hcurrent : a.current with _ | before
  · rw [observe_none hcurrent] at hmem
    cases hmem
  · rcases observe_current hcurrent frame with ⟨_, _, hkeeps, -⟩ | ⟨hnone, -⟩
    · rw [hkeeps] at hmem
      obtain rfl := Option.some.inj hmem
      exact h before hcurrent
    · rw [hnone] at hmem
      cases hmem

/-! ### Once a start has been seen -/

/-- The native execution and the current intent belong to the run. -/
structure Running (run : String) (a : ExecutionAdmission) : Prop where
  native : a.nativeUnsettled = true → a.nativeRun = some run
  current : ∀ intent ∈ a.current, intent.run = some run

lemma Running.of_start (h : a.OnlyPublished id) (hstart : IsStart frame)
    (hrun : runOf frame = some run) : (a.observe frame).Running run := by
  rw [observe_start hstart, hrun]
  refine ⟨fun _ => rfl, fun intent hmem => ?_⟩
  obtain ⟨before, hbefore, rfl⟩ := Option.map_eq_some_iff.mp hmem
  rw [if_pos (h before hbefore).2]

lemma Running.observe (h : a.Running run) (hstart : ¬IsStart frame) :
    (a.observe frame).Running run := by
  rcases observe_cases (a := a) hstart with heq | ⟨-, heq⟩ | heq
  · rw [heq]
    rcases response_cases a frame with ⟨hnone, hunsettled, hnative⟩ | ⟨intent, hmem, heq⟩ | heq
    · refine ⟨?_, by simp [hnone]⟩
      rw [hunsettled, hnative]
      exact h.native
    · rw [heq]
      refine ⟨fun _ => h.current intent hmem, fun after hafter => ?_⟩
      obtain rfl := Option.some.inj hafter
      exact h.current intent hmem
    · rw [heq]
      exact h
  · rw [heq]
    refine ⟨fun hunsettled => ?_, fun intent hmem => ?_⟩
    · rw [nativeUnsettled_agentSettled, Bool.and_eq_true, Bool.not_eq_true'] at hunsettled
      rw [nativeRun_agentSettled, hunsettled.2]
      exact h.native hunsettled.1
    · rw [current_agentSettled] at hmem
      exact h.current intent (Option.mem_filter_iff.mp hmem).1
  · rw [heq]
    exact h

/-- The settlement of another run settles nothing. -/
lemma Running.unsettled_of_ne (h : a.Running run) {event : Option String} (hne : event ≠ some run)
    (hunsettled : a.unsettled = true) : (a.agentSettled event).unsettled = true := by
  have hother : matchesRun (some run) event = false := by
    simpa [matchesRun] using hne
  rw [unsettled, Bool.or_eq_true] at hunsettled ⊢
  rcases hunsettled with hcurrent | hnative
  · left
    obtain ⟨intent, hmem⟩ := Option.isSome_iff_exists.mp hcurrent
    rw [current_agentSettled, hmem, Option.filter_some, h.current intent hmem, hother]
    simp
  · right
    rw [nativeUnsettled_agentSettled, h.native hnative, hnative, hother]
    rfl

/-! ### Once the request has been accepted -/

/-- What is current has been accepted. -/
def OnlyAccepted (a : ExecutionAdmission) : Prop :=
  ∀ intent ∈ a.current, intent.accepted = true

lemma OnlyAccepted.of_accepts (h : a.OnlyPublished id) (haccepts : Accepts id frame) :
    (a.observe frame).OnlyAccepted := by
  intro intent hmem
  rcases hcurrent : a.current with _ | before
  · rw [observe_none hcurrent] at hmem
    cases hmem
  · rcases observe_current hcurrent frame with ⟨_, _, hkeeps, hiff⟩ | ⟨hnone, -⟩
    · rw [hkeeps] at hmem
      obtain rfl := Option.some.inj hmem
      refine hiff.mpr (.inr ?_)
      rw [Intent.Accepts, (h before hcurrent).1]
      exact haccepts
    · rw [hnone] at hmem
      cases hmem

lemma OnlyAccepted.observe (h : a.OnlyAccepted) (frame : Value) :
    (a.observe frame).OnlyAccepted := by
  intro intent hmem
  rcases hcurrent : a.current with _ | before
  · rw [observe_none hcurrent] at hmem
    cases hmem
  · rcases observe_current hcurrent frame with ⟨_, _, hkeeps, hiff⟩ | ⟨hnone, -⟩
    · rw [hkeeps] at hmem
      obtain rfl := Option.some.inj hmem
      exact hiff.mpr (.inl (h before hcurrent))
    · rw [hnone] at hmem
      cases hmem

/-- The settlement of the run settles what has been accepted. -/
lemma Running.settled (h : a.Running run) (haccepted : a.OnlyAccepted) :
    (a.agentSettled (some run)).unsettled = false := by
  have hself : matchesRun (some run) (some run) = true := by simp [matchesRun]
  rw [unsettled_eq_false]
  constructor
  · rw [current_agentSettled, Option.filter_eq_none_iff]
    intro intent hmem
    rw [haccepted intent hmem, h.current intent hmem, hself]
    decide
  · rw [nativeUnsettled_agentSettled, Bool.and_eq_false_iff, Bool.not_eq_false']
    by_cases hnative : a.nativeUnsettled = true
    · exact .inr (by rw [h.native hnative, hself])
    · exact .inl (by simpa using hnative)

/-! ### As long as no start has been seen -/

/-- Neither the native execution nor the current intent, which has been accepted, has a run. -/
structure Unattributed (a : ExecutionAdmission) : Prop where
  native : a.nativeRun = none
  current : ∀ intent ∈ a.current, intent.run = none
  accepted : a.OnlyAccepted

lemma Unattributed.observe (h : a.Unattributed) (hstart : ¬IsStart frame) :
    (a.observe frame).Unattributed := by
  refine ⟨?_, ?_, h.accepted.observe frame⟩
  all_goals
    rcases observe_cases (a := a) hstart with heq | ⟨-, heq⟩ | heq
  · rw [heq]
    rcases response_cases a frame with ⟨-, -, hnative⟩ | ⟨intent, hmem, heq⟩ | heq
    · rw [hnative, h.native]
    · rw [heq]
      exact h.current intent hmem
    · rw [heq, h.native]
  · rw [heq, nativeRun_agentSettled, h.native, ite_self]
  · rw [heq, h.native]
  · rw [heq]
    rcases response_cases a frame with ⟨hnone, -, -⟩ | ⟨intent, hmem, heq⟩ | heq
    · simp [hnone]
    · rw [heq]
      intro after hafter
      obtain rfl := Option.some.inj hafter
      exact h.current intent hmem
    · rw [heq]
      exact h.current
  · intro intent hmem
    rw [heq, current_agentSettled] at hmem
    exact h.current intent (Option.mem_filter_iff.mp hmem).1
  · rw [heq]
    exact h.current

/-- Any settlement settles an accepted execution that has no run. -/
lemma Unattributed.settled (h : a.Unattributed) (event : Option String) :
    (a.agentSettled event).unsettled = false := by
  rw [unsettled_eq_false]
  constructor
  · rw [current_agentSettled, Option.filter_eq_none_iff]
    intro intent hmem
    rw [h.accepted intent hmem, h.current intent hmem]
    simp [matchesRun]
  · rw [nativeUnsettled_agentSettled, h.native]
    simp [matchesRun]

/-- The request waits for its answer, and no start has been seen. -/
def Unstarted (id : String) (a : ExecutionAdmission) : Prop :=
  ∃ intent, a.current = some intent ∧ intent.id = id ∧ intent.accepted = false ∧ intent.run = none

lemma Unstarted.of_accepts (h : a.Unstarted id) (haccepts : Accepts id frame) :
    (a.observe frame).Unattributed := by
  obtain ⟨intent, hcurrent, hid, -, hrun⟩ := h
  obtain ⟨htype, hframe, hsuccess, hdata⟩ := haccepts
  have heq : a.observe frame = ⟨some { intent with accepted := true }, true, intent.run⟩ := by
    unfold observe
    rw [htype]
    show a.response frame = _
    unfold response
    simp only [hcurrent]
    rw [if_neg (by simp [hframe, hid]), if_neg (by simp [hsuccess]), if_pos ⟨hsuccess, hdata⟩]
  rw [heq]
  refine ⟨hrun, fun after hafter => ?_, fun after hafter => ?_⟩
  · obtain rfl := Option.some.inj hafter
    exact hrun
  · obtain rfl := Option.some.inj hafter
    rfl

/-- Only its answer ends the wait of a request. -/
lemma Unstarted.observe (h : a.Unstarted id) (hstart : ¬IsStart frame) (hrefuses : ¬Refuses id frame)
    (haccepts : ¬Accepts id frame) : (a.observe frame).Unstarted id := by
  obtain ⟨intent, hcurrent, hid, haccepted, hrun⟩ := h
  have hkept : ∃ accepted run, (a.observe frame).current = some { intent with accepted, run } ∧
      accepted = false := by
    rcases observe_current hcurrent frame with ⟨accepted, run, hkeeps, hiff⟩ | ⟨-, hlost⟩
    · refine ⟨accepted, run, hkeeps, ?_⟩
      rw [← Bool.not_eq_true, hiff, haccepted, Intent.Accepts, hid]
      rintro (h | h)
      · cases h
      · exact haccepts h
    · rcases hlost with hrejects | hsettles
      · exact absurd ⟨hrejects.1, hid ▸ hrejects.2.1, hrejects.2.2.1⟩ hrefuses
      · rw [hsettles.2.1] at haccepted
        cases haccepted
  obtain ⟨accepted, run, hkeeps, rfl⟩ := hkept
  refine ⟨_, hkeeps, hid, rfl, ?_⟩
  show run = none
  rcases observe_cases (a := a) hstart with heq | ⟨-, heq⟩ | heq
  · rw [heq] at hkeeps
    rcases response_cases a frame with ⟨hnone, -, -⟩ | ⟨before, hbefore, heq⟩ | heq
    · rw [hnone] at hkeeps
      cases hkeeps
    · rw [heq] at hkeeps
      cases congrArg Intent.accepted (Option.some.inj hkeeps)
    · rw [heq, hcurrent] at hkeeps
      obtain rfl := congrArg Intent.run (Option.some.inj hkeeps)
      exact hrun
  · rw [heq, current_agentSettled, hcurrent] at hkeeps
    have hmem := Option.mem_filter_iff.mp (Option.mem_def.mpr hkeeps)
    obtain rfl := congrArg Intent.run (Option.some.inj hmem.1)
    exact hrun
  · rw [heq, hcurrent] at hkeeps
    obtain rfl := congrArg Intent.run (Option.some.inj hkeeps)
    exact hrun

/-! ### From the registration to the publication -/

/-- What is current is the intent of the request, before its publication. -/
def Queued (id : String) (a : ExecutionAdmission) : Prop :=
  ∀ intent ∈ a.current, intent.id = id ∧ intent.published = false ∧ intent.run = none

lemma Queued.observe (h : a.Queued id) (frame : Value) : (a.observe frame).Queued id := by
  by_cases hstart : IsStart frame
  · rw [observe_start hstart]
    intro intent hmem
    obtain ⟨before, hbefore, rfl⟩ := Option.map_eq_some_iff.mp hmem
    rw [if_neg (by simp [(h before hbefore).2.1])]
    exact h before hbefore
  rcases observe_cases (a := a) hstart with heq | ⟨-, heq⟩ | heq
  · rw [heq]
    rcases response_cases a frame with ⟨hnone, -, -⟩ | ⟨intent, hmem, heq⟩ | heq
    · simp [Queued, hnone]
    · rw [heq]
      intro after hafter
      obtain rfl := Option.some.inj hafter
      exact h intent hmem
    · rw [heq]
      exact h
  · rw [heq]
    intro intent hmem
    rw [current_agentSettled] at hmem
    exact h intent (Option.mem_filter_iff.mp hmem).1
  · rw [heq]
    exact h

/-- What is current has not been accepted. -/
def NotAccepted (a : ExecutionAdmission) : Prop :=
  ∀ intent ∈ a.current, intent.accepted = false

lemma NotAccepted.observe (h : a.NotAccepted) (hqueued : a.Queued id)
    (haccepts : ¬Accepts id frame) : (a.observe frame).NotAccepted := by
  intro intent hmem
  rcases hcurrent : a.current with _ | before
  · rw [observe_none hcurrent] at hmem
    cases hmem
  · rcases observe_current hcurrent frame with ⟨accepted, _, hkeeps, hiff⟩ | ⟨hnone, -⟩
    · rw [hkeeps] at hmem
      obtain rfl := Option.some.inj hmem
      show accepted = false
      rw [← Bool.not_eq_true, hiff, h before hcurrent, Intent.Accepts, (hqueued before hcurrent).1]
      rintro (h | h)
      · cases h
      · exact haccepts h
    · rw [hnone] at hmem
      cases hmem

lemma queued_of_register {token : Nat} {prompt : Value} {ticket : ExecutionTicket}
    {a' : ExecutionAdmission} (h : a.register token prompt = .ok (some (ticket, a')))
    (hid : (prompt.index "id").asStr = some id) : a'.Queued id ∧ a'.NotAccepted := by
  unfold register at h
  split at h
  · simp only [bind_eq_ok, failIf_eq_ok, pure_eq_ok, hid] at h
    obtain ⟨id', hid', -, -, h⟩ := h
    obtain rfl := Except.ok.inj hid'
    obtain ⟨-, rfl⟩ := Prod.mk.inj (Option.some.inj (Except.ok.inj h))
    constructor
    · intro intent hmem
      obtain rfl := Option.some.inj hmem
      exact ⟨rfl, rfl, rfl⟩
    · intro intent hmem
      obtain rfl := Option.some.inj hmem
      rfl
  · cases h

lemma published_eq {token : Nat} {a' : ExecutionAdmission} (h : a.published token = (true, a')) :
    ∃ intent, a.current = some intent ∧
      a' = { a with current := some { intent with published := true } } := by
  unfold published at h
  split at h
  · rename_i intent hcurrent
    split at h
    · exact ⟨intent, hcurrent, (Prod.mk.inj h).2.symm⟩
    · cases h
  · cases h

/-! ### Runs -/

section

variable {a₁ a₂ : ExecutionAdmission} {token : Nat} {prompt : Value} {ticket : ExecutionTicket}
  {earlier frames : List Value}

lemma after_running (h : a.OnlyPublished id) (hrun : LatestRun run frames) :
    (Run.after observe a frames).Running run := by
  obtain ⟨before, start, later, rfl, hstart, hof, hlater⟩ := hrun
  rw [Run.after_append, Run.after_cons]
  have hbefore : (Run.after observe a before).OnlyPublished id :=
    Run.invariant (P := OnlyPublished id) (fun _ frame h => h.observe frame) h before
  generalize Run.after observe a before = b at hbefore
  have hb := Running.of_start hbefore hstart hof
  generalize b.observe start = b at hb
  clear hstart hof hbefore
  induction later generalizing b with
  | nil => exact hb
  | cons frame later ih =>
    exact ih (fun f hf => hlater f (List.mem_cons_of_mem _ hf)) _
      (hb.observe (hlater frame List.mem_cons_self))

lemma after_onlyAccepted (h : a.OnlyPublished id) (haccepts : ∃ frame ∈ frames, Accepts id frame) :
    (Run.after observe a frames).OnlyAccepted := by
  obtain ⟨frame, hmem, hframe⟩ := haccepts
  obtain ⟨before, later, rfl⟩ := List.append_of_mem hmem
  rw [Run.after_append, Run.after_cons]
  have hbefore : (Run.after observe a before).OnlyPublished id :=
    Run.invariant (P := OnlyPublished id) (fun _ frame h => h.observe frame) h before
  exact Run.invariant (P := OnlyAccepted) (fun _ frame h => h.observe frame)
    (OnlyAccepted.of_accepts hbefore hframe) later

lemma after_unattributed (h : a.Unattributed) (hstarts : ∀ frame ∈ frames, ¬IsStart frame) :
    (Run.after observe a frames).Unattributed := by
  induction frames generalizing a with
  | nil => exact h
  | cons frame frames ih =>
    exact ih (h.observe (hstarts frame List.mem_cons_self))
      fun f hf => hstarts f (List.mem_cons_of_mem _ hf)

/-- Frames without a start accept the request at last, or leave it as it is. -/
lemma after_unstarted (h : a.Unstarted id) (hstarts : ∀ frame ∈ frames, ¬IsStart frame)
    (hrefuses : ∀ frame ∈ frames, ¬Refuses id frame) :
    (Run.after observe a frames).Unstarted id ∧ (∀ frame ∈ frames, ¬Accepts id frame) ∨
      (∃ frame ∈ frames, Accepts id frame) ∧ (Run.after observe a frames).Unattributed := by
  induction frames generalizing a with
  | nil => exact .inl ⟨h, by simp⟩
  | cons frame frames ih =>
    have hstarts' := fun f hf => hstarts f (List.mem_cons_of_mem frame hf)
    have hrefuses' := fun f hf => hrefuses f (List.mem_cons_of_mem frame hf)
    by_cases haccepts : Accepts id frame
    · refine .inr ⟨⟨frame, List.mem_cons_self, haccepts⟩, ?_⟩
      rw [Run.after_cons]
      exact after_unattributed (h.of_accepts haccepts) hstarts'
    · rcases ih (h.observe (hstarts frame List.mem_cons_self) (hrefuses frame List.mem_cons_self)
        haccepts) hstarts' hrefuses' with ⟨hunstarted, hnone⟩ | ⟨⟨f, hf, hsome⟩, hunattributed⟩
      · exact .inl ⟨hunstarted, List.forall_mem_cons.mpr ⟨haccepts, hnone⟩⟩
      · exact .inr ⟨⟨f, List.mem_cons_of_mem _ hf, hsome⟩, hunattributed⟩

/-- What is current at the publication is the published intent of the request, which no start has
reached; it waits for its answer unless the answer has come too early. -/
lemma published_spec (hid : (prompt.index "id").asStr = some id)
    (hregister : a.register token prompt = .ok (some (ticket, a₁)))
    (hpublished : (Run.after observe a₁ earlier).published token = (true, a₂)) :
    a₂.OnlyPublished id ∧ ((∀ frame ∈ earlier, ¬Accepts id frame) → a₂.Unstarted id) := by
  obtain ⟨hqueued, hnot⟩ := queued_of_register hregister hid
  have hlater : (Run.after observe a₁ earlier).Queued id :=
    Run.invariant (P := Queued id) (fun _ frame h => h.observe frame) hqueued earlier
  obtain ⟨intent, hcurrent, rfl⟩ := published_eq hpublished
  obtain ⟨hintent, -, hrun⟩ := hlater intent hcurrent
  constructor
  · intro after hafter
    obtain rfl := Option.some.inj hafter
    exact ⟨hintent, rfl⟩
  · intro hnone
    refine ⟨_, rfl, hintent, ?_, hrun⟩
    have hwaits : (Run.after observe a₁ earlier).NotAccepted := by
      clear hregister hpublished hcurrent hlater hrun hintent
      induction earlier generalizing a₁ with
      | nil => exact hnot
      | cons frame earlier ih =>
        exact ih (hqueued.observe frame) (hnot.observe hqueued (hnone frame List.mem_cons_self))
          fun f hf => hnone f (List.mem_cons_of_mem _ hf)
    exact hwaits intent hcurrent

/-- Once a start has been seen after the publication, an accepted execution is settled by the newest
started run and by no other; as long as none has been seen, any settlement settles it. -/
theorem settlement_after_publication (hid : (prompt.index "id").asStr = some id)
    (hregister : a.register token prompt = .ok (some (ticket, a₁)))
    (hpublished : (Run.after observe a₁ earlier).published token = (true, a₂))
    (frames : List Value) {settled : Value} (hsettled : IsSettlement settled) :
    ((∃ frame ∈ frames, Accepts id frame) → ∀ run, LatestRun run frames →
      (runOf settled ≠ some run → (Run.after observe a₂ frames).unsettled = true →
        (Run.after observe a₂ (frames ++ [settled])).unsettled = true) ∧
      (runOf settled = some run →
        (Run.after observe a₂ (frames ++ [settled])).unsettled = false)) ∧
    ((∀ frame ∈ earlier, ¬Accepts id frame) → (∀ frame ∈ frames, ¬IsStart frame) →
      (Accepted id frames →
        (Run.after observe a₂ (frames ++ [settled])).unsettled = false) ∧
      ((∀ frame ∈ frames, ¬Accepts id frame ∧ ¬Refuses id frame) →
        (Run.after observe a₂ (frames ++ [settled])).unsettled = true)) := by
  obtain ⟨honly, hunstarted⟩ := published_spec hid hregister hpublished
  rw [Run.after_append, Run.after_cons, Run.after_nil, observe_settlement hsettled]
  constructor
  · intro haccepts run hlatest
    have hrunning := after_running honly hlatest
    refine ⟨fun hne hunsettled => hrunning.unsettled_of_ne hne hunsettled, fun heq => ?_⟩
    rw [heq]
    exact hrunning.settled (after_onlyAccepted honly haccepts)
  · intro hearlier hstarts
    constructor
    · rintro ⟨before, frame, later, rfl, haccepts, hrefuses⟩
      simp only [List.mem_append, List.mem_cons] at hstarts
      have hbefore := after_unstarted (hunstarted hearlier)
        (fun f hf => hstarts f (.inl hf)) hrefuses
      rw [Run.after_append, Run.after_cons]
      have hframe : ((Run.after observe a₂ before).observe frame).Unattributed := by
        rcases hbefore with ⟨hwaits, -⟩ | ⟨-, hunattributed⟩
        · exact hwaits.of_accepts haccepts
        · exact hunattributed.observe (hstarts frame (.inr (.inl rfl)))
      exact (after_unattributed hframe fun f hf => hstarts f (.inr (.inr hf))).settled _
    · intro hnone
      rcases after_unstarted (hunstarted hearlier) hstarts (fun f hf => (hnone f hf).2) with
        ⟨hwaits, -⟩ | ⟨⟨f, hf, haccepts⟩, -⟩
      · obtain ⟨intent, hcurrent, -, hnot, -⟩ := hwaits
        rw [unsettled, current_agentSettled, hcurrent, Option.filter_some, hnot]
        rfl
      · exact absurd haccepts (hnone f hf).1

/-! ### An execution that is settled by an earlier run -/

def promptCommand : Value := .object [("type", .string "prompt"), ("id", .string "p")]

def acceptance : Value := .object [("type", .string "response"), ("id", .string "p"),
  ("success", .bool true), ("data", .object [("accepted", .bool true)])]

def startOf (run : String) : Value :=
  .object [("type", .string "agent_start"), ("runId", .string run)]

def settlementOf (run : String) : Value :=
  .object [("type", .string "agent_settled"), ("runId", .string run)]

/-- The prompt is registered; a native run starts; the prompt is published. -/
def publishedPrompt : ExecutionAdmission where
  current := some ⟨"p", 0, true, false, none⟩
  nativeUnsettled := true
  nativeRun := some "old"

theorem settlement_of_started_prompt :
    (Run.after observe publishedPrompt [acceptance, startOf "new", settlementOf "old"]).unsettled
        = true ∧
      (Run.after observe publishedPrompt [acceptance, startOf "new", settlementOf "new"]).unsettled
        = false := by
  have hregister : ∃ ticket a₁, ExecutionAdmission.default.register 0 promptCommand =
      .ok (some (ticket, a₁)) ∧
      (Run.after observe a₁ [startOf "old"]).published 0 = (true, publishedPrompt) :=
    ⟨_, _, rfl, rfl⟩
  obtain ⟨ticket, a₁, hregister, hpublished⟩ := hregister
  have hlatest : LatestRun "new" [acceptance, startOf "new"] :=
    ⟨[acceptance], startOf "new", [], rfl, by decide +kernel, by decide +kernel, by simp⟩
  have haccepts : ∃ frame ∈ [acceptance, startOf "new"], Accepts "p" frame :=
    ⟨acceptance, by simp, by decide +kernel⟩
  constructor
  · exact ((settlement_after_publication (by decide +kernel) hregister hpublished
      [acceptance, startOf "new"] (by decide +kernel)).1 haccepts "new" hlatest).1
        (by decide +kernel) (by decide +kernel)
  · exact ((settlement_after_publication (by decide +kernel) hregister hpublished
      [acceptance, startOf "new"] (by decide +kernel)).1 haccepts "new" hlatest).2
        (by decide +kernel)

/-- The prompt has been accepted and its run has not started when the earlier run settles. -/
theorem exists_settled_by_earlier_run : ∃ ticket a₁ a₂,
    ExecutionAdmission.default.register 0 promptCommand = .ok (some (ticket, a₁)) ∧
      (Run.after observe a₁ [startOf "old"]).published 0 = (true, a₂) ∧
      Accepted "p" [acceptance] ∧ (Run.after observe a₂ [acceptance]).unsettled = true ∧
      (Run.after observe a₂ [acceptance, settlementOf "old"]).unsettled = false := by
  refine ⟨_, _, publishedPrompt, rfl, rfl, ?_, by decide +kernel, by decide +kernel⟩
  exact ⟨[], acceptance, [], rfl, by decide +kernel, by simp⟩

end

end ExecutionAdmission

end Host
