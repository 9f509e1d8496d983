import RpiPackage.Antigravity.Driver

/-!
# The terminal event

A message that the host cannot decode is told to it once more when its failure is reported, and is
refused again, so that the stream ends without a terminal event.
-/

namespace Antigravity

open Json

def Event.message : Event → Output
  | .start o | .textStart _ o | .textDelta _ _ o | .textEnd _ _ o | .thinkingStart _ o
  | .thinkingDelta _ _ o | .thinkingEnd _ _ o | .toolcallStart _ o | .toolcallEnd _ _ o
  | .done _ o | .error _ o => o

def Event.call : Event → Option ToolCall
  | .toolcallEnd _ call _ => some call
  | _ => none

def Event.isTerminal : Event → Bool
  | .done _ _ | .error _ _ => true
  | _ => false

/-- What is told in the course of a message: the message of the moment, and a call in it. -/
structure Told.Honest (t : Told) : Prop where
  message : t.event.message = t.state.output
  call : ∀ call, t.event.call = some call → Block.toolCall call ∈ t.state.output.content
  terminal : t.event.isTerminal = false

def Honest (told : List Told) : Prop := ∀ t ∈ told, t.Honest

namespace State

variable {s : State} {nextId : Nat → String} {p : Value}

lemma honest_nil : Honest [] := by
  intro t ht
  cases ht

lemma honest_append {told told' : List Told} (h : Honest told) (h' : Honest told') :
    Honest (told ++ told') := by
  intro t ht
  rcases List.mem_append.mp ht with ht | ht
  · exact h t ht
  · exact h' t ht

lemma honest_tell {event : Event} (hmessage : event.message = s.output)
    (hcall : event.call = none) (hterminal : event.isTerminal = false) :
    Honest (s.tell event).1 := by
  intro t ht
  obtain rfl := List.mem_singleton.mp ht
  refine ⟨hmessage, ?_, hterminal⟩
  intro call hsome
  rw [hcall] at hsome
  cases hsome

lemma honest_andThen {spoken : Spoken} {f : State → Spoken} (h : Honest spoken.1)
    (hnext : ∀ s, Honest (f s).1) : Honest (spoken.andThen f).1 :=
  honest_append h (hnext spoken.2)

lemma closeText_honest (s : State) : Honest s.closeText.1 := by
  unfold closeText
  split
  · exact honest_tell rfl rfl rfl
  · exact honest_nil

lemma closeThinking_honest (s : State) : Honest s.closeThinking.1 := by
  unfold closeThinking
  split
  · exact honest_tell rfl rfl rfl
  · exact honest_nil

lemma openText_honest (s : State) : Honest (s.openText p).1 := by
  unfold openText
  split
  · exact honest_nil
  · exact honest_tell rfl rfl rfl

lemma openThinking_honest (s : State) : Honest (s.openThinking p).1 := by
  unfold openThinking
  split
  · exact honest_nil
  · exact honest_tell rfl rfl rfl

lemma addText_honest {text : String} (s : State) : Honest (s.addText p text).1 := by
  unfold addText
  split
  · exact honest_nil
  · exact honest_tell rfl rfl rfl

lemma addThinking_honest {text : String} (s : State) : Honest (s.addThinking p text).1 := by
  unfold addThinking
  split
  · exact honest_nil
  · exact honest_tell rfl rfl rfl

lemma callTool_honest {tool : ToolCall} (s : State) : Honest (s.callTool tool).1 := by
  unfold callTool
  dsimp only
  refine honest_append (honest_tell rfl rfl rfl) ?_
  intro t ht
  obtain rfl := List.mem_singleton.mp ht
  refine ⟨rfl, ?_, rfl⟩
  intro call hcall
  obtain rfl := Option.some.inj hcall
  simp [tell, setContent]

lemma part_honest (s : State) : Honest (s.part nextId p).1 := by
  unfold part
  split
  · exact honest_nil
  · dsimp only
    split
    · exact honest_andThen (honest_andThen (closeText_honest _) closeThinking_honest)
        callTool_honest
    · split
      · exact honest_nil
      · split
        · exact honest_andThen (honest_andThen (closeText_honest _) openThinking_honest)
            addThinking_honest
        · exact honest_andThen (honest_andThen (closeThinking_honest _) openText_honest)
            addText_honest

lemma parts_honest (s : State) (ps : List Value) : Honest (s.parts nextId ps).told := by
  induction ps generalizing s with
  | nil => exact honest_nil
  | cons p ps ih =>
    unfold parts
    split
    · exact honest_nil
    · exact honest_append (part_honest s) (ih _)

lemma chunk_honest (F : Type) [Doubles F] (s : State) (c : Value) :
    Honest (s.chunk F nextId c).told := by
  have hchunked := chunk_chunked F nextId s c
  generalize s.chunk F nextId c = told at hchunked ⊢
  cases hchunked with
  | failed | counted => exact honest_nil
  | read =>
    unfold afterParts
    split
    · exact parts_honest _ _
    · split
      · exact honest_append (parts_honest _ _)
          (honest_andThen (closeText_honest _) closeThinking_honest)
      · exact parts_honest _ _

end State

/-! ### The emitter -/

section

variable {M C : Type} {host : Host M C} {emitter : Emitter M C} {t : Told} {told : List Told}

/-- Some events that are not terminal have been pushed. -/
def Emitter.Goes (emitter emitter' : Emitter M C) : Prop :=
  ∃ events, emitter' = { emitter with pushed := emitter.pushed ++ events } ∧
    ∀ event ∈ events, event.isTerminal = false

lemma Emitter.Goes.refl (emitter : Emitter M C) : emitter.Goes emitter :=
  ⟨[], by simp, by simp⟩

lemma Emitter.Goes.closesAfter {emitter' : Emitter M C} (h : emitter.Goes emitter') :
    emitter'.closesAfter = emitter.closesAfter := by
  obtain ⟨events, rfl, -⟩ := h
  rfl

lemma Emitter.Goes.trans {emitter' emitter'' : Emitter M C} (h : emitter.Goes emitter')
    (h' : emitter'.Goes emitter'') : emitter.Goes emitter'' := by
  obtain ⟨events, rfl, hevents⟩ := h
  obtain ⟨events', rfl, hevents'⟩ := h'
  refine ⟨events ++ events', by simp, ?_⟩
  intro event hevent
  rcases List.mem_append.mp hevent with hevent | hevent
  · exact hevents event hevent
  · exact hevents' event hevent

lemma messageOf_typed (h : host.Decodes) {o : Output} (htyped : o.typed = true) :
    ∃ m, messageOf host o = .ok (m, o.stopReason) := by
  have hok := h.message { o with stopReason := .stop }
  rw [show Output.typed { o with stopReason := .stop } = o.typed from rfl, htyped] at hok
  unfold messageOf
  cases hmessage : host.message { o with stopReason := .stop } with
  | ok m => exact ⟨m, rfl⟩
  | error error => rw [hmessage] at hok; cases hok

lemma messageOf_illTyped (h : host.Decodes) {o : Output} (htyped : o.typed = false) :
    ∃ error, messageOf host o = .error error := by
  have hok := h.message { o with stopReason := .stop }
  rw [show Output.typed { o with stopReason := .stop } = o.typed from rfl, htyped] at hok
  unfold messageOf
  cases hmessage : host.message { o with stopReason := .stop } with
  | ok m => rw [hmessage] at hok; cases hok
  | error error => exact ⟨_, rfl⟩

/-- An event whose message cannot be decoded is refused. -/
lemma emit_illTyped (h : host.Decodes) {event : Event} (htyped : event.message.typed = false) :
    ∃ error, emitter.emit host event = (.error error, emitter) := by
  obtain ⟨error, hmessage⟩ := messageOf_illTyped h htyped
  have hevent : ∃ error, toEvent host event = .error error := by
    cases event with
    | toolcallEnd index call o =>
      unfold toEvent
      dsimp only
      split
      · exact ⟨_, rfl⟩
      · rw [show messageOf host o = .error error from hmessage]
        exact ⟨_, rfl⟩
    | done reason o =>
      unfold toEvent
      dsimp only
      rw [show messageOf host o = .error error from hmessage]
      exact ⟨_, rfl⟩
    | start | textStart | textDelta | textEnd | thinkingStart | thinkingDelta | thinkingEnd
    | toolcallStart | error =>
      simp only [Event.message] at hmessage
      unfold toEvent
      dsimp only
      rw [hmessage]
      exact ⟨_, rfl⟩
  obtain ⟨error', hevent⟩ := hevent
  refine ⟨error', ?_⟩
  unfold Emitter.emit
  rw [hevent]

/-- An event whose message can be decoded is pushed. -/
lemma emit_typed (h : host.Decodes) (hopen : emitter.closesAfter = none) {event : Event}
    (htyped : event.message.typed = true) (hcall : ∀ call, event.call = some call → call.typed = true)
    (hreason : ∀ reason o, event = .done reason o → o.stopReason ≠ .error ∧ o.stopReason ≠ .aborted) :
    ∃ mapped, emitter.emit host event =
      (.ok (), { emitter with pushed := emitter.pushed ++ [mapped] }) ∧
        mapped.isTerminal = event.isTerminal := by
  obtain ⟨m, hmessage⟩ := messageOf_typed h htyped
  have hevent : ∃ mapped, toEvent host event = .ok mapped ∧ mapped.isTerminal = event.isTerminal := by
    cases event with
    | toolcallEnd index call o =>
      have hok := h.toolCall call
      rw [hcall call rfl] at hok
      unfold toEvent
      dsimp only
      split
      · rename_i hfailed
        rw [hfailed] at hok
        cases hok
      · rw [show messageOf host o = .ok _ from hmessage]
        exact ⟨_, rfl, rfl⟩
    | done reason o =>
      unfold toEvent
      dsimp only
      simp only [Event.message] at hmessage
      rw [hmessage]
      dsimp only
      rw [if_neg (not_or.mpr (hreason reason o rfl))]
      exact ⟨_, rfl, rfl⟩
    | start | textStart | textDelta | textEnd | thinkingStart | thinkingDelta | thinkingEnd
    | toolcallStart | error =>
      simp only [Event.message] at hmessage
      unfold toEvent
      dsimp only
      rw [hmessage]
      exact ⟨_, rfl, rfl⟩
  obtain ⟨mapped, hmapped, hterminal⟩ := hevent
  refine ⟨mapped, ?_, hterminal⟩
  unfold Emitter.emit Emitter.push
  rw [hmapped, hopen]
  rfl

lemma Told.Honest.emit (ht : t.Honest) (h : host.Decodes) (hopen : emitter.closesAfter = none) :
    (t.state.output.typed = true ∧ ∃ mapped, emitter.emit host t.event =
        (.ok (), { emitter with pushed := emitter.pushed ++ [mapped] }) ∧
        mapped.isTerminal = false) ∨
      (t.state.output.typed = false ∧
        ∃ error, emitter.emit host t.event = (.error error, emitter)) := by
  cases htyped : t.state.output.typed with
  | false =>
    exact .inr ⟨rfl, emit_illTyped h (by rw [ht.message, htyped])⟩
  | true =>
    refine .inl ⟨rfl, ?_⟩
    rw [← ht.terminal]
    refine emit_typed h hopen (by rw [ht.message, htyped]) ?_ ?_
    · intro call hcall
      have hcontent : t.state.output.content.all Block.typed = true := by
        simp only [Output.typed, Bool.and_eq_true] at htyped
        exact htyped.1.2
      exact List.all_eq_true.mp hcontent _ (ht.call call hcall)
    · intro reason o hdone
      have hterminal := ht.terminal
      rw [hdone] at hterminal
      cases hterminal

/-- Every message that is told can be decoded. -/
def tellsTyped (told : List Told) : Bool := told.all fun t => t.state.output.typed

/-- What is told is pushed, up to a message that cannot be decoded. -/
lemma send_honest (h : host.Decodes) (hopen : emitter.closesAfter = none) (htold : Honest told) :
    ∃ refused emitter', emitter.send host told = (refused, emitter') ∧ emitter.Goes emitter' ∧
      (tellsTyped told = true → refused = none) ∧
      (tellsTyped told = false → ∃ r, refused = some r ∧ r.2.output.typed = false) := by
  induction told generalizing emitter with
  | nil =>
    refine ⟨none, emitter, rfl, .refl emitter, fun _ => rfl, ?_⟩
    intro hfalse
    cases hfalse
  | cons t told ih =>
    unfold Emitter.send tellsTyped
    rw [List.all_cons]
    rcases (htold t List.mem_cons_self).emit h hopen with
      ⟨htyped, mapped, hemit, hterminal⟩ | ⟨htyped, error, hemit⟩
    · have hpushed : emitter.Goes { emitter with pushed := emitter.pushed ++ [mapped] } := by
        refine ⟨[mapped], rfl, ?_⟩
        intro event hevent
        obtain rfl := List.mem_singleton.mp hevent
        exact hterminal
      have hopen' :
          ({ emitter with pushed := emitter.pushed ++ [mapped] } : Emitter M C).closesAfter = none :=
        hopen
      obtain ⟨refused, emitter', hsend, hgoes, hall, hnot⟩ :=
        ih hopen' fun t ht => htold t (List.mem_cons_of_mem _ ht)
      rw [hemit, htyped, Bool.true_and]
      exact ⟨refused, emitter', hsend, hpushed.trans hgoes, hall, hnot⟩
    · rw [hemit, htyped, Bool.false_and]
      refine ⟨some (error, t.state), emitter, rfl, .refl emitter, ?_, fun _ => ⟨_, rfl, htyped⟩⟩
      intro hfalse
      cases hfalse

end

/-! ### Runs -/

namespace Request

variable {M C : Type} {F : Type} [Doubles F] {host : Host M C} {emitter : Emitter M C}
  {req : Request} {s : State}

/-- Whenever something is told, and at the end, the message can be decoded; and no count has lost
its value. -/
def readsTyped (F : Type) [Doubles F] (req : Request) (flow : Flow) (s : State) : List Read → Bool
  | [] | .failed _ :: _ => s.output.typed
  | .late :: reads =>
    if flow = .trailingUsage then s.output.typed else readsTyped F req flow s reads
  | .chunk value :: reads =>
    let telling := s.chunk F req.nextId value
    tellsTyped telling.told &&
      match telling.result with
      | .error .panicked => false
      | .error (.failed _) => telling.state.output.typed
      | .ok flow =>
        if flow = .complete then telling.state.output.typed
        else readsTyped F req flow telling.state reads

def responseTyped (F : Type) [Doubles F] (req : Request) (s : State) : Bool :=
  match req.opened with
  | .error _ => s.output.typed
  | .ok status =>
    if 200 ≤ status ∧ status < 300 then
      match req.acceptHeaders with
      | .error _ => s.output.typed
      | .ok _ => readsTyped F req .continue s req.reads
    else s.output.typed

def keepsTypes (F : Type) [Doubles F] (req : Request) : Bool :=
  let s := State.new req.model req.timestamp
  s.output.typed && responseTyped F req s

/-- What a part of the request has pushed, and whether its message can be decoded at its end. -/
structure Goes (good : Bool) (emitter : Emitter M C) (out : Outcome M C Unit) :
    Prop where
  goes : emitter.Goes out.2
  good : good = true ↔ out.1.1 ≠ .error .panicked ∧ out.1.2.output.typed = true
  reads : out.1.1 = .ok () → ∃ r, State.Reads r out.1.2

lemma goes_end {r : Replay} (hreads : State.Reads r s) (result : Except Stop Unit)
    (hresult : result ≠ .error .panicked) (emitter : Emitter M C) :
    Goes s.output.typed emitter ((result, s), emitter) :=
  ⟨.refl emitter, ⟨fun htyped => ⟨hresult, htyped⟩, And.right⟩, fun _ => ⟨r, hreads⟩⟩

lemma readChunks_goes (h : host.Decodes) (hopen : emitter.closesAfter = none) (flow : Flow)
    {r : Replay} (hreads : State.Reads r s) (reads : List Read) :
    Goes (readsTyped F req flow s reads) emitter
      (readChunks F host req flow s emitter reads) := by
  induction reads generalizing flow s emitter r with
  | nil => exact goes_end hreads _ (by simp) emitter
  | cons read reads ih =>
    cases read with
    | failed error => exact goes_end hreads _ (by simp) emitter
    | late =>
      unfold readChunks readsTyped
      split
      · exact goes_end hreads _ (by simp) emitter
      · exact ih hopen flow hreads
    | chunk value =>
      obtain ⟨r', -, hreads'⟩ := State.chunk_reads F (c := value) hreads
      obtain ⟨refused, emitter', hsend, hgoes, hall, hnot⟩ :=
        send_honest h hopen (State.chunk_honest F s value)
      unfold readChunks readsTyped Emitter.follow
      dsimp only
      rw [hsend]
      generalize s.chunk F req.nextId value = telling at hreads' hall hnot ⊢
      cases htyped : tellsTyped telling.told with
      | false =>
        obtain ⟨⟨error, s'⟩, rfl, hs'⟩ := hnot htyped
        refine ⟨hgoes, ?_, ?_⟩
        · simp [hs']
        · intro hok
          cases hok
      | true =>
        obtain rfl := hall htyped
        rw [Bool.true_and]
        cases hresult : telling.result with
        | error stop =>
          cases stop with
          | panicked =>
            refine ⟨hgoes, by simp, ?_⟩
            intro hok
            cases hok
          | failed error =>
            refine ⟨hgoes, by simp, ?_⟩
            intro hok
            cases hok
        | ok flow =>
          dsimp only
          split
          · exact ⟨hgoes, by simp, fun _ => ⟨r', hreads'⟩⟩
          · have hlater := ih (hgoes.closesAfter.trans hopen) flow hreads'
            exact ⟨hgoes.trans hlater.goes, hlater.good, hlater.reads⟩

/-- What is expected of the events of a request: a start, and one terminal event, the last. -/
structure OneTerminal (pushed : List (AssistantMessageEvent M C)) : Prop where
  starts : ∃ message later, pushed = .start message :: later
  ends : ∃ before terminal, pushed = before ++ [terminal] ∧ terminal.isTerminal = true ∧
    ∀ event ∈ before, event.isTerminal = false

lemma readResponse_goes (h : host.Decodes) (hopen : emitter.closesAfter = none) {r : Replay}
    (hreads : State.Reads r s) :
    Goes (responseTyped F req s) emitter (readResponse F host req s emitter) := by
  unfold readResponse responseTyped
  cases req.opened with
  | error error => exact goes_end hreads _ (by simp) emitter
  | ok status =>
    dsimp only
    split
    · cases req.acceptHeaders with
      | error error => exact goes_end hreads _ (by simp) emitter
      | ok _ => exact readChunks_goes h hopen .continue hreads req.reads
    · cases req.failure with
      | error error => exact goes_end hreads _ (by simp) emitter
      | ok text => exact goes_end hreads _ (by simp) emitter

/-- The report of a failure is taken when its message can be decoded. -/
lemma emit_fail (h : host.Decodes) (hopen : emitter.closesAfter = none) (s : State)
    (error : String) (cancelled : Bool) :
    (s.output.typed = true ∧ ∃ terminal,
        (emitter.emit host (s.fail req.redact error cancelled).event).2 =
          { emitter with pushed := emitter.pushed ++ [terminal] } ∧ terminal.isTerminal = true) ∨
      (s.output.typed = false ∧
        (emitter.emit host (s.fail req.redact error cancelled).event).2 = emitter) := by
  have hsame : (s.fail req.redact error cancelled).event.message.typed = s.output.typed := rfl
  cases htyped : s.output.typed with
  | false =>
    obtain ⟨error', hemit⟩ := emit_illTyped h (hsame.trans htyped)
    exact .inr ⟨rfl, by rw [hemit]⟩
  | true =>
    obtain ⟨terminal, hemit, hterminal⟩ := emit_typed h hopen (hsame.trans htyped)
      (by intro call hcall; cases hcall) (by intro reason o hdone; cases hdone)
    exact .inl ⟨rfl, terminal, by rw [hemit], hterminal⟩

/-- A message is done in the state that it ends in, or fails there. -/
lemma finish_cases (s : State) (cancelled : Bool) :
    (∃ error, s.finish cancelled = ⟨[], s, .error (.failed error)⟩) ∨
      s.finish cancelled = ⟨[⟨.done s.output.stopReason s.output, s⟩], s, .ok ()⟩ := by
  unfold State.finish
  split
  · exact .inl ⟨_, rfl⟩
  · split
    · exact .inl ⟨_, rfl⟩
    · split
      · exact .inl ⟨_, rfl⟩
      · exact .inr rfl

/-- One more event is pushed, a terminal one. -/
def Ends (emitter emitter' : Emitter M C) : Prop :=
  ∃ between, emitter.Goes between ∧ ∃ terminal,
    emitter' = { between with pushed := between.pushed ++ [terminal] } ∧ terminal.isTerminal = true

/-- A failure is told when its message can be decoded, and is not told when it cannot. -/
lemma report_failed (h : host.Decodes) {emitter' : Emitter M C} (hgoes : emitter.Goes emitter')
    (hopen : emitter'.closesAfter = none) (s : State) (error : String) :
    (s.output.typed = true ∧
        Ends emitter (report host req ((.error (.failed error), s), emitter'))) ∨
      (s.output.typed = false ∧
        emitter.Goes (report host req ((.error (.failed error), s), emitter'))) := by
  rcases emit_fail h hopen s error req.cancelledAtFail with
    ⟨htyped, terminal, hemit, hterminal⟩ | ⟨htyped, hemit⟩
  · exact .inl ⟨htyped, emitter', hgoes, terminal, hemit, hterminal⟩
  · refine .inr ⟨htyped, ?_⟩
    unfold report
    dsimp only
    rw [hemit]
    exact hgoes

/-- What is read and does not panic can be decoded at its end, or not. -/
lemma Goes.eq_typed {good : Bool} {result : Except Stop Unit} {emitter' : Emitter M C}
    (h : Goes good emitter ((result, s), emitter')) (hresult : result ≠ .error .panicked) :
    s.output.typed = good := by
  cases hgood : good with
  | true => exact (h.good.mp hgood).2
  | false =>
    refine Bool.eq_false_iff.mpr fun htyped => ?_
    exact absurd (h.good.mpr ⟨hresult, htyped⟩) (by rw [hgood]; decide)

lemma report_finish (h : host.Decodes) (hopen : emitter.closesAfter = none) {good : Bool}
    {out : Outcome M C Unit} (hout : Goes good emitter out) :
    (good = true ∧ Ends emitter (report host req (finishMessage host req out))) ∨
      (good = false ∧ emitter.Goes (report host req (finishMessage host req out))) := by
  obtain ⟨⟨result, s⟩, emitter'⟩ := out
  have hopen' : emitter'.closesAfter = none := hout.goes.closesAfter.trans hopen
  cases result with
  | error stop =>
    cases stop with
    | panicked =>
      refine .inr ⟨Bool.eq_false_iff.mpr fun hgood => ?_, hout.goes⟩
      exact (hout.good.mp hgood).1 rfl
    | failed error =>
      rw [← hout.eq_typed (by simp)]
      exact @report_failed _ _ _ _ req h _ hout.goes hopen' s error
  | ok _ =>
    rw [← hout.eq_typed (by simp)]
    unfold finishMessage
    dsimp only
    rcases finish_cases s req.cancelledAtFinish with ⟨error, hfinish⟩ | hfinish
    · rw [hfinish]
      exact @report_failed _ _ _ _ req h _ hout.goes hopen' s error
    · rw [hfinish]
      unfold Emitter.follow Emitter.send
      dsimp only
      cases htyped : s.output.typed with
      | true =>
        obtain ⟨r, k, hmirrors, -⟩ := hout.reads rfl
        have hlast : (Event.done s.output.stopReason s.output : Event).message.typed = true :=
          htyped
        obtain ⟨terminal, hemit, hterminal⟩ :=
          emit_typed h hopen' hlast
            (by intro call hcall; cases hcall) (by
              intro reason o hdone
              obtain ⟨-, rfl⟩ := Event.done.inj hdone
              exact ⟨hmirrors.reasoned.error, hmirrors.reasoned.aborted⟩)
        rw [hemit]
        exact .inl ⟨rfl, emitter', hout.goes, terminal, rfl, hterminal⟩
      | false =>
        have hlast : (Event.done s.output.stopReason s.output : Event).message.typed = false :=
          htyped
        obtain ⟨error, hemit⟩ := emit_illTyped h hlast
        have hreport := @report_failed _ _ _ _ req h _ hout.goes hopen' s error
        rw [htyped] at hreport
        rw [hemit]
        exact hreport

/-- The doubles of small integers. -/
instance integers : Doubles Int where
  ofNumber
    | .posInt n => n.toNat
    | .negInt n => n.toInt
    | .float _ => 0
  ofInt := id
  add := (· + ·)
  sub := (· - ·)
  mul := (· * ·)
  div := (· / ·)
  max := max
  lt m n := decide (m < n)
  integer := some
  text n := some (toString n ++ ".0")
  number := toString

/-- A host that only looks at the types. -/
def plainHost : Host Unit Unit where
  message output := if output.typed then .ok () else .error "invalid type"
  toolCall call := if call.typed then .ok () else .error "invalid type"

lemma plainHost_decodes : plainHost.Decodes := by
  constructor
  · intro output
    unfold plainHost
    cases htyped : output.typed <;> simp [htyped, Except.isOk, Except.toBool]
  · intro call
    unfold plainHost
    cases htyped : call.typed <;> simp [htyped, Except.isOk, Except.toBool]

/-- A stream of one chunk, with one part, that is complete. -/
def onePart (part : Value) : Request where
  model := .object [("id", .string "gemini"), ("api", .string "google"),
    ("provider", .string "antigravity")]
  timestamp := 0
  nextId _ := "1"
  redact := id
  opened := .ok 200
  acceptHeaders := .ok ()
  failure := .ok ""
  reads := [.chunk (.object [("candidates", .array [.object [
    ("content", .object [("parts", .array [part])]), ("finishReason", .string "STOP")]])])]
  cancelledAtFinish := false
  cancelledAtFail := false

end Request

end Antigravity
