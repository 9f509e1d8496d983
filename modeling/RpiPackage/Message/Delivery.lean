import Mathlib.Data.List.Induction
import RpiPackage.Message.Tracker

/-!
# Delivery of a reply

The text a tracker has emitted since the last assistant message started is the text it holds, so a
prompt that completes has delivered all of it. A projection error ends this, until the settlement
that reports the error.
-/

namespace Message

open Json Result

namespace RunTracker

/-! ### One frame of a prompt -/

/-- The frame settles the accepted prompt. -/
def Settles (t : RunTracker) (event : Value) : Prop :=
  t.answers event = false ∧ isSettled event = true ∧ t.accepted = true

/-- The frame is one of the reply. -/
def Reaches (t : RunTracker) (event : Value) : Prop :=
  t.answers event = false ∧ (isSettled event && t.accepted) = false ∧ isEnd event = false ∧
    t.streamError = none

/-- The final text of the frame does not go with what has been emitted. -/
def Contradicts (t : RunTracker) (event : Value) : Prop :=
  ∃ text error, (event.index "finalText").asStr = some text ∧
    (t.messages.complete text).2 = .error error

/-- The message projection refuses the frame. -/
def Errs (t : RunTracker) (event : Value) : Prop :=
  (t.Reaches event ∧ ∃ error, (t.messages.event event).2 = .error error) ∨
    (t.Settles event ∧ t.streamError = none ∧ t.Contradicts event)

/-- The prompt is settled with a projection error. -/
def SettlesWithError (t : RunTracker) (event : Value) : Prop :=
  t.Settles event ∧ (t.streamError.isSome = true ∨ t.Contradicts event)

/-- The outcomes that end a prompt well. -/
def IsSuccess (outcome : Option (Except String RunOutcome)) : Prop :=
  outcome = some (.ok .completed) ∨ outcome = some (.ok .tokenLimit)

/-- Everything a frame can do to a prompt. -/
inductive Observed (t : RunTracker) (event : Value) : RunTracker × RunProgress → Prop where
  | answered (accepted : Bool) (outcome : Option (Except String RunOutcome))
      (answers : t.answers event = true) (accepts : accepted = true → t.accepted = false →
        RunTracker.accepts event = true) (failure : ¬IsSuccess outcome) :
      Observed t event ({ t with accepted }, ⟨[], outcome⟩)
  | failed (error : String) (settles : t.Settles event) (stream : t.streamError = some error) :
      Observed t event ({ t with streamError := none }, ⟨[], some (.error error)⟩)
  | contradicted (messages : MessageProjection) (error : String) (settles : t.Settles event)
      (stream : t.streamError = none) (contradicts : t.Contradicts event) :
      Observed t event ({ t with messages }, ⟨[], some (.error error)⟩)
  | settled (messages : MessageProjection) (deltas : List Value)
      (outcome : Option (Except String RunOutcome)) (settles : t.Settles event)
      (stream : t.streamError = none) (agrees : ¬t.Contradicts event)
      (text : messages.text = t.messages.text ++ textOf deltas)
      (finalText : ∀ text, (event.index "finalText").asStr = some text →
        ∃ rest, messages.text = text ++ rest) :
      Observed t event ({ t with messages }, ⟨deltas, outcome⟩)
  | ended (error : String) (unsettled : ¬t.Settles event) (ends : isEnd event = true) :
      Observed t event (t, ⟨[], some (.error error)⟩)
  | poisoned (error : String) (unsettled : ¬t.Settles event) (stream : t.streamError = some error) :
      Observed t event (t, ⟨[], none⟩)
  | refused (messages : MessageProjection) (error : String) (reaches : t.Reaches event)
      (errs : (t.messages.event event).2 = .error error) :
      Observed t event ({ t with messages, streamError := some error }, ⟨[], none⟩)
  | projected (messages : MessageProjection) (deltas : List Value) (reaches : t.Reaches event)
      (updates : t.messages.event event = (messages, .ok deltas)) :
      Observed t event ({ t with messages }, ⟨deltas, none⟩)

lemma not_isSuccess_error (error : String) : ¬IsSuccess (some (.error error)) := by
  rintro (h | h) <;> cases h

lemma not_isSuccess_none : ¬IsSuccess none := by
  rintro (h | h) <;> cases h

lemma observed_response {t : RunTracker} {event : Value} (hanswers : t.answers event = true)
    (cancelled : Bool) : t.Observed event (t.response event cancelled) := by
  unfold response
  split
  · refine .answered t.accepted _ hanswers ?_ ?_
    · intro haccepted hnot
      cases haccepted.symm.trans hnot
    · cases cancelled
      · exact not_isSuccess_error _
      · rintro (h | h) <;> cases h
  · split
    · refine .answered t.accepted _ hanswers ?_ (not_isSuccess_error _)
      intro haccepted hnot
      cases haccepted.symm.trans hnot
    · rename_i haccepts
      rw [Bool.not_eq_false] at haccepts
      exact .answered true none hanswers (fun _ _ => haccepts) not_isSuccess_none

lemma observed_settle {t : RunTracker} {event : Value} (hsettles : t.Settles event) :
    t.Observed event (t.settle event) := by
  unfold settle
  split
  · rename_i error hstream
    exact .failed error hsettles hstream
  · rename_i hstream
    split
    · rename_i hfinal
      refine .settled t.messages [] _ hsettles hstream ?_ (by simp) ?_
      · rintro ⟨text, error, htext, -⟩
        cases hfinal.symm.trans htext
      · intro text htext
        cases hfinal.symm.trans htext
    · rename_i text hfinal
      split
      · rename_i messages error hcomplete
        exact .contradicted messages error hsettles hstream ⟨text, error, hfinal, by rw [hcomplete]⟩
      · rename_i messages delta hcomplete
        obtain ⟨htext, hrest⟩ := MessageProjection.text_complete hcomplete
        refine .settled messages delta.toList _ hsettles hstream ?_ htext ?_
        · rintro ⟨text', error, htext', herror⟩
          obtain rfl := Option.some.inj (hfinal.symm.trans htext')
          rw [hcomplete] at herror
          cases herror
        · intro text' htext'
          obtain rfl := Option.some.inj (hfinal.symm.trans htext')
          exact hrest

lemma observed {t : RunTracker} (hkind : t.kind = .prompt) (hcompact : t.compactSettled = false)
    (event : Value) (cancelled : Bool) : t.Observed event (t.observe event cancelled) := by
  unfold observe
  rw [if_neg (by simp [hcompact])]
  by_cases hanswers : t.answers event = true
  · rw [if_pos hanswers]
    exact observed_response hanswers cancelled
  · rw [if_neg hanswers, hkind]
    rw [Bool.not_eq_true] at hanswers
    unfold observePrompt
    by_cases hsettled : (isSettled event && t.accepted) = true
    · simp only [if_pos hsettled]
      rw [Bool.and_eq_true] at hsettled
      exact observed_settle ⟨hanswers, hsettled⟩
    · simp only [if_neg hsettled]
      rw [Bool.not_eq_true] at hsettled
      have hunsettled : ¬t.Settles event := by
        rintro ⟨-, htype, haccepted⟩
        rw [htype, haccepted] at hsettled
        cases hsettled
      by_cases hend : isEnd event = true
      · rw [if_pos hend]
        exact .ended _ hunsettled hend
      · rw [if_neg hend]
        rw [Bool.not_eq_true] at hend
        unfold project
        split
        · rename_i error hstream
          exact .poisoned error hunsettled hstream
        · rename_i hstream
          have hreaches : t.Reaches event := ⟨hanswers, hsettled, hend, hstream⟩
          split
          · rename_i messages deltas hevent
            exact .projected messages deltas hreaches hevent
          · rename_i messages error hevent
            exact .refused messages error hreaches (by rw [hevent])

end RunTracker

/-! ### Runs -/

open MessageProjection (startsMessage)

/-- A tracker, and the text it has emitted since the last assistant message started. -/
structure Delivery where
  tracker : RunTracker
  delivered : String

namespace Delivery

/-- A frame, and whether its run has been cancelled by then. -/
def step (d : Delivery) (frame : Value × Bool) : Delivery :=
  let (tracker, progress) := d.tracker.observe frame.1 frame.2
  { tracker
    delivered :=
      (if startsMessage frame.1 then "" else d.delivered) ++ textOf progress.deltas }

def start (id : Value) (required : Bool) : Delivery :=
  ⟨(RunTracker.new id).requireMessageIds required, ""⟩

variable (id : Value) (required : Bool)

def run (frames : List (Value × Bool)) : Delivery := Run.after step (start id required) frames

/-- The request of the prompt has been accepted. -/
def Accepted (frames : List (Value × Bool)) : Prop :=
  ∃ left frame right, frames = left ++ frame :: right ∧
    (run id required left).tracker.answers frame.1 = true ∧ RunTracker.accepts frame.1 = true

/-- A projection error has occurred. -/
def Poisoned (frames : List (Value × Bool)) : Prop :=
  ∃ left frame right, frames = left ++ frame :: right ∧ (run id required left).tracker.Errs frame.1

/-- A projection error has been reported by a settlement. -/
def Reported (frames : List (Value × Bool)) : Prop :=
  ∃ left frame right, frames = left ++ frame :: right ∧
    (run id required left).tracker.SettlesWithError frame.1

variable {id required}

lemma run_concat (frames : List (Value × Bool)) (frame : Value × Bool) :
    run id required (frames ++ [frame]) = (run id required frames).step frame :=
  Run.after_append _ frames [frame]

/-- What a tracker knows about the frames it has observed. -/
structure Knows (id : Value) (required : Bool) (frames : List (Value × Bool)) (d : Delivery) :
    Prop where
  kind : d.tracker.kind = .prompt
  compactSettled : d.tracker.compactSettled = false
  accepted : d.tracker.accepted = true → Accepted id required frames
  clean : ¬Poisoned id required frames →
    d.tracker.streamError = none ∧ d.delivered = d.tracker.messages.text
  poisoned : Poisoned id required frames → ¬Reported id required frames →
    d.tracker.streamError.isSome = true

lemma not_startsMessage {event : Value} {type : String}
    (htype : (event.index "type").asStr = some type) (hne : type ≠ "message_start") :
    startsMessage event = false := by
  rw [startsMessage, htype, Bool.and_eq_false_iff, beq_eq_false_iff_ne]
  exact .inl fun h => hne (Option.some.inj h)

/-- Neither a response nor a settlement starts a message. -/
lemma not_startsMessage_of_settles {t : RunTracker} {event : Value} (h : t.Settles event) :
    startsMessage event = false :=
  not_startsMessage (by simpa [RunTracker.isSettled] using h.2.1) (by decide)

lemma not_startsMessage_of_answers {t : RunTracker} {event : Value}
    (h : t.answers event = true) : startsMessage event = false := by
  rw [RunTracker.answers, Bool.and_eq_true, beq_iff_eq] at h
  exact not_startsMessage h.1 (by decide)

lemma not_startsMessage_of_isEnd {event : Value} (h : RunTracker.isEnd event = true) :
    startsMessage event = false := by
  unfold RunTracker.isEnd at h
  split at h
  · rename_i htype
    exact not_startsMessage htype (by decide)
  · rename_i htype
    exact not_startsMessage htype (by decide)
  · cases h

lemma step_of_observe {d : Delivery} {frame : Value × Bool} {tracker : RunTracker}
    {progress : RunProgress} (h : d.tracker.observe frame.1 frame.2 = (tracker, progress)) :
    d.step frame = ⟨tracker,
      (if startsMessage frame.1 then "" else d.delivered) ++ textOf progress.deltas⟩ := by
  rw [step, h]

lemma knows (frames : List (Value × Bool)) :
    Knows id required frames (run id required frames) := by
  induction frames using List.reverseRecOn with
  | nil =>
    refine ⟨rfl, rfl, nofun, fun _ => ⟨rfl, rfl⟩, ?_⟩
    rintro ⟨left, frame, right, hnil, -⟩
    cases left <;> cases hnil
  | append_singleton frames frame ih =>
    have hclean : ¬Poisoned id required (frames ++ [frame]) →
        ¬Poisoned id required frames ∧ ¬(run id required frames).tracker.Errs frame.1 := by
      intro h
      exact not_or.mp fun hor => h (Run.exists_step_concat.mpr hor)
    have hpoisoned : Poisoned id required (frames ++ [frame]) →
        Poisoned id required frames ∨ (run id required frames).tracker.Errs frame.1 :=
      Run.exists_step_concat.mp
    have hreported : ¬Reported id required (frames ++ [frame]) → ¬Reported id required frames ∧
        ¬(run id required frames).tracker.SettlesWithError frame.1 := by
      intro h
      exact not_or.mp fun hor => h (Run.exists_step_concat.mpr hor)
    have haccepted : Accepted id required frames → Accepted id required (frames ++ [frame]) :=
      fun h => Run.exists_step_concat.mpr (.inl h)
    rw [run_concat]
    generalize hd : run id required frames = d at *
    have hobserved := RunTracker.observed ih.kind ih.compactSettled frame.1 frame.2
    rcases hobserve : d.tracker.observe frame.1 frame.2 with ⟨tracker, progress⟩
    rw [hobserve] at hobserved
    rw [step_of_observe hobserve]
    cases hobserved with
    | answered accepted outcome hanswers haccepts =>
      refine ⟨ih.kind, ih.compactSettled, fun h => ?_, fun h => ?_, fun h hr => ?_⟩
      · by_cases hbefore : d.tracker.accepted = true
        · exact haccepted (ih.accepted hbefore)
        · refine Run.exists_step_concat.mpr (.inr ⟨?_, haccepts h (by simpa using hbefore)⟩)
          rw [hd]
          exact hanswers
      · obtain ⟨hstream, htext⟩ := ih.clean (hclean h).1
        refine ⟨hstream, ?_⟩
        rw [not_startsMessage_of_answers hanswers]
        simpa using htext
      · rcases hpoisoned h with h | ⟨hreaches, -⟩ | ⟨hsettles, -⟩
        · exact ih.poisoned h (hreported hr).1
        · cases hanswers.symm.trans hreaches.1
        · cases hanswers.symm.trans hsettles.1
    | failed error hsettles hstream =>
      refine ⟨ih.kind, ih.compactSettled, fun h => haccepted (ih.accepted h), fun h => ?_,
        fun h hr => ?_⟩
      · cases hstream.symm.trans (ih.clean (hclean h).1).1
      · exact absurd ⟨hsettles, .inl (by rw [hstream]; rfl)⟩ (hreported hr).2
    | contradicted messages error hsettles hstream hcontradicts =>
      refine ⟨ih.kind, ih.compactSettled, fun h => haccepted (ih.accepted h), fun h => ?_,
        fun h hr => ?_⟩
      · exact absurd (.inr ⟨hsettles, hstream, hcontradicts⟩) (hclean h).2
      · exact absurd ⟨hsettles, .inr hcontradicts⟩ (hreported hr).2
    | settled messages deltas outcome hsettles hstream hagrees htext =>
      refine ⟨ih.kind, ih.compactSettled, fun h => haccepted (ih.accepted h), fun h => ?_,
        fun h hr => ?_⟩
      · refine ⟨hstream, ?_⟩
        rw [not_startsMessage_of_settles hsettles, htext, ← (ih.clean (hclean h).1).2]
        rfl
      · rcases hpoisoned h with h | ⟨hreaches, -⟩ | ⟨-, -, hcontradicts⟩
        · have hsome := ih.poisoned h (hreported hr).1
          rw [hstream] at hsome
          cases hsome
        · obtain ⟨-, hnot, -⟩ := hreaches
          rw [hsettles.2.1, hsettles.2.2] at hnot
          cases hnot
        · exact absurd hcontradicts hagrees
    | ended error hunsettled hend =>
      refine ⟨ih.kind, ih.compactSettled, fun h => haccepted (ih.accepted h), fun h => ?_,
        fun h hr => ?_⟩
      · obtain ⟨hstream, htext⟩ := ih.clean (hclean h).1
        refine ⟨hstream, ?_⟩
        rw [not_startsMessage_of_isEnd hend]
        simpa using htext
      · rcases hpoisoned h with h | ⟨hreaches, -⟩ | ⟨hsettles, -⟩
        · exact ih.poisoned h (hreported hr).1
        · cases hend.symm.trans hreaches.2.2.1
        · exact absurd hsettles hunsettled
    | poisoned error hunsettled hstream =>
      refine ⟨ih.kind, ih.compactSettled, fun h => haccepted (ih.accepted h), fun h => ?_,
        fun _ _ => ?_⟩
      · cases hstream.symm.trans (ih.clean (hclean h).1).1
      · rw [hstream]
        rfl
    | refused messages error hreaches herrs =>
      refine ⟨ih.kind, ih.compactSettled, fun h => haccepted (ih.accepted h), fun h => ?_,
        fun _ _ => rfl⟩
      exact absurd (.inl ⟨hreaches, error, herrs⟩) (hclean h).2
    | projected messages deltas hreaches hupdates =>
      refine ⟨ih.kind, ih.compactSettled, fun h => haccepted (ih.accepted h), fun h => ?_,
        fun h hr => ?_⟩
      · obtain ⟨hstream, htext⟩ := ih.clean (hclean h).1
        refine ⟨hstream, ?_⟩
        rw [htext]
        exact (MessageProjection.text_event hupdates).symm
      · rcases hpoisoned h with h | ⟨-, error, herror⟩ | ⟨hsettles, -⟩
        · have hsome := ih.poisoned h (hreported hr).1
          rw [hreaches.2.2.2] at hsome
          cases hsome
        · rw [hupdates] at herror
          cases herror
        · obtain ⟨-, hnot, -⟩ := hreaches
          rw [hsettles.2.1, hsettles.2.2] at hnot
          cases hnot

/-! ### Completed prompts -/

variable (id required) in
/-- What a frame reports after the frames before it. -/
def progress (frames : List (Value × Bool)) (frame : Value × Bool) : RunProgress :=
  ((run id required frames).tracker.observe frame.1 frame.2).2

open RunTracker (IsSuccess)

/-- A frame that reports a success settles the prompt, and every projection error lies after it. -/
lemma settles_of_isSuccess {frames : List (Value × Bool)} {frame : Value × Bool}
    (hreported : ¬Reported id required frames)
    (hsuccess : IsSuccess (progress id required frames frame).outcome) :
    (run id required frames).tracker.Settles frame.1 ∧
      ¬Poisoned id required (frames ++ [frame]) ∧
      ∀ text, (frame.1.index "finalText").asStr = some text →
        ∃ rest, (run id required (frames ++ [frame])).tracker.messages.text = text ++ rest := by
  have hknows : Knows id required frames (run id required frames) := knows frames
  rw [progress] at hsuccess
  rw [run_concat]
  have hobserved := RunTracker.observed hknows.kind hknows.compactSettled frame.1 frame.2
  rcases hobserve : (run id required frames).tracker.observe frame.1 frame.2
    with ⟨tracker, progress⟩
  rw [hobserve] at hobserved hsuccess
  rw [step_of_observe hobserve]
  cases hobserved with
  | answered accepted outcome hanswers haccepts hfailure => exact absurd hsuccess hfailure
  | failed error => exact absurd hsuccess (RunTracker.not_isSuccess_error error)
  | contradicted messages error => exact absurd hsuccess (RunTracker.not_isSuccess_error error)
  | settled messages deltas outcome hsettles hstream hagrees htext hfinal =>
    refine ⟨hsettles, ?_, hfinal⟩
    intro hpoisoned
    rcases Run.exists_step_concat.mp hpoisoned with hbefore | ⟨hreaches, -⟩ | ⟨-, -, hcontradicts⟩
    · have hsome := hknows.poisoned hbefore hreported
      rw [hstream] at hsome
      cases hsome
    · obtain ⟨-, hnot, -⟩ := hreaches
      rw [hsettles.2.1, hsettles.2.2] at hnot
      cases hnot
    · exact hagrees hcontradicts
  | ended error => exact absurd hsuccess (RunTracker.not_isSuccess_error error)
  | poisoned => exact absurd hsuccess RunTracker.not_isSuccess_none
  | refused => exact absurd hsuccess RunTracker.not_isSuccess_none
  | projected => exact absurd hsuccess RunTracker.not_isSuccess_none

/-- A poisoned stream emits nothing. -/
lemma deltas_of_poisoned {frames : List (Value × Bool)} (frame : Value × Bool)
    (hreported : ¬Reported id required frames) (hpoisoned : Poisoned id required frames) :
    (progress id required frames frame).deltas = [] := by
  have hknows : Knows id required frames (run id required frames) := knows frames
  have hstream := hknows.poisoned hpoisoned hreported
  have hobserved := RunTracker.observed hknows.kind hknows.compactSettled frame.1 frame.2
  rw [progress]
  rcases hobserve : (run id required frames).tracker.observe frame.1 frame.2
    with ⟨tracker, progress⟩
  rw [hobserve] at hobserved
  cases hobserved with
  | settled messages deltas outcome hsettles hnone =>
    rw [hnone] at hstream
    cases hstream
  | projected messages deltas hreaches =>
    rw [hreaches.2.2.2] at hstream
    cases hstream
  | _ => rfl

/-- A success comes on the settlement of an accepted prompt that has had no projection error, with
all of the final text delivered; after a projection error nothing is emitted. -/
structure Delivers (id : Value) (required : Bool) (frames : List (Value × Bool))
    (frame : Value × Bool) : Prop where
  success : IsSuccess (progress id required frames frame).outcome →
    Accepted id required frames ∧ RunTracker.isSettled frame.1 = true ∧
      ¬Poisoned id required (frames ++ [frame]) ∧
      (run id required (frames ++ [frame])).delivered =
        (run id required (frames ++ [frame])).tracker.messages.text ∧
      ∀ text, (frame.1.index "finalText").asStr = some text →
        ∃ rest, (run id required (frames ++ [frame])).delivered = text ++ rest
  poisoned : Poisoned id required frames → (progress id required frames frame).deltas = [] ∧
    ¬IsSuccess (progress id required frames frame).outcome

/-- A prompt delivers its text as long as the settlement that reports a projection error is the
last frame of it. -/
theorem run_delivers_text {frames : List (Value × Bool)}
    (hlast : ∀ left frame right, frames = left ++ frame :: right →
      (run id required left).tracker.SettlesWithError frame.1 → right = [])
    {left right : List (Value × Bool)} {frame : Value × Bool}
    (hframes : frames = left ++ frame :: right) : Delivers id required left frame := by
  have hreported : ¬Reported id required left := by
    rintro ⟨before, error, between, rfl, herror⟩
    have hempty := hlast before error (between ++ frame :: right) (by simpa using hframes) herror
    simp at hempty
  constructor
  · intro hsuccess
    obtain ⟨hsettles, hclean, hfinal⟩ := settles_of_isSuccess hreported hsuccess
    have hdelivered := ((knows (left ++ [frame])).clean hclean).2
    refine ⟨(knows left).accepted hsettles.2.2, hsettles.2.1, hclean, hdelivered, ?_⟩
    rw [hdelivered]
    exact hfinal
  · intro hpoisoned
    refine ⟨deltas_of_poisoned frame hreported hpoisoned, ?_⟩
    intro hsuccess
    apply (settles_of_isSuccess hreported hsuccess).2.1
    exact Run.exists_step_concat.mpr (.inl hpoisoned)

/-! ### Two replies -/

def acceptance : Value :=
  .object [("type", .string "response"), ("id", .string "p"), ("success", .bool true),
    ("data", .object [("accepted", .bool true)])]

def textFrame (text : String) : Value :=
  .object [("type", .string "message_update"), ("eventType", .string "text_delta"),
    ("delta", .string text)]

def settlement (finalText : String) : Value :=
  .object [("type", .string "agent_settled"), ("outcome", .string "completed"),
    ("finalText", .string finalText)]

/-- A prompt whose final text is longer than what has been streamed. -/
def reply : List (Value × Bool) :=
  [(acceptance, false), (textFrame "a", false), (settlement "ab", false)]

lemma not_settlesWithError {t : RunTracker} {event : Value}
    (h : RunTracker.isSettled event = false) : ¬t.SettlesWithError event := by
  rintro ⟨⟨-, hsettled, -⟩, -⟩
  cases h.symm.trans hsettled

theorem run_delivers_text_reply :
    Delivers (.string "p") false (reply.take 2) (settlement "ab", false) := by
  refine run_delivers_text ?_ (show reply = reply.take 2 ++ (settlement "ab", false) :: [] from rfl)
  rintro (_ | ⟨first, _ | ⟨second, _ | ⟨third, left⟩⟩⟩) frame right hframes hsettles
  · obtain ⟨rfl, -⟩ := List.cons.inj hframes
    exact absurd hsettles (not_settlesWithError rfl)
  · obtain ⟨rfl, -⟩ := List.cons.inj (List.cons.inj hframes).2
    exact absurd hsettles (not_settlesWithError rfl)
  · exact (List.cons.inj (List.cons.inj (List.cons.inj hframes).2).2).2.symm
  · have hlength := congrArg List.length hframes
    simp [reply] at hlength

/-- The settlement that reports the contradiction of a snapshot, and another one after it. -/
def settledTwice : List (Value × Bool) :=
  let message := .object [("role", .string "assistant"),
    ("content", .array [.object [("type", .string "text"), ("text", .string "b")]])]
  [(acceptance, false), (textFrame "a", false),
    (.object [("type", .string "message_end"), ("message", message)], false),
    (settlement "a", false)]

theorem settled_twice :
    ¬∀ (id : Value) (required : Bool) (frames : List (Value × Bool)) (frame : Value × Bool),
      Delivers id required frames frame := by
  intro h
  refine ((h (.string "p") false settledTwice (settlement "a", false)).poisoned ?_).2 (.inl rfl)
  refine ⟨settledTwice.take 2, _, _, rfl, .inl ⟨⟨rfl, rfl, rfl, rfl⟩, ?_⟩⟩
  exact ⟨_, rfl⟩

end Delivery

end Message
