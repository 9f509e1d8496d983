import RpiPackage.Host.Ordered

/-!
# Replay and live events

A subscriber takes a receiver, then the retained events, then the last number, while events keep
being published. It is given the retained events after its cursor and from then on the received
ones, of which those up to its cursor are dropped.
-/

namespace Host

open Json Numbered

inductive StreamItem where
  | event (event : BufferedEvent)
  | resyncRequired (dropped : Nat)

def u64Max : Nat := 2 ^ 64 - 1

def replayGap (after first : Option Nat) (latest : Nat) : Bool :=
  after.any fun after =>
    decide (latest < after) || first.any fun first => decide (min (after + 1) u64Max < first)

/-- The retained events a subscriber replays. -/
def replayAfter (after : Option Nat) (retained : List BufferedEvent) : List BufferedEvent :=
  retained.filter fun event => after.all fun after => decide (after < event.seq)

/-- `Subscription::new` and the stream of its events, by the steps they have taken. -/
inductive Subscriber where
  | absent
  | subscribed (receiver : Nat)
  | sampled (receiver : Nat) (retained : List BufferedEvent)
  | streaming (gap : Bool) (replay : List BufferedEvent) (receiver cursor : Nat)
      (live : List StreamItem)

structure Session where
  feed : Feed
  subscriber : Subscriber

inductive SessionOp where
  | publish (op : PublishOp)
  /-- The subscriber takes its next step. -/
  | next

section

variable (fromStr : String → Option Value)
-- The capacity of the broadcast channel, and the cursor of the client.
variable (capacity : Nat) (after : Option Nat)

def Subscriber.next (feed : Feed) : Subscriber → Subscriber
  | .absent => .subscribed feed.sent.length
  | .subscribed receiver => .sampled receiver feed.history
  | .sampled receiver retained =>
    let gap := replayGap after (retained.head?.map BufferedEvent.seq) feed.state.lastSeq
    let replay := replayAfter after retained
    let cursor := max ((replay.getLast?.map BufferedEvent.seq).getD 0) (after.getD 0)
    .streaming gap replay receiver cursor []
  | .streaming gap replay receiver cursor live =>
    -- a receiver that has been overtaken goes on with the oldest message of the channel
    if receiver + capacity < feed.sent.length then
      let oldest := feed.sent.length - capacity
      .streaming gap replay oldest cursor (live ++ [.resyncRequired (oldest - receiver)])
    else
      match feed.sent[receiver]? with
      | none => .streaming gap replay receiver cursor live
      | some event =>
        if event.seq ≤ cursor then .streaming gap replay (receiver + 1) cursor live
        else .streaming gap replay (receiver + 1) event.seq (live ++ [.event event])

def Session.step (s : Session) : SessionOp → Session
  | .publish op => { s with feed := s.feed.step fromStr op }
  | .next => { s with subscriber := s.subscriber.next capacity after s.feed }

def Session.start : Session := ⟨Feed.start, .absent⟩

def Session.run (ops : List SessionOp) : Session :=
  Run.after (Session.step fromStr capacity after) Session.start ops

end

/-- The events up to the first request to resynchronize. -/
def eventsOf : List StreamItem → List BufferedEvent
  | .event event :: items => event :: eventsOf items
  | _ => []

/-- No event has been lost by the receiver. -/
def isEvent : StreamItem → Bool
  | .event _ => true
  | .resyncRequired _ => false

@[simp] lemma eventsOf_nil : eventsOf [] = [] := rfl

/-- What follows a request to resynchronize does not count. -/
lemma eventsOf_append (live : List StreamItem) (item : StreamItem) :
    eventsOf (live ++ [item]) =
      if live.all isEvent = true then eventsOf live ++ eventsOf [item] else eventsOf live := by
  induction live with
  | nil => rfl
  | cons first live ih =>
    cases first with
    | event event =>
      show event :: eventsOf (live ++ [item]) = _
      rw [ih, List.all_cons, isEvent, Bool.true_and]
      split <;> rfl
    | resyncRequired dropped => rfl

/-! ### Messages in order -/

/-- An event goes out before those with a larger number. -/
def Feed.SendsInOrder (f : Feed) : PublishOp → Prop
  | .send i => ∀ p, f.inFlight[i]? = some p → ∀ q ∈ f.inFlight, p.seq ≤ q.seq
  | _ => True

/-- Publications that take their sections in the order of their numbers. -/
def Session.InOrder (s : Session) : SessionOp → Prop
  | .publish op => s.feed.InOrder op ∧ s.feed.SendsInOrder op
  | .next => True

/-- The messages sent are the oldest of the published events. -/
structure Feed.Delivers (f : Feed) : Prop extends f.Sequenced where
  unsent : Outstanding (f.inFlight.map fun p => p.seq) f.sent.length f.seq
  sent : f.sent <+: f.published
  retained : ∀ p ∈ f.inFlight, p.stage = .retained →
    f.published[p.seq - 1]? = some p.toBufferedEvent
  sent_le : f.sent.length ≤ f.seq

variable {fromStr : String → Option Value} {capacity : Nat} {after : Option Nat}

lemma Feed.delivers_step {f : Feed} (h : f.Delivers) {op : PublishOp} (horder : f.InOrder op)
    (hsends : f.SendsInOrder op) : (f.step fromStr op).Delivers := by
  have hsequenced : (f.step fromStr op).Sequenced := Feed.sequenced_step h.toSequenced horder
  have heffect := f.step_effect fromStr op
  generalize f.step fromStr op = f' at heffect hsequenced
  cases heffect with
  | idle => exact h
  | issue value =>
    refine ⟨hsequenced, ?_, h.sent, ?_, Nat.le_succ_of_le h.sent_le⟩
    · have hnew := h.unsent.issue h.sent_le
      simpa using hnew
    · intro p hp hstage
      rcases List.mem_append.mp hp with hp | hp
      · exact h.retained p hp hstage
      · rw [List.mem_singleton.mp hp] at hstage
        cases hstage
  | project i before after event hunder hi =>
    refine ⟨hsequenced, ?_, h.sent, ?_, h.sent_le⟩
    · have hold := h.unsent
      rw [hunder] at hold
      simpa using hold
    · intro p hp hstage
      rcases List.mem_append.mp hp with hp | hp
      · exact h.retained p (hunder ▸ List.mem_append_left _ hp) hstage
      · rcases List.mem_cons.mp hp with rfl | hp
        · cases hstage
        · exact h.retained p (hunder ▸ List.mem_append_right _ (List.mem_cons_of_mem _ hp)) hstage
  | retain i before after event hunder hi =>
    have hretained : (f.published ++ [event])[event.seq - 1]? = some event := by
      have hseq := hsequenced.published.getElem?
        (show (f.published ++ [event])[f.published.length]? = some event by simp)
      rw [hseq, Nat.add_sub_cancel_left]
      simp
    refine ⟨hsequenced, ?_, h.sent.trans (List.prefix_append _ _), ?_, h.sent_le⟩
    · have hold := h.unsent
      rw [hunder] at hold
      simpa using hold
    · have hgrow : ∀ {i : Nat} {e : BufferedEvent}, f.published[i]? = some e →
          (f.published ++ [event])[i]? = some e := by
        intro i e he
        rw [List.getElem?_append_left (List.getElem?_eq_some_iff.mp he).1, he]
      intro p hp hstage
      rcases List.mem_append.mp hp with hp | hp
      · exact hgrow (h.retained p (hunder ▸ List.mem_append_left _ hp) hstage)
      · rcases List.mem_cons.mp hp with rfl | hp
        · exact hretained
        · exact hgrow
            (h.retained p (hunder ▸ List.mem_append_right _ (List.mem_cons_of_mem _ hp)) hstage)
  | send i before after event hunder hi =>
    have hold := h.unsent
    rw [hunder, List.map_append, List.map_cons] at hold
    have hmin := hsends ⟨event, .retained⟩ (by rw [hunder, hi]; simp)
    rw [hunder] at hmin
    obtain ⟨hseq, hle, hnew⟩ := hold.settle (by
      intro seq hmem
      rw [← List.map_append] at hmem
      obtain ⟨p, hp, rfl⟩ := List.mem_map.mp hmem
      refine hmin p ?_
      rcases List.mem_append.mp hp with hp | hp
      · exact List.mem_append_left _ hp
      · exact List.mem_append_right _ (List.mem_cons_of_mem _ hp))
    have hseq : event.seq = f.sent.length + 1 := hseq
    have hevent := h.retained ⟨event, .retained⟩ (by rw [hunder]; simp) rfl
    rw [show event.seq - 1 = f.sent.length by omega] at hevent
    refine ⟨hsequenced, ?_, ?_, ?_, ?_⟩
    · rw [List.length_append, List.length_singleton, List.map_append]
      exact hnew
    · obtain ⟨rest, hrest⟩ := h.sent
      rw [← hrest, List.getElem?_append_right (Nat.le_refl _), Nat.sub_self] at hevent
      cases rest with
      | nil => cases hevent
      | cons next rest =>
        obtain rfl := Option.some.inj hevent
        exact ⟨rest, by rw [← hrest, List.append_assoc]; rfl⟩
    · intro p hp hstage
      refine h.retained p ?_ hstage
      rw [hunder]
      rcases List.mem_append.mp hp with hp | hp
      · exact List.mem_append_left _ hp
      · exact List.mem_append_right _ (List.mem_cons_of_mem _ hp)
    · rw [List.length_append, List.length_singleton]
      show f.sent.length + 1 ≤ f.seq
      have hle : event.seq ≤ f.seq := hle
      omega

/-! ### What is delivered -/

/-- The number of the oldest event replayed. -/
def oldest (replay : List BufferedEvent) : Nat := (replay.head?.map BufferedEvent.seq).getD 0

/-- The events a subscriber is to get: those after its cursor, or, without one, those from the
oldest retained event on. -/
def wanted (after : Option Nat) (oldest : Nat) (event : BufferedEvent) : Bool :=
  match after with
  | some after => decide (after < event.seq)
  | none => decide (oldest ≤ event.seq)

/-- What a subscriber has been given goes with what has been published. -/
def Subscriber.Follows (after : Option Nat) (feed : Feed) : Subscriber → Prop
  | .absent => True
  | .subscribed receiver => receiver ≤ feed.sent.length
  | .sampled receiver retained =>
    receiver ≤ feed.sent.length ∧ ∃ n ≤ feed.published.length, receiver ≤ n ∧
      retained = (feed.published.take n).drop (n - historyLimit)
  | .streaming gap replay receiver cursor live =>
    receiver ≤ feed.sent.length ∧ (gap = false → ∃ n ≤ feed.published.length,
      replay ++ eventsOf live = (feed.published.take n).filter (wanted after (oldest replay)) ∧
      (live.all isEvent = true →
        receiver ≤ n ∧ oldest replay ≤ n ∧ cursor = max n (after.getD 0)))

/-- Publication takes nothing away from a subscriber. -/
lemma Subscriber.Follows.publish {s : Subscriber} {feed feed' : Feed} (h : s.Follows after feed)
    (hpublished : feed.published <+: feed'.published) (hsent : feed.sent.length ≤ feed'.sent.length) :
    s.Follows after feed' := by
  have htake : ∀ n ≤ feed.published.length, feed'.published.take n = feed.published.take n := by
    intro n hn
    obtain ⟨rest, hrest⟩ := hpublished
    rw [← hrest, List.take_append_of_le_length hn]
  have hlength := hpublished.length_le
  cases s with
  | absent => trivial
  | subscribed receiver => exact Nat.le_trans h hsent
  | sampled receiver retained =>
    obtain ⟨hreceiver, n, hn, hrn, hretained⟩ := h
    exact ⟨Nat.le_trans hreceiver hsent, n, Nat.le_trans hn hlength, hrn, by rw [htake n hn, hretained]⟩
  | streaming gap replay receiver cursor live =>
    obtain ⟨hreceiver, hgap⟩ := h
    refine ⟨Nat.le_trans hreceiver hsent, fun hno => ?_⟩
    obtain ⟨n, hn, hdelivered, hlive⟩ := hgap hno
    exact ⟨n, Nat.le_trans hn hlength, by rw [htake n hn, hdelivered], hlive⟩

lemma Feed.step_grows (f : Feed) (op : PublishOp) :
    f.published <+: (f.step fromStr op).published ∧
      f.sent.length ≤ (f.step fromStr op).sent.length := by
  have heffect := f.step_effect fromStr op
  generalize f.step fromStr op = f' at heffect
  cases heffect with
  | idle | issue | project => exact ⟨List.prefix_refl _, Nat.le_refl _⟩
  | retain => exact ⟨List.prefix_append _ _, Nat.le_refl _⟩
  | send => exact ⟨List.prefix_refl _, by simp⟩

/-! ### The replay -/

section

variable {published : List BufferedEvent} {n : Nat}

/-- The last of the first `n` events, unless they are all left out. -/
lemma getLast_drop (h : Consecutive BufferedEvent.seq 1 published) (hn : n ≤ published.length)
    (j : Nat) :
    ((((published.take n).drop j).getLast?).map BufferedEvent.seq).getD 0 =
      if j < n then n else 0 := by
  by_cases hj : j < n
  · have hlast : ((published.take n).drop j).getLast? = published[n - 1]? := by
      rw [List.getLast?_drop, List.length_take, if_neg (by omega), List.getLast?_take,
        if_neg (by omega)]
      rcases hget : published[n - 1]? with _ | event
      · rw [List.getElem?_eq_none_iff] at hget
        omega
      · rfl
    rw [if_pos hj, hlast, List.getElem?_eq_getElem (by omega), Option.map_some, Option.getD_some,
      h.getElem? (List.getElem?_eq_getElem _)]
    omega
  · rw [if_neg hj, List.drop_eq_nil_of_le (by rw [List.length_take]; omega)]
    rfl

lemma oldest_le (h : Consecutive BufferedEvent.seq 1 published) {replay : List BufferedEvent}
    (hreplay : ∀ event ∈ replay, event ∈ published.take n) : oldest replay ≤ n := by
  unfold oldest
  rcases hhead : replay.head? with _ | event
  · exact Nat.zero_le n
  · have hbound := ((h.take n).mem (hreplay event (List.mem_of_head? hhead))).2
    rw [List.length_take] at hbound
    show event.seq ≤ n
    omega

/-- Without a cursor the replay starts with the oldest retained event. -/
lemma filter_oldest (h : Consecutive BufferedEvent.seq 1 published) (hn : n ≤ published.length) :
    (published.take n).filter
        (wanted none (oldest ((published.take n).drop (n - historyLimit)))) =
      (published.take n).drop (n - historyLimit) := by
  have hpos : 0 < historyLimit := by decide
  rcases Nat.eq_zero_or_pos n with rfl | hpositive
  · rfl
  · have hlength : n - historyLimit < (published.take n).length := by
      rw [List.length_take]
      omega
    have hseq := ((h.take n).getElem? (List.getElem?_eq_getElem hlength))
    have holdest : oldest ((published.take n).drop (n - historyLimit)) = n - historyLimit + 1 := by
      rw [oldest, List.head?_drop, List.getElem?_eq_getElem hlength, Option.map_some,
        Option.getD_some, hseq, Nat.add_comm]
    have hfilter := (h.take n).filter_lt (n - historyLimit)
    rw [Nat.add_sub_cancel] at hfilter
    rw [holdest, ← hfilter]
    rfl

/-- Without a gap the replay holds every event after the cursor. -/
lemma replayAfter_some (h : Consecutive BufferedEvent.seq 1 published) (hn : n ≤ published.length)
    {cursor latest : Nat} (hgap : replayGap (some cursor)
      (((published.take n).drop (n - historyLimit)).head?.map BufferedEvent.seq) latest = false) :
    replayAfter (some cursor) ((published.take n).drop (n - historyLimit)) =
        (published.take n).drop cursor ∧
      ∀ oldest, (published.take n).filter (wanted (some cursor) oldest) =
        (published.take n).drop cursor := by
  have hpos : 0 < historyLimit := by decide
  have hall : ∀ oldest, (published.take n).filter (wanted (some cursor) oldest) =
      (published.take n).drop cursor := by
    intro oldest
    have hfilter := (h.take n).filter_lt cursor
    rw [Nat.add_sub_cancel] at hfilter
    exact hfilter
  refine ⟨?_, hall⟩
  have hfilter := ((h.take n).drop (n - historyLimit)).filter_lt cursor
  rcases Nat.eq_zero_or_pos n with rfl | hpositive
  · simp [replayAfter]
  · have hlength : n - historyLimit < (published.take n).length := by
      rw [List.length_take]
      omega
    have hseq := ((h.take n).getElem? (List.getElem?_eq_getElem hlength))
    rw [List.head?_drop, List.getElem?_eq_getElem hlength, Option.map_some, hseq] at hgap
    simp only [replayGap, Option.any_some, Bool.or_eq_false_iff, decide_eq_false_iff_not] at hgap
    have hevicted : n - historyLimit ≤ cursor := by omega
    rw [List.drop_drop] at hfilter
    rw [show n - historyLimit + (cursor + 1 - (1 + (n - historyLimit))) = cursor by omega] at hfilter
    exact hfilter

/-- The first replay and cursor of a stream. -/
lemma follows_sampled {feed : Feed} (h : feed.Sequenced) {receiver : Nat}
    {retained : List BufferedEvent}
    (hs : (Subscriber.sampled receiver retained).Follows after feed) :
    ((Subscriber.sampled receiver retained).next capacity after feed).Follows after feed := by
  simp only [Subscriber.next, Subscriber.Follows] at hs ⊢
  obtain ⟨hreceiver, n, hn, hrn, hretained⟩ := hs
  rw [hretained]
  refine And.intro hreceiver fun hgap => ?_
  refine Exists.intro n (And.intro hn ?_)
  have hmem : ∀ event ∈ replayAfter after ((feed.published.take n).drop (n - historyLimit)),
      event ∈ feed.published.take n :=
    fun event hevent => List.mem_of_mem_drop (List.mem_of_mem_filter hevent)
  have holdest := oldest_le h.published hmem
  cases after with
  | none =>
    have hreplay : replayAfter none ((feed.published.take n).drop (n - historyLimit)) =
        (feed.published.take n).drop (n - historyLimit) := List.filter_eq_self.mpr fun _ _ => rfl
    rw [hreplay] at holdest ⊢
    refine ⟨?_, fun _ => ⟨hrn, holdest, ?_⟩⟩
    · rw [filter_oldest h.published hn, eventsOf_nil, List.append_nil]
    · rw [getLast_drop h.published hn]
      have hpos : 0 < historyLimit := by decide
      split
      · rfl
      · show max 0 0 = max n 0
        omega
  | some cursor =>
    obtain ⟨hreplay, hwanted⟩ := replayAfter_some h.published hn hgap
    rw [hreplay] at holdest ⊢
    refine ⟨?_, fun _ => ⟨hrn, holdest, ?_⟩⟩
    · rw [hwanted, eventsOf_nil, List.append_nil]
    · rw [getLast_drop h.published hn]
      split
      · rfl
      · show max 0 cursor = max n cursor
        omega

/-- One message further. -/
lemma take_succ_filter (hn : n < published.length) (p : BufferedEvent → Bool) :
    (published.take (n + 1)).filter p =
      (published.take n).filter p ++ if p published[n] then [published[n]] else [] := by
  rw [List.take_succ_eq_append_getElem hn, List.filter_append, List.filter_singleton, cond_eq_ite]

/-- The events a subscriber receives. -/
lemma follows_streaming {feed : Feed} (h : feed.Delivers) {gap : Bool}
    {replay : List BufferedEvent} {receiver cursor : Nat} {live : List StreamItem}
    (hs : (Subscriber.streaming gap replay receiver cursor live).Follows after feed) :
    ((Subscriber.streaming gap replay receiver cursor live).next capacity after feed).Follows
      after feed := by
  obtain ⟨hreceiver, hgap⟩ := hs
  unfold Subscriber.next
  by_cases hlagged : receiver + capacity < feed.sent.length
  · simp only [if_pos hlagged]
    refine ⟨Nat.sub_le _ _, fun hno => ?_⟩
    obtain ⟨n, hn, hdelivered, -⟩ := hgap hno
    refine ⟨n, hn, ?_, fun hall => by simp [isEvent] at hall⟩
    rw [eventsOf_append, ← hdelivered]
    split
    · exact congrArg _ (List.append_nil _)
    · rfl
  · simp only [if_neg hlagged]
    rcases hevent : feed.sent[receiver]? with _ | event
    · exact ⟨hreceiver, hgap⟩
    · have hlt := (List.getElem?_eq_some_iff.mp hevent).1
      have hpublished : feed.published[receiver]? = some event := by
        obtain ⟨rest, hrest⟩ := h.sent
        rw [← hrest, List.getElem?_append_left hlt, hevent]
      obtain ⟨hltp, hget⟩ := List.getElem?_eq_some_iff.mp hpublished
      have hseq := h.published.getElem? hpublished
      by_cases hseen : event.seq ≤ cursor
      · simp only [if_pos hseen]
        refine ⟨hlt, fun hno => ?_⟩
        obtain ⟨n, hn, hdelivered, hlive⟩ := hgap hno
        by_cases hall : live.all isEvent = true
        · obtain ⟨hrn, holdest, hcursor⟩ := hlive hall
          by_cases hcovered : receiver + 1 ≤ n
          · exact ⟨n, hn, hdelivered, fun _ => ⟨hcovered, holdest, hcursor⟩⟩
          · -- an event before the cursor that has not been published when the history was read
            obtain rfl : n = receiver := by omega
            refine ⟨n + 1, hltp, ?_, fun _ => ⟨Nat.le_refl _, by omega, by omega⟩⟩
            rw [take_succ_filter hltp, hget, hdelivered]
            have hunwanted : wanted after (oldest replay) event = false := by
              cases after with
              | none =>
                simp only [Option.getD_none] at hcursor
                omega
              | some a =>
                simp only [Option.getD_some] at hcursor
                simp only [wanted, decide_eq_false_iff_not]
                omega
            simp [hunwanted]
        · exact ⟨n, hn, hdelivered, fun hall' => absurd hall' hall⟩
      · simp only [if_neg hseen]
        refine ⟨hlt, fun hno => ?_⟩
        obtain ⟨n, hn, hdelivered, hlive⟩ := hgap hno
        by_cases hall : live.all isEvent = true
        · obtain ⟨hrn, holdest, hcursor⟩ := hlive hall
          obtain rfl : n = receiver := by omega
          refine ⟨n + 1, hltp, ?_, fun _ => ⟨Nat.le_refl _, by omega, by omega⟩⟩
          have hwanted : wanted after (oldest replay) event = true := by
            cases after with
            | none =>
              simp only [wanted, decide_eq_true_eq]
              omega
            | some a =>
              simp only [Option.getD_some] at hcursor
              simp only [wanted, decide_eq_true_eq]
              omega
          rw [eventsOf_append, if_pos hall, take_succ_filter hltp, hget, ← List.append_assoc,
            hdelivered, hwanted]
          rfl
        · refine ⟨n, hn, ?_, fun hall' => ?_⟩
          · rw [eventsOf_append, if_neg hall, hdelivered]
          · rw [List.all_append, Bool.and_eq_true] at hall'
            exact absurd hall'.1 hall

end

/-! ### Runs -/

structure Session.Delivers (after : Option Nat) (s : Session) : Prop where
  feed : s.feed.Delivers
  subscriber : s.subscriber.Follows after s.feed

lemma Session.delivers_step {s : Session} (h : s.Delivers after) {op : SessionOp}
    (horder : s.InOrder op) : (s.step fromStr capacity after op).Delivers after := by
  cases op with
  | publish op =>
    obtain ⟨hpublished, hsent⟩ := @Feed.step_grows fromStr s.feed op
    exact ⟨Feed.delivers_step h.feed horder.1 horder.2, h.subscriber.publish hpublished hsent⟩
  | next =>
    refine ⟨h.feed, ?_⟩
    have hsubscriber := h.subscriber
    show (s.subscriber.next capacity after s.feed).Follows after s.feed
    cases hs : s.subscriber with
    | absent => exact Nat.le_refl _
    | subscribed receiver =>
      rw [hs] at hsubscriber
      refine ⟨hsubscriber, s.feed.published.length, Nat.le_refl _, ?_, ?_⟩
      · exact Nat.le_trans hsubscriber h.feed.sent.length_le
      · rw [List.take_length]
        exact h.feed.history
    | sampled receiver retained =>
      rw [hs] at hsubscriber
      exact follows_sampled h.feed.toSequenced hsubscriber
    | streaming gap replay receiver cursor live =>
      rw [hs] at hsubscriber
      exact follows_streaming h.feed hsubscriber

lemma Session.delivers {ops : List SessionOp}
    (h : Run.Meets (Session.step fromStr capacity after) Session.InOrder Session.start ops) :
    (Session.run fromStr capacity after ops).Delivers after := by
  refine h.invariant (P := fun s : Session => s.Delivers after)
    (fun _ _ h horder => Session.delivers_step h horder) ⟨?_, trivial⟩
  refine ⟨⟨consecutive_nil _ _, outstanding_nil 0, Nat.le_refl 0, rfl⟩, outstanding_nil 0,
    List.prefix_refl _, ?_, Nat.le_refl 0⟩
  intro p hp
  cases hp

/-- However publications and the steps of a subscriber interleave: when there is no gap, what the
subscriber has been given up to the first request to resynchronize is what has been published after
its cursor, or from the oldest retained event on, up to some number; and as long as it has not been
overtaken it has been given everything its receiver has gone through. -/
theorem Session.run_delivers (fromStr : String → Option Value) (capacity : Nat)
    (after : Option Nat) (ops : List SessionOp)
    (h : Run.Meets (Session.step fromStr capacity after) Session.InOrder Session.start ops)
    (replay : List BufferedEvent) (receiver cursor : Nat) (live : List StreamItem)
    (hs : (Session.run fromStr capacity after ops).subscriber =
      .streaming false replay receiver cursor live) :
    let feed := (Session.run fromStr capacity after ops).feed
    Consecutive BufferedEvent.seq 1 feed.published ∧ feed.sent <+: feed.published ∧
      receiver ≤ feed.sent.length ∧ ∃ n ≤ feed.published.length,
        replay ++ eventsOf live = (feed.published.take n).filter (wanted after (oldest replay)) ∧
        (live.all isEvent = true → receiver ≤ n) := by
  have hdelivers := Session.delivers h
  have hsubscriber := hdelivers.subscriber
  rw [hs] at hsubscriber
  obtain ⟨hreceiver, hgap⟩ := hsubscriber
  obtain ⟨n, hn, hdelivered, hlive⟩ := hgap rfl
  exact ⟨hdelivers.feed.published, hdelivers.feed.sent, hreceiver, n, hn, hdelivered,
    fun hall => (hlive hall).1⟩

/-- One publication before and one after a subscription without a cursor. -/
def subscribedBetween : List SessionOp :=
  let publication : List SessionOp :=
    [.publish (.issue (.object [("type", .string "message")])), .publish (.project 0),
      .publish (.retain 0), .publish (.send 0)]
  publication ++ [.next, .next, .next] ++ publication ++ [.next]

lemma subscribedBetween_inOrder :
    Run.Meets (Session.step (fun _ => none) 512 none) Session.InOrder Session.start
      subscribedBetween := by
  have hretain : ∀ (f : Feed) (p : Publication), f.inFlight = [p] → p.stage ≠ .retained →
      f.InOrder (.retain 0) := by
    intro f p hp hstage p' hp' seq hseq
    rw [hp] at hp'
    obtain rfl := Option.some.inj hp'
    rw [Feed.unretained, hp, List.filter_cons_of_pos (by simpa using hstage)] at hseq
    rw [List.mem_singleton.mp hseq]
  have hsend : ∀ (f : Feed) (p : Publication), f.inFlight = [p] → f.SendsInOrder (.send 0) := by
    intro f p hp p' hp' q hq
    rw [hp] at hp' hq
    obtain rfl := Option.some.inj hp'
    rw [List.mem_singleton.mp hq]
  refine ⟨⟨trivial, trivial⟩, ⟨trivial, trivial⟩, ⟨hretain _ _ rfl (by decide), trivial⟩,
    ⟨trivial, hsend _ _ rfl⟩, trivial, trivial, trivial, ⟨trivial, trivial⟩, ⟨trivial, trivial⟩,
    ⟨hretain _ _ rfl (by decide), trivial⟩, ⟨trivial, hsend _ _ rfl⟩, trivial, trivial⟩

def subscribedSession : Session :=
  Session.run (fun _ => none) 512 none subscribedBetween

def messageEvent (seq : Nat) : BufferedEvent := ⟨seq, .object [("type", .string "message")]⟩

set_option maxRecDepth 4000 in
lemma subscribedSession_subscriber :
    subscribedSession.subscriber =
      .streaming false [messageEvent 1] 2 2 [.event (messageEvent 2)] := rfl

theorem Session.run_delivers_between :
    ∃ n, [messageEvent 1] ++ eventsOf [.event (messageEvent 2)] =
        (subscribedSession.feed.published.take n).filter
          (wanted none (oldest [messageEvent 1])) ∧ 2 ≤ n := by
  obtain ⟨-, -, -, n, -, hdelivered, hlive⟩ :=
    Session.run_delivers _ _ _ _ subscribedBetween_inOrder _ _ _ _ subscribedSession_subscriber
  exact ⟨n, hdelivered, hlive rfl⟩

/-- The oldest retained event itself is replayed to a subscriber without a cursor. -/
theorem Session.oldest_delivered :
    ¬∀ (fromStr : String → Option Value) (capacity : Nat) (after : Option Nat)
      (ops : List SessionOp),
      Run.Meets (Session.step fromStr capacity after) Session.InOrder Session.start ops →
      ∀ replay receiver cursor live, (Session.run fromStr capacity after ops).subscriber =
          .streaming false replay receiver cursor live →
        ∀ event ∈ replay ++ eventsOf live, after.getD (oldest replay) < event.seq := by
  intro h
  have hall := h _ _ _ _ subscribedBetween_inOrder _ _ _ _ subscribedSession_subscriber
  exact absurd (hall _ List.mem_cons_self) (by decide)

end Host
