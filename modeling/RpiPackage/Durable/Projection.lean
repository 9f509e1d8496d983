import RpiPackage.Durable.Core
import RpiPackage.Lib.Rising
import RpiPackage.Lib.Run

/-!
# The projection and its subscribers

A runtime replays the branch into its projection and publishes what it reads. A subscriber takes a
receiver, the projection, and then the retained changes after its cursor; the changes it receives
from then on are suppressed up to the last revision it has seen. The steps of the refreshes and of
the subscribers come in any order.
-/

namespace Durable

open Json

def maxChangeEntries : Nat := 128

/-- A published state under its revision. -/
structure DurableChange where
  revision : UInt64
  state : DurableState
  agrees : revision = state.revision

/-- A refresh holds its lock until it has sent what it stored. -/
inductive Refresh where
  | idle
  | stored (change : DurableChange)
  | retained (change : DurableChange)

structure DurableRuntime where
  projection : DurableState
  history : List DurableChange
  sent : List DurableChange
  refresh : Refresh

def DurableRuntime.new (state : DurableState) : DurableRuntime := ⟨state, [], [], .idle⟩

/-- A stream of changes, with the last state its subscriber has applied. -/
structure DurableStream where
  state : DurableState
  gap : Bool
  replay : List DurableChange
  receiver : Nat
  cursor : UInt64
  resync : List Nat

/-- `subscribe_changes` and the stream of its changes, by the steps they have taken. A subscriber
hands its cursor to the stream as it is, or the revision of `ready` when it has none. -/
inductive Subscriber where
  | absent
  | subscribed (after : Option UInt64) (orReady : Bool) (receiver : Nat)
  | ready (after : Option UInt64) (orReady : Bool) (receiver : Nat) (ready : DurableState)
  | streaming (stream : DurableStream)

structure Projections where
  runtime : DurableRuntime
  subscribers : Nat → Subscriber

def Projections.start (state : DurableState) : Projections :=
  ⟨.new state, fun _ => .absent⟩

inductive ProjectionOp where
  | refresh (entries : Except String (List Value))
  /-- The refresh takes its next step. -/
  | publish
  | subscribe (client : Nat) (after : Option UInt64) (orReady : Bool)
  /-- The subscriber takes its next step. -/
  | next (client : Nat)

/-- What a branch is projected to. -/
def project (entries : Except String (List Value)) : Except String DurableState :=
  entries >>= Core.tryFromBranch

namespace DurableRuntime

def refreshBranch (r : DurableRuntime) (entries : Except String (List Value)) : DurableRuntime :=
  match r.refresh, project entries with
  | .idle, .ok next =>
    if r.projection = next then r
    else
      { r with
        projection := next
        -- an empty state is not published
        refresh := if next.revision = 0 then .idle else .stored ⟨next.revision, next, rfl⟩ }
  | _, _ => r

def retain (changes : List DurableChange) : List DurableChange :=
  Rising.newest maxChangeEntries changes

def publish (r : DurableRuntime) : DurableRuntime :=
  match r.refresh with
  | .idle => r
  | .stored change =>
    { r with history := retain (r.history ++ [change]), refresh := .retained change }
  | .retained change => { r with sent := r.sent ++ [change], refresh := .idle }

end DurableRuntime

/-- The retained changes after a cursor. -/
def replayAfter (after : Option UInt64) (history : List DurableChange) : List DurableChange :=
  history.filter fun change => after.all fun cursor => decide (cursor < change.revision)

def changesGap (after first : Option UInt64) (latest : UInt64) : Bool :=
  after.any fun cursor =>
    decide (cursor < latest) && first.all fun first => decide (Rust.saturatingSucc cursor < first)

/-- The revision up to which a stream suppresses what it receives. -/
def replayCursor (replay : List DurableChange) (after : Option UInt64) : UInt64 :=
  max ((replay.getLast?.map DurableChange.revision).getD 0) (after.getD 0)

def DurableStream.next (sent : List DurableChange) (s : DurableStream) : DurableStream :=
  match s.replay with
  | change :: replay => { s with state := change.state, replay }
  | [] =>
    -- a receiver that has been overtaken goes on with the oldest message of the channel
    if s.receiver + maxChangeEntries < sent.length then
      let oldest := sent.length - maxChangeEntries
      { s with receiver := oldest, resync := s.resync ++ [oldest - s.receiver] }
    else
      match sent[s.receiver]? with
      | none => s
      | some change =>
        if change.revision ≤ s.cursor then { s with receiver := s.receiver + 1 }
        else
          { s with state := change.state, receiver := s.receiver + 1, cursor := change.revision }

def Subscriber.next (r : DurableRuntime) : Subscriber → Subscriber
  | .absent => .absent
  | .subscribed after orReady receiver => .ready after orReady receiver r.projection
  | .ready after orReady receiver state =>
    let replay := replayAfter after r.history
    .streaming {
      state
      gap := changesGap after (r.history.head?.map DurableChange.revision) state.revision
      replay
      receiver
      cursor := replayCursor replay (if orReady then after.or (some state.revision) else after)
      resync := [] }
  | .streaming stream => .streaming (stream.next r.sent)

namespace Projections

def setSubscriber (s : Projections) (client : Nat) (subscriber : Subscriber) : Projections :=
  { s with subscribers := Function.update s.subscribers client subscriber }

def step (s : Projections) : ProjectionOp → Projections
  | .refresh entries => { s with runtime := s.runtime.refreshBranch entries }
  | .publish => { s with runtime := s.runtime.publish }
  | .subscribe client after orReady =>
    match s.subscribers client with
    | .absent => s.setSubscriber client (.subscribed after orReady s.runtime.sent.length)
    | _ => s
  | .next client => s.setSubscriber client ((s.subscribers client).next s.runtime)

def run (state : DurableState) (ops : List ProjectionOp) : Projections :=
  Run.after step (start state) ops

/-! ### Rising revisions -/

/-- A refresh that changes the projection raises its revision; a subscriber has not seen more than
the projection it is handed, and does not fall back on a revision that is about to be published. -/
def Orderly (s : Projections) : ProjectionOp → Prop
  | .refresh entries => s.runtime.refresh = .idle → ∀ next, project entries = .ok next →
      s.runtime.projection = next ∨ s.runtime.projection.revision < next.revision
  | .next client => ∀ after orReady receiver ready,
      s.subscribers client = .ready after orReady receiver ready →
        (∀ cursor ∈ after, cursor ≤ ready.revision) ∧
          (orReady = true → after = none → ∀ change, s.runtime.refresh = .stored change →
            change.state = ready → s.runtime.history = [])
  | _ => True

end Projections

open Rising

namespace Refresh

/-- The change a refresh has yet to send. -/
def pending : Refresh → List DurableChange
  | .idle => []
  | .stored change => [change]
  | .retained change => [change]

/-- The change a refresh has retained and has yet to send. -/
def unsent : Refresh → List DurableChange
  | .idle => []
  | .stored _ => []
  | .retained change => [change]

end Refresh

namespace DurableRuntime

variable {r : DurableRuntime} {c : DurableChange}

/-- The number a change is ordered by. -/
def number (c : DurableChange) : Nat := c.revision.toNat

/-- The changes that are sent sooner or later. -/
def published (r : DurableRuntime) : List DurableChange := r.sent ++ r.refresh.pending

/-- The changes published so far rise up to the projection, and the newest are retained. -/
structure Settled (r : DurableRuntime) : Prop where
  rises : Rises number r.published
  last : ∀ change ∈ r.published.getLast?, change.state = r.projection
  history : r.history = retain (r.sent ++ r.refresh.unsent)

lemma retain_nil : retain [] = [] := by
  rw [retain, newest_nil]

lemma retain_append (changes : List DurableChange) (change : DurableChange) :
    retain (retain changes ++ [change]) = retain (changes ++ [change]) := by
  simp only [retain, newest_append]

lemma mem_of_mem_retain {changes : List DurableChange} (hc : c ∈ retain changes) : c ∈ changes := by
  rw [retain] at hc
  exact mem_of_mem_newest hc

lemma getLast?_retain {changes : List DurableChange} (hlast : changes.getLast? = some c) :
    (retain changes).getLast? = some c := by
  rw [retain]
  exact getLast?_newest (by decide) hlast

lemma Settled.le (h : r.Settled) (hc : c ∈ r.published) : c.revision ≤ r.projection.revision := by
  rw [UInt64.le_iff_toNat_le]
  obtain ⟨last, hlast⟩ : ∃ last, r.published.getLast? = some last :=
    List.getLast?_isSome.mpr (List.ne_nil_of_mem hc) |> Option.isSome_iff_exists.mp
  rw [← h.last last hlast, ← last.agrees]
  exact h.rises.le_last hlast hc

lemma Settled.last_revision (h : r.Settled) (hlast : r.published.getLast? = some c) :
    c.revision = r.projection.revision := by
  rw [c.agrees, h.last c hlast]

lemma Settled.mem_published (h : r.Settled) (hc : c ∈ r.history) : c ∈ r.published := by
  rw [h.history] at hc
  have hmem := mem_of_mem_retain hc
  rw [List.mem_append] at hmem
  rw [published, List.mem_append]
  refine hmem.imp_right ?_
  rcases r.refresh with _ | change | change
  · exact id
  · exact fun h => absurd h List.not_mem_nil
  · exact id

lemma settled_new (state : DurableState) : (new state).Settled :=
  ⟨rises_nil _, fun _ hlast => absurd hlast (Option.not_mem_none _), retain_nil.symm⟩

lemma refreshBranch_outcome {entries : Except String (List Value)}
    (hrises : r.refresh = .idle → ∀ next, project entries = .ok next →
      r.projection = next ∨ r.projection.revision < next.revision) :
    r.refreshBranch entries = r ∨
      r.refresh = .idle ∧ ∃ next, r.projection.revision < next.revision ∧
        r.refreshBranch entries =
          { r with projection := next, refresh := .stored ⟨next.revision, next, rfl⟩ } := by
  unfold refreshBranch
  split
  · rename_i next hidle hnext
    split
    · exact .inl rfl
    · rename_i hne
      have hlt := (hrises hidle next hnext).resolve_left hne
      refine .inr ⟨hidle, next, hlt, ?_⟩
      rw [if_neg]
      intro hzero
      rw [hzero, UInt64.lt_iff_toNat_lt] at hlt
      exact Nat.not_lt_zero _ hlt
  · exact .inl rfl

/-- A refresh that has stored a later state settles with it. -/
lemma Settled.store (h : r.Settled) (hidle : r.refresh = .idle) {next : DurableState}
    (hlt : r.projection.revision < next.revision) :
    Settled { r with projection := next, refresh := .stored ⟨next.revision, next, rfl⟩ } := by
  have hsent : r.published = r.sent := by
    rw [published, hidle]
    exact List.append_nil _
  refine ⟨?_, ?_, ?_⟩
  · show Rises number (r.sent ++ [_])
    rw [← hsent, rises_append_singleton]
    refine ⟨h.rises, ?_⟩
    intro c hc
    exact Nat.lt_of_le_of_lt (UInt64.le_iff_toNat_le.mp (h.le hc)) (UInt64.lt_iff_toNat_lt.mp hlt)
  · intro c hc
    show c.state = next
    rw [published, Refresh.pending, List.getLast?_concat] at hc
    obtain rfl := Option.some.inj hc
    rfl
  · have hhistory := h.history
    rw [hidle] at hhistory
    exact hhistory

lemma published_publish (r : DurableRuntime) : r.publish.published = r.published := by
  rcases hrefresh : r.refresh with _ | change | change
  · simp only [publish, hrefresh]
  · simp only [publish, published, hrefresh, Refresh.pending]
  · simp only [publish, published, hrefresh, Refresh.pending, List.append_nil]

lemma projection_publish (r : DurableRuntime) : r.publish.projection = r.projection := by
  unfold publish
  split <;> rfl

lemma Settled.publish (h : r.Settled) : r.publish.Settled := by
  refine ⟨?_, ?_, ?_⟩
  · rw [published_publish]
    exact h.rises
  · rw [published_publish, projection_publish]
    exact h.last
  · have hhistory := h.history
    rcases hrefresh : r.refresh with _ | change | change
    · rw [show r.publish = r by simp only [DurableRuntime.publish, hrefresh]]
      exact h.history
    · simp only [DurableRuntime.publish, hrefresh, Refresh.unsent, List.append_nil] at hhistory ⊢
      rw [hhistory, retain_append]
    · simp only [DurableRuntime.publish, hrefresh, Refresh.unsent, List.append_nil] at hhistory ⊢
      exact hhistory

lemma sent_prefix_publish (r : DurableRuntime) : r.sent.length ≤ r.publish.sent.length := by
  unfold publish
  split
  · exact Nat.le_refl _
  · exact Nat.le_refl _
  · simp

end DurableRuntime

/-! ### Subscribers -/

/-- The state of a stream at the end of its replay. -/
def DurableStream.replayed (s : DurableStream) : DurableState :=
  (s.replay.getLast?.map DurableChange.state).getD s.state

/-- A stream replays to the projection and suppresses what it has yet to receive, or it has yet to
receive the projection and does not suppress it. -/
structure DurableStream.Follows (s : DurableStream) (r : DurableRuntime) : Prop where
  receiver : s.receiver ≤ r.sent.length
  cursor : s.cursor ≤ r.projection.revision
  reaches : (s.replayed = r.projection ∧
      ∀ change ∈ r.published.drop s.receiver, change.revision ≤ s.cursor) ∨
    (s.receiver < r.published.length ∧ s.cursor < r.projection.revision)

def Subscriber.Follows (r : DurableRuntime) : Subscriber → Prop
  | .absent => True
  | .subscribed _ _ receiver => receiver ≤ r.sent.length
  | .ready _ _ receiver state => receiver ≤ r.sent.length ∧
    (state = r.projection ∨
      receiver < r.published.length ∧ state.revision < r.projection.revision)
  | .streaming stream => stream.Follows r

section

variable {r : DurableRuntime} {subscriber : Subscriber}

lemma Subscriber.Follows.publish (h : subscriber.Follows r) : subscriber.Follows r.publish := by
  have hsent := r.sent_prefix_publish
  cases subscriber with
  | absent => exact h
  | subscribed after orReady receiver => exact Nat.le_trans h hsent
  | ready after orReady receiver state =>
    obtain ⟨hreceiver, hstate⟩ := h
    refine ⟨Nat.le_trans hreceiver hsent, ?_⟩
    rw [r.published_publish, r.projection_publish]
    exact hstate
  | streaming stream =>
    refine ⟨Nat.le_trans h.receiver hsent, ?_, ?_⟩
    · rw [r.projection_publish]
      exact h.cursor
    · rw [r.published_publish, r.projection_publish]
      exact h.reaches

/-- A later state reaches every subscriber. -/
lemma Subscriber.Follows.store (h : subscriber.Follows r) {next : DurableState}
    (hlt : r.projection.revision < next.revision) :
    subscriber.Follows
      { r with projection := next, refresh := .stored ⟨next.revision, next, rfl⟩ } := by
  have hreaches : ∀ receiver ≤ r.sent.length,
      receiver < (r.sent ++ [DurableChange.mk next.revision next rfl]).length := by
    intro receiver hreceiver
    rw [List.length_append, List.length_singleton]
    exact Nat.lt_succ_of_le hreceiver
  cases subscriber with
  | absent => exact h
  | subscribed after orReady receiver => exact h
  | ready after orReady receiver state =>
    obtain ⟨hreceiver, hstate⟩ := h
    refine ⟨hreceiver, .inr ⟨hreaches receiver hreceiver, ?_⟩⟩
    rcases hstate with rfl | ⟨-, hstate⟩
    · exact hlt
    · exact UInt64.lt_trans hstate hlt
  | streaming stream =>
    have hcursor := UInt64.lt_of_le_of_lt h.cursor hlt
    exact ⟨h.receiver, UInt64.le_of_lt hcursor, .inr ⟨hreaches _ h.receiver, hcursor⟩⟩

/-- A stream steps along. -/
lemma DurableStream.Follows.next {stream : DurableStream} (hr : r.Settled)
    (h : stream.Follows r) : (stream.next r.sent).Follows r := by
  have hpublished : r.sent.length ≤ r.published.length := by
    rw [DurableRuntime.published, List.length_append]
    exact Nat.le_add_right _ _
  unfold DurableStream.next
  split
  · rename_i change replay hreplay
    refine ⟨h.receiver, h.cursor, ?_⟩
    have hreplayed : DurableStream.replayed { stream with state := change.state, replay } =
        stream.replayed := by
      unfold DurableStream.replayed
      rw [hreplay, List.getLast?_cons]
      rcases replay.getLast? with _ | last <;> rfl
    rw [hreplayed]
    exact h.reaches
  · rename_i hreplay
    split
    · rename_i hlag
      have hpos : 0 < maxChangeEntries := by decide
      generalize maxChangeEntries = capacity at hlag hpos ⊢
      refine ⟨Nat.sub_le _ _, h.cursor, ?_⟩
      refine h.reaches.imp (And.imp_right fun hseen => ?_) (And.imp_left fun _ => ?_)
      · intro change hchange
        refine hseen change ?_
        have hskip : r.sent.length - capacity =
            stream.receiver + (r.sent.length - capacity - stream.receiver) := by omega
        rw [hskip, ← List.drop_drop] at hchange
        exact List.mem_of_mem_drop hchange
      · show r.sent.length - capacity < r.published.length
        omega
    · split
      · exact h
      · rename_i change hchange
        obtain ⟨hlt, -⟩ := List.getElem?_eq_some_iff.mp hchange
        have hget : r.published[stream.receiver]? = some change := by
          rw [DurableRuntime.published, List.getElem?_append_left hlt]
          exact hchange
        have hdrop : r.published.drop stream.receiver =
            change :: r.published.drop (stream.receiver + 1) := by
          obtain ⟨hlt', rfl⟩ := List.getElem?_eq_some_iff.mp hget
          exact List.drop_eq_getElem_cons hlt'
        -- the last message is the projection
        have hlast : r.published.length ≤ stream.receiver + 1 →
            change.state = r.projection := fun hle => hr.last change (getLast?_of_getElem? hget hle)
        split
        · rename_i hseen
          refine ⟨hlt, h.cursor, ?_⟩
          rcases h.reaches with ⟨hreplayed, hcovered⟩ | ⟨hreceiver, hcursor⟩
          · refine .inl ⟨hreplayed, ?_⟩
            intro change' hchange'
            exact hcovered change' (by rw [hdrop]; exact List.mem_cons_of_mem _ hchange')
          · refine .inr ⟨?_, hcursor⟩
            show stream.receiver + 1 < r.published.length
            by_contra hnot
            have hrevision := change.agrees
            rw [hlast (Nat.le_of_not_lt hnot)] at hrevision
            rw [hrevision, UInt64.le_iff_toNat_le] at hseen
            rw [UInt64.lt_iff_toNat_lt] at hcursor
            omega
        · rename_i hnew
          have hle := hr.le (List.mem_of_getElem? hget)
          refine ⟨hlt, hle, ?_⟩
          by_cases hend : r.published.length ≤ stream.receiver + 1
          · refine .inl ⟨?_, ?_⟩
            · show ((stream.replay.getLast?.map DurableChange.state).getD change.state) = _
              rw [hreplay]
              exact hlast hend
            · rw [List.drop_eq_nil_of_le hend]
              exact fun _ hnil => absurd hnil List.not_mem_nil
          · rw [Nat.not_le] at hend
            refine .inr ⟨hend, ?_⟩
            obtain ⟨last, hgetLast⟩ : ∃ last, r.published.getLast? = some last := by
              rw [← Option.isSome_iff_exists, List.getLast?_isSome]
              exact List.ne_nil_of_mem (List.mem_of_getElem? hget)
            show change.revision < r.projection.revision
            rw [UInt64.lt_iff_toNat_lt, ← hr.last_revision hgetLast]
            exact hr.rises.lt_last hgetLast hget hend

/-! ### The replay of a subscriber -/

section

variable {replay : List DurableChange} {after : Option UInt64} {revision : UInt64}

lemma replayCursor_le (hlast : ∀ change ∈ replay.getLast?, change.revision ≤ revision)
    (hafter : ∀ cursor ∈ after, cursor ≤ revision) : replayCursor replay after ≤ revision := by
  rw [UInt64.le_iff_toNat_le, replayCursor, Rust.toNat_max]
  apply Nat.max_le.mpr
  constructor
  · rcases hreplay : replay.getLast? with _ | change
    · exact Nat.zero_le _
    · exact UInt64.le_iff_toNat_le.mp (hlast change hreplay)
  · rcases after with _ | cursor
    · exact Nat.zero_le _
    · exact UInt64.le_iff_toNat_le.mp (hafter cursor rfl)

lemma replayCursor_lt (hpos : 0 < revision)
    (hlast : ∀ change ∈ replay.getLast?, change.revision < revision)
    (hafter : ∀ cursor ∈ after, cursor < revision) : replayCursor replay after < revision := by
  rw [UInt64.lt_iff_toNat_lt, replayCursor, Rust.toNat_max]
  apply Nat.max_lt.mpr
  constructor
  · rcases hreplay : replay.getLast? with _ | change
    · exact UInt64.lt_iff_toNat_lt.mp hpos
    · exact UInt64.lt_iff_toNat_lt.mp (hlast change hreplay)
  · rcases after with _ | cursor
    · exact UInt64.lt_iff_toNat_lt.mp hpos
    · exact UInt64.lt_iff_toNat_lt.mp (hafter cursor rfl)

lemma le_replayCursor_of_last {change : DurableChange} (hlast : replay.getLast? = some change) :
    change.revision ≤ replayCursor replay after := by
  rw [UInt64.le_iff_toNat_le, replayCursor, Rust.toNat_max, hlast]
  exact Nat.le_max_left _ _

lemma le_replayCursor_of_after {cursor : UInt64} (hafter : after = some cursor) :
    cursor ≤ replayCursor replay after := by
  rw [UInt64.le_iff_toNat_le, replayCursor, Rust.toNat_max, hafter]
  exact Nat.le_max_right _ _

end

lemma mem_replayAfter {after : Option UInt64} {history : List DurableChange}
    {change : DurableChange} : change ∈ replayAfter after history ↔
      change ∈ history ∧ ∀ cursor ∈ after, cursor < change.revision := by
  rw [replayAfter, List.mem_filter]
  rcases after with _ | cursor
  · simp
  · simp

/-- The cursor a subscriber hands to its stream. -/
def handedOver (after : Option UInt64) (orReady : Bool) (state : DurableState) : Option UInt64 :=
  if orReady then after.or (some state.revision) else after

lemma handedOver_some (cursor : UInt64) (orReady : Bool) (state : DurableState) :
    handedOver (some cursor) orReady state = some cursor := by
  cases orReady <;> rfl

lemma handedOver_le {after : Option UInt64} {state : DurableState}
    (hafter : ∀ cursor ∈ after, cursor ≤ state.revision) (orReady : Bool) :
    ∀ cursor ∈ handedOver after orReady state, cursor ≤ state.revision := by
  rcases after with _ | after
  · cases orReady with
    | false => exact nofun
    | true =>
      intro cursor hcursor
      rw [← Option.some.inj hcursor]
      exact UInt64.le_refl _
  · rw [handedOver_some]
    exact hafter

/-- What has been retained ends as what is published does, unless a refresh has just stored. -/
lemma DurableRuntime.Settled.getLast?_history (hr : r.Settled)
    (hstored : ∀ change, r.refresh ≠ .stored change) {change : DurableChange}
    (hlast : r.published.getLast? = some change) : r.history.getLast? = some change := by
  rw [hr.history]
  apply DurableRuntime.getLast?_retain
  rw [← hlast, DurableRuntime.published]
  rcases hrefresh : r.refresh with _ | stored | retained
  · rfl
  · exact absurd hrefresh (hstored stored)
  · rfl

/-- A replay that ends with the projection, or of a subscriber that holds it. -/
lemma replayed_of_retained (hr : r.Settled) (hstored : ∀ change, r.refresh ≠ .stored change)
    {after : Option UInt64} (orReady : Bool) {receiver : Nat} {state : DurableState}
    (hstate : state = r.projection ∨
      receiver < r.published.length ∧ state.revision < r.projection.revision)
    (hafter : ∀ cursor ∈ after, cursor ≤ state.revision) :
    ((replayAfter after r.history).getLast?.map DurableChange.state).getD state = r.projection ∧
      ∀ change ∈ r.published, change.revision ≤
        replayCursor (replayAfter after r.history) (handedOver after orReady state) := by
  rcases hlast : r.published.getLast? with _ | last
  · have hnil := List.getLast?_eq_none_iff.mp hlast
    have hhistory : r.history = [] := by
      refine List.eq_nil_iff_forall_not_mem.mpr ?_
      intro change hchange
      have hmem := hr.mem_published hchange
      rw [hnil] at hmem
      exact List.not_mem_nil hmem
    rw [hnil, hhistory]
    refine ⟨?_, fun _ hnil => absurd hnil List.not_mem_nil⟩
    rcases hstate with rfl | ⟨hreceiver, -⟩
    · rfl
    · rw [hnil] at hreceiver
      exact absurd hreceiver (Nat.not_lt_zero _)
  · have hrevision := hr.last_revision hlast
    have hretained := hr.getLast?_history hstored hlast
    by_cases habove : ∀ cursor ∈ after, cursor < last.revision
    · have hreplay : (replayAfter after r.history).getLast? = some last := by
        refine getLast?_filter hretained ?_
        rcases after with _ | cursor
        · rfl
        · exact decide_eq_true (habove cursor rfl)
      rw [hreplay]
      refine ⟨hr.last last hlast, ?_⟩
      intro change hchange
      refine UInt64.le_trans (hr.le hchange) ?_
      rw [← hrevision]
      exact le_replayCursor_of_last hreplay
    · rw [not_forall] at habove
      obtain ⟨cursor, habove⟩ := habove
      rw [Classical.not_imp] at habove
      obtain ⟨rfl, hnot⟩ := habove
      rw [UInt64.not_lt, hrevision] at hnot
      have hcursor := hafter cursor rfl
      have heq : state = r.projection := by
        refine hstate.resolve_right ?_
        rintro ⟨-, hlt⟩
        rw [UInt64.le_iff_toNat_le] at hnot hcursor
        rw [UInt64.lt_iff_toNat_lt] at hlt
        omega
      have hreplay : replayAfter (some cursor) r.history = [] := by
        refine List.eq_nil_iff_forall_not_mem.mpr ?_
        intro change hchange
        obtain ⟨hmem, hlt⟩ := mem_replayAfter.mp hchange
        have hbound := UInt64.le_trans (hr.le (hr.mem_published hmem)) hnot
        exact UInt64.not_lt.mpr hbound (hlt cursor rfl)
      rw [hreplay]
      refine ⟨heq, ?_⟩
      intro change hchange
      exact UInt64.le_trans (hr.le hchange)
        (UInt64.le_trans hnot (le_replayCursor_of_after (handedOver_some cursor orReady state)))

/-- A replay while the projection is about to be retained. -/
lemma replayed_of_stored (hr : r.Settled) {stored : DurableChange}
    (hstored : r.refresh = .stored stored) {after : Option UInt64} {orReady : Bool}
    {receiver : Nat} {state : DurableState}
    (hstate : state = r.projection ∨
      receiver < r.published.length ∧ state.revision < r.projection.revision)
    (hafter : ∀ cursor ∈ after, cursor ≤ state.revision)
    (hrace : orReady = true → after = none → stored.state = state → r.history = [])
    (hcursor : ¬replayCursor (replayAfter after r.history) (handedOver after orReady state) <
      r.projection.revision) :
    replayAfter after r.history = [] ∧ state = r.projection := by
  have hhanded := handedOver_le hafter orReady
  have hpublished : r.published = r.sent ++ [stored] := by
    rw [DurableRuntime.published, hstored]
    rfl
  have hprojection : stored.state = r.projection := by
    refine hr.last stored ?_
    rw [hpublished, List.getLast?_concat]
    rfl
  -- what has been retained precedes the projection
  have hbelow : ∀ change ∈ r.history, change.revision < r.projection.revision := by
    intro change hchange
    have hsent : change ∈ r.sent := by
      have hhistory := hr.history
      rw [hstored, Refresh.unsent, List.append_nil] at hhistory
      rw [hhistory] at hchange
      exact DurableRuntime.mem_of_mem_retain hchange
    have hrises := hr.rises
    rw [hpublished, rises_append_singleton] at hrises
    rw [← hprojection, ← stored.agrees]
    exact hrises.2 change hsent
  have hreplay : replayAfter after r.history = [] := by
    by_contra hne
    obtain ⟨last, hlast⟩ : ∃ last, (replayAfter after r.history).getLast? = some last := by
      rw [← Option.isSome_iff_exists, List.getLast?_isSome]
      exact hne
    obtain ⟨hmem, habove⟩ := mem_replayAfter.mp (List.mem_of_getLast? hlast)
    have hlt := hbelow last hmem
    refine hcursor (replayCursor_lt ?_ ?_ ?_)
    · rw [UInt64.lt_iff_toNat_lt] at hlt ⊢
      exact Nat.lt_of_le_of_lt (Nat.zero_le _) hlt
    · intro change hchange
      obtain rfl := Option.some.inj (hlast.symm.trans hchange)
      exact hlt
    · rcases after with _ | cursor
      · cases orReady with
        | false => exact nofun
        | true =>
          intro cursor hcursor'
          obtain rfl := Option.some.inj hcursor'
          rcases hstate with rfl | ⟨-, hlt'⟩
          · rw [hrace rfl rfl hprojection] at hmem
            exact absurd hmem List.not_mem_nil
          · exact hlt'
      · rw [handedOver_some]
        intro cursor' hcursor'
        exact UInt64.lt_trans (habove cursor' hcursor') hlt
  refine ⟨hreplay, hstate.resolve_right ?_⟩
  rintro ⟨-, hlt⟩
  refine hcursor (UInt64.lt_of_le_of_lt (replayCursor_le ?_ hhanded) hlt)
  rw [hreplay]
  exact fun _ hnone => absurd hnone (Option.not_mem_none _)

/-- A subscriber that replays the retained changes follows the runtime from then on. -/
lemma Subscriber.Follows.replay (hr : r.Settled) {after : Option UInt64} {orReady : Bool}
    {receiver : Nat} {state : DurableState}
    (h : (Subscriber.ready after orReady receiver state).Follows r)
    (hafter : ∀ cursor ∈ after, cursor ≤ state.revision)
    (hrace : orReady = true → after = none → ∀ change, r.refresh = .stored change →
      change.state = state → r.history = []) :
    ((Subscriber.ready after orReady receiver state).next r).Follows r := by
  obtain ⟨hreceiver, hstate⟩ := h
  have hle : state.revision ≤ r.projection.revision := by
    rcases hstate with rfl | ⟨-, hlt⟩
    · exact UInt64.le_refl _
    · exact UInt64.le_of_lt hlt
  have hhanded := handedOver_le hafter orReady
  have hhanded' : ∀ cursor ∈ handedOver after orReady state, cursor ≤ r.projection.revision :=
    fun cursor hcursor => UInt64.le_trans (hhanded cursor hcursor) hle
  have hcursor : replayCursor (replayAfter after r.history) (handedOver after orReady state) ≤
      r.projection.revision := by
    refine replayCursor_le ?_ hhanded'
    intro change hlast
    exact hr.le (hr.mem_published (mem_replayAfter.mp (List.mem_of_getLast? hlast)).1)
  refine ⟨hreceiver, hcursor, ?_⟩
  by_cases hstored : ∃ stored, r.refresh = .stored stored
  · obtain ⟨stored, hstored⟩ := hstored
    by_cases hlt : replayCursor (replayAfter after r.history) (handedOver after orReady state) <
        r.projection.revision
    · refine .inr ⟨?_, hlt⟩
      show receiver < (r.sent ++ r.refresh.pending).length
      rw [hstored, List.length_append]
      exact Nat.lt_succ_of_le hreceiver
    · obtain ⟨hreplay, rfl⟩ := replayed_of_stored hr hstored hstate hafter
        (fun horReady hnone => hrace horReady hnone stored hstored) hlt
      refine .inl ⟨?_, ?_⟩
      · show ((replayAfter after r.history).getLast?.map _).getD _ = _
        rw [hreplay]
        rfl
      · intro change hchange
        exact UInt64.le_trans (hr.le (List.mem_of_mem_drop hchange)) (UInt64.not_lt.mp hlt)
  · rw [not_exists] at hstored
    obtain ⟨hreplayed, hcovered⟩ := replayed_of_retained hr hstored orReady hstate hafter
    exact .inl ⟨hreplayed, fun change hchange => hcovered change (List.mem_of_mem_drop hchange)⟩

end

/-! ### Runs -/

namespace Projections

/-- The runtime has settled and every subscriber follows it. -/
structure Follows (s : Projections) : Prop where
  settled : s.runtime.Settled
  subscribers : ∀ client, (s.subscribers client).Follows s.runtime

lemma follows_setSubscriber {s : Projections} (h : s.Follows) (client : Nat)
    {subscriber : Subscriber} (hsubscriber : subscriber.Follows s.runtime) :
    (s.setSubscriber client subscriber).Follows := by
  refine ⟨h.settled, ?_⟩
  intro other
  show (Function.update s.subscribers client subscriber other).Follows s.runtime
  by_cases heq : other = client
  · subst heq
    rw [Function.update_self]
    exact hsubscriber
  · rw [Function.update_of_ne heq]
    exact h.subscribers other

lemma follows_step (s : Projections) (op : ProjectionOp) (h : s.Follows) (horder : s.Orderly op) :
    (s.step op).Follows := by
  cases op with
  | refresh entries =>
    show Follows { s with runtime := s.runtime.refreshBranch entries }
    rcases DurableRuntime.refreshBranch_outcome horder with heq | ⟨hidle, next, hlt, heq⟩
    · rw [heq]
      exact h
    · rw [heq]
      exact ⟨h.settled.store hidle hlt, fun client => (h.subscribers client).store hlt⟩
  | publish => exact ⟨h.settled.publish, fun client => (h.subscribers client).publish⟩
  | subscribe client after orReady =>
    simp only [step]
    split
    · apply follows_setSubscriber h
      exact Nat.le_refl s.runtime.sent.length
    · exact h
  | next client =>
    refine follows_setSubscriber h client ?_
    have hclient := h.subscribers client
    rcases hphase : s.subscribers client with
      _ | ⟨after, orReady, receiver⟩ | ⟨after, orReady, receiver, state⟩ | stream
    · trivial
    · rw [hphase] at hclient
      exact ⟨hclient, .inl rfl⟩
    · rw [hphase] at hclient
      obtain ⟨hafter, hrace⟩ := horder after orReady receiver state hphase
      exact hclient.replay h.settled hafter hrace
    · rw [hphase] at hclient
      exact hclient.next h.settled

/-- A subscriber that has replayed and received everything holds the projection, in every run whose
refreshes raise the revision and whose subscribers have not seen more than they are handed. -/
theorem run_converges (state : DurableState) (ops : List ProjectionOp)
    (hops : Run.Meets step Orderly (start state) ops) (client : Nat) (stream : DurableStream)
    (hstream : (run state ops).subscribers client = .streaming stream)
    (hidle : (run state ops).runtime.refresh = .idle) (hreplay : stream.replay = [])
    (hreceived : stream.receiver = (run state ops).runtime.sent.length) :
    stream.state = (run state ops).runtime.projection := by
  have hstart : (start state).Follows :=
    ⟨DurableRuntime.settled_new state, fun _ => trivial⟩
  have hfollows : (run state ops).Follows := Run.Meets.invariant follows_step hstart hops
  have hclient := hfollows.subscribers client
  rw [hstream] at hclient
  rcases hclient.reaches with ⟨hreplayed, -⟩ | ⟨hreceiver, -⟩
  · rw [DurableStream.replayed, hreplay] at hreplayed
    exact hreplayed
  · rw [DurableRuntime.published, hidle, hreceived, Refresh.pending, List.append_nil] at hreceiver
    exact absurd hreceiver (Nat.lt_irrefl _)

/-! ### A rewind -/

/-- A snapshot at a revision. -/
def snapshotAt (revision : UInt64) : Except String (List Value) :=
  .ok [.object [("type", .string "custom"), ("id", .string "e1"),
    ("customType", .string "durable-state"),
    ("data", .object [("format", .string "rpi-durable-journal"), ("version", Serde.number 1),
      ("kind", .string "snapshot"), ("baseRevision", Serde.number 0),
      ("revision", Serde.number revision), ("state", .object [("revision", Serde.number revision)])])]]

lemma project_snapshotAt_one : project (snapshotAt 1) = .ok { revision := 1 } := rfl

lemma project_snapshotAt_two : project (snapshotAt 2) = .ok { revision := 2 } := rfl

/-- A refresh that publishes, and a subscriber that receives what it has published. -/
def delivery (entries : Except String (List Value)) : List ProjectionOp :=
  [.refresh entries, .publish, .publish, .next 0]

def subscription : List ProjectionOp := [.subscribe 0 none false, .next 0, .next 0]

lemma step_refresh {s : Projections} {entries : Except String (List Value)} {next : DurableState}
    (hnext : project entries = .ok next) (hidle : s.runtime.refresh = .idle)
    (hne : s.runtime.projection ≠ next) (hrevision : next.revision ≠ 0) :
    s.step (.refresh entries) = { s with runtime :=
      { s.runtime with projection := next, refresh := .stored ⟨next.revision, next, rfl⟩ } } := by
  simp only [step, DurableRuntime.refreshBranch, hidle, hnext, if_neg hne, if_neg hrevision]

/-- What is left of a delivery once the refresh has stored what it read. -/
def rest : List ProjectionOp := [.publish, .publish, .next 0]

section

variable {first second : Except String (List Value)}

lemma run_delivery (hfirst : project first = .ok { revision := 2 }) :
    run .default (subscription ++ delivery first) =
      Run.after step { run .default subscription with runtime :=
        ⟨{ revision := 2 }, [], [], .stored ⟨2, { revision := 2 }, rfl⟩⟩ } rest := by
  show Run.after step ((run .default subscription).step (.refresh first)) rest = _
  rw [step_refresh hfirst rfl (by decide) (by decide)]
  rfl

lemma run_deliveries (hfirst : project first = .ok { revision := 2 })
    (hsecond : project second = .ok { revision := 1 }) :
    run .default (subscription ++ delivery first ++ delivery second) =
      Run.after step { run .default (subscription ++ delivery first) with runtime :=
        let change := ⟨2, { revision := 2 }, rfl⟩
        ⟨{ revision := 1 }, [change], [change], .stored ⟨1, { revision := 1 }, rfl⟩⟩ } rest := by
  rw [run, Run.after_append, ← run, run_delivery hfirst]
  show Run.after step (step _ (.refresh second)) rest = _
  rw [step_refresh hsecond rfl (by decide) (by decide)]
  rfl

end

theorem run_converges_delivery :
    (run .default (subscription ++ delivery (snapshotAt 2))).runtime.projection =
      { revision := 2 } := by
  have hrun := run_delivery project_snapshotAt_two
  have hsubscription : Run.Meets step Orderly (start .default) subscription := by
    refine ⟨trivial, ?_, ?_, trivial⟩
    · intro after orReady receiver ready hready
      cases hready
    · intro after orReady receiver ready hready
      cases hready
      exact ⟨fun _ hnone => absurd hnone (Option.not_mem_none _), fun hfalse => nomatch hfalse⟩
  have hdelivery : Run.Meets step Orderly (run .default subscription) (delivery (snapshotAt 2)) := by
    refine ⟨?_, trivial, trivial, ?_, trivial⟩
    · intro _ next hnext
      cases Except.ok.inj (project_snapshotAt_two.symm.trans hnext)
      exact .inr (by decide)
    · intro after orReady receiver ready hready
      change (run .default subscription).subscribers 0 = _ at hready
      cases hready
  have hops := Run.meets_append.mpr ⟨hsubscription, hdelivery⟩
  have hstream : (run .default (subscription ++ delivery (snapshotAt 2))).subscribers 0 =
      .streaming ⟨{ revision := 2 }, false, [], 1, 2, []⟩ := by
    rw [hrun]
    rfl
  refine (run_converges .default _ hops 0 _ hstream ?_ rfl ?_).symm
  · rw [hrun]
    rfl
  · rw [hrun]
    rfl

theorem rewind_diverges :
    ¬∀ (state : DurableState) (ops : List ProjectionOp) (client : Nat) (stream : DurableStream),
      (run state ops).subscribers client = .streaming stream → stream.gap = false →
        stream.resync = [] → (run state ops).runtime.refresh = .idle → stream.replay = [] →
          stream.receiver = (run state ops).runtime.sent.length →
            stream.state = (run state ops).runtime.projection := by
  intro h
  have hrun := run_deliveries project_snapshotAt_two project_snapshotAt_one
  have heq := h .default (subscription ++ delivery (snapshotAt 2) ++ delivery (snapshotAt 1)) 0
    ⟨{ revision := 2 }, false, [], 2, 2, []⟩
  rw [hrun, run_delivery project_snapshotAt_two] at heq
  exact absurd (heq rfl rfl rfl rfl rfl rfl) (by decide)

end Projections

end Durable
