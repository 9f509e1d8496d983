import RpiPackage.History.Spool

/-!
# Preparing a history

The paged traversal of a branch: pages are requested from the newest to the oldest, each from the
first entry of the one before, until a page says that there is no more. The answers of the host,
the disk, the deadline and the cancellation are inputs, one round of them for each request.
-/

namespace History

open Json Result

/-- What one page request meets. -/
structure Round where
  /-- The answer to `get_messages`. -/
  reply : Except String Value
  /-- The check after the page is validated. -/
  received : Except String Unit
  /-- The writes of the spool. -/
  disk : Except String Unit
  /-- The check after the page is stored. -/
  stored : Except String Unit

/-- What the check of the event boundary meets. -/
structure Closing where
  boundary : UInt64
  entered : Except String Unit
  latest : Except String UInt64
  left : Except String Unit

def Round.page (round : Round) (before : Option String) (expected : Option BranchAnchor)
    (limit : Nat) : Except String MessagePage := do
  failIf (limit < 1 ∨ maxPageMessages < limit) "history page limit out of range"
  let data ← round.reply
  let page ← validatePage data before limit expected
  round.received
  return page

def Closing.verifyBoundary (closing : Closing) : Except String Unit := do
  closing.entered
  let latest ← closing.latest
  failIf (latest ≠ closing.boundary) "history event boundary changed"
  closing.left

/-- The ids of a page join the ids seen so far. -/
def insertEntries : List Value → List String → Except String (List String)
  | [], seen => .ok seen
  | message :: messages, seen =>
    match entryId message with
    | none => .error "called unwrap on a None value"
    | some id =>
      if id ∈ seen then .error "repeated history entry across pages"
      else insertEntries messages (seen ++ [id])

/-- The variables of the loop. -/
structure Traversal where
  spool : HistorySpool
  before : Option String
  anchor : Option BranchAnchor
  seen : List String

def Traversal.start : Traversal := ⟨HistorySpool.create, none, none, []⟩

/-- One turn of the loop, up to the decision whether it is the last. -/
def Traversal.turn (t : Traversal) (round : Round) : Except String (MessagePage × Traversal) := do
  let page ← round.page t.before t.anchor maxPageMessages
  let seen ← insertEntries page.messages t.seen
  failIf (page.anchor.total.toNat < seen.length
    ∨ (page.hasMore = true ∧ page.anchor.total.toNat ≤ seen.length))
    "history cursor made no progress"
  let spool ← t.spool.push page.messages round.disk
  round.stored
  return (page, ⟨spool, page.firstId, some page.anchor, seen⟩)

/-- A traversal that has used up its rounds waits for the answer to one more request. -/
inductive Progress where
  | waiting
  | finished (result : Except String HistorySpool)

/-- The branch is read once more, to see that it has not changed. -/
def Traversal.finish (closing : Closing) (t : Traversal) (anchor : BranchAnchor) :
    List Round → Progress
  | [] => .waiting
  | round :: _ => .finished do
    let _ ← round.page none (some anchor) 1
    closing.verifyBoundary
    return t.spool

def Traversal.run (closing : Closing) : List Round → Traversal → Progress
  | [], _ => .waiting
  | round :: rounds, t =>
    match t.turn round with
    | .error error => .finished (.error error)
    | .ok (page, t) =>
      if page.hasMore then t.run closing rounds
      else if t.seen.length ≠ page.anchor.total.toNat then
        .finished (.error "incomplete history traversal")
      else t.finish closing page.anchor rounds

/-- The paged path of `prepare` on the rounds met so far. -/
def prepare (closing : Closing) (rounds : List Round) : Progress :=
  Traversal.start.run closing rounds

/-! ### One turn -/

lemma insertEntries_eq_ok {messages : List Value} {seen seen' : List String}
    (h : insertEntries messages seen = .ok seen') (hnodup : seen.Nodup) :
    seen' = seen ++ messages.filterMap entryId ∧ seen'.Nodup ∧
      seen'.length = seen.length + messages.length := by
  induction messages generalizing seen with
  | nil =>
    obtain rfl := Except.ok.inj h
    exact ⟨by simp, hnodup, rfl⟩
  | cons message messages ih =>
    unfold insertEntries at h
    rcases hid : entryId message with _ | id
    · simp [hid] at h
    · simp only [hid, ite_error_eq_ok] at h
      obtain ⟨hnew, h⟩ := h
      have hnodup' : (seen ++ [id]).Nodup := by
        rw [List.nodup_append]
        refine ⟨hnodup, by simp, ?_⟩
        rintro a ha b hb rfl
        exact hnew (List.mem_singleton.mp hb ▸ ha)
      obtain ⟨rfl, hnodup, hlength⟩ := ih h hnodup'
      refine ⟨by simp [hid], hnodup, ?_⟩
      rw [hlength, List.length_append, List.length_singleton, List.length_cons]
      omega

/-- A page that the host has answered to a request and that was accepted. -/
def Round.Accepts (round : Round) (before : Option String) (expected : Option BranchAnchor)
    (limit : Nat) (page : MessagePage) : Prop :=
  ∃ data, round.reply = .ok data ∧ validatePage data before limit expected = .ok page

lemma Round.page_eq_ok {round : Round} {before : Option String} {expected : Option BranchAnchor}
    {limit : Nat} {page : MessagePage} (h : round.page before expected limit = .ok page) :
    round.Accepts before expected limit page := by
  simp only [Round.page, bind_eq_ok, pure_eq_ok] at h
  obtain ⟨-, -, data, hdata, page', hpage, -, -, h⟩ := h
  obtain rfl := Except.ok.inj h
  exact ⟨data, hdata, hpage⟩

/-- The rounds answer a chain of requests, each from the first entry of the page before it and
against its anchor. -/
inductive Chain : Option String → Option BranchAnchor → List Round → List MessagePage → Prop where
  | nil (before : Option String) (expected : Option BranchAnchor) : Chain before expected [] []
  | cons (before : Option String) (expected : Option BranchAnchor) (round : Round)
      (rounds : List Round) (page : MessagePage) (pages : List MessagePage) :
      round.Accepts before expected maxPageMessages page →
      Chain page.firstId (some page.anchor) rounds pages →
      Chain before expected (round :: rounds) (page :: pages)

/-- The traversal has read these pages, all of one anchor. -/
structure Traversal.Reads (t : Traversal) (pages : List MessagePage) : Prop where
  spool : t.spool.Stacks (pages.map MessagePage.messages)
  seen : t.seen = (pages.flatMap MessagePage.messages).filterMap entryId
  nodup : t.seen.Nodup
  count : t.seen.length = (pages.flatMap MessagePage.messages).length
  anchor : ∀ page ∈ pages, t.anchor = some page.anchor

lemma Traversal.start_reads : Traversal.start.Reads [] :=
  ⟨HistorySpool.create_stacks, rfl, List.nodup_nil, rfl, nofun⟩

variable {t t' : Traversal} {round : Round} {page : MessagePage} {pages : List MessagePage}

/-- What a turn adds to the pages read. -/
structure Traversal.Turn (t : Traversal) (round : Round) (page : MessagePage) (t' : Traversal) :
    Prop where
  accepts : round.Accepts t.before t.anchor maxPageMessages page
  before : t'.before = page.firstId
  anchor : t'.anchor = some page.anchor
  seen : insertEntries page.messages t.seen = .ok t'.seen
  progress : page.hasMore = true → t'.seen.length < page.anchor.total.toNat
  push : t.spool.push page.messages round.disk = .ok t'.spool

lemma Traversal.turn_eq_ok (h : t.turn round = .ok (page, t')) : t.Turn round page t' := by
  simp only [Traversal.turn, bind_eq_ok, pure_eq_ok, failIf_eq_ok] at h
  obtain ⟨page', hpage, seen, hseen, -, hprogress, spool, hpush, -, -, h⟩ := h
  obtain ⟨rfl, rfl⟩ := Prod.mk.inj (Except.ok.inj h)
  refine ⟨Round.page_eq_ok hpage, rfl, rfl, hseen, fun hmore => ?_, hpush⟩
  by_contra hlt
  exact hprogress (.inr ⟨hmore, Nat.le_of_not_lt hlt⟩)

namespace Traversal.Turn

lemma fits (h : t.Turn round page t') : ∃ data, round.reply = .ok data ∧
    page.Fits data t.before maxPageMessages t.anchor := by
  obtain ⟨data, hdata, hpage⟩ := h.accepts
  exact ⟨data, hdata, validatePage_eq_ok hpage⟩

/-- A turn keeps what was read, and adds its page. -/
lemma reads (h : t.Turn round page t') (hreads : t.Reads pages) : t'.Reads (pages ++ [page]) := by
  obtain ⟨data, -, hfits⟩ := h.fits
  obtain ⟨hseen, hnodup, hlength⟩ := insertEntries_eq_ok h.seen hreads.nodup
  refine ⟨?_, ?_, hnodup, ?_, ?_⟩
  · rw [List.map_append, List.map_singleton]
    exact hreads.spool.push h.push
  · rw [hseen, hreads.seen, List.flatMap_append, List.filterMap_append, List.flatMap_singleton]
  · rw [hlength, hreads.count, List.flatMap_append, List.length_append, List.flatMap_singleton]
  · intro p hp
    rw [h.anchor]
    rcases List.mem_append.mp hp with hp | hp
    · rw [hfits.anchor p.anchor (hreads.anchor p hp)]
    · rw [List.mem_singleton.mp hp]

/-- While there is more, each turn reads a full page. -/
lemma length_seen (h : t.Turn round page t') (hnodup : t.seen.Nodup) (hmore : page.hasMore = true) :
    t'.seen.length = t.seen.length + maxPageMessages ∧ t'.seen.length < 2 ^ 64 := by
  obtain ⟨data, -, hfits⟩ := h.fits
  obtain ⟨-, -, hlength⟩ := insertEntries_eq_ok h.seen hnodup
  rw [hfits.length_eq hmore] at hlength
  exact ⟨hlength, lt_trans (h.progress hmore) page.anchor.total.toNat_lt⟩

end Traversal.Turn

/-! ### The loop -/

/-- The loop stops: it cannot read full pages for ever. -/
lemma Traversal.run_finished (closing : Closing) {rounds : List Round} (hnodup : t.seen.Nodup)
    (hseen : t.seen.length < 2 ^ 64)
    (hrounds : 2 ^ 64 + maxPageMessages ≤ t.seen.length + maxPageMessages * rounds.length) :
    ∃ result, t.run closing rounds = .finished result := by
  induction rounds generalizing t with
  | nil => rw [List.length_nil, Nat.mul_zero] at hrounds; omega
  | cons round rounds ih =>
    rw [List.length_cons, Nat.mul_succ] at hrounds
    unfold Traversal.run
    rcases hturn : t.turn round with error | ⟨page, t'⟩
    · exact ⟨_, rfl⟩
    · have hturn := Traversal.turn_eq_ok hturn
      dsimp only
      by_cases hmore : page.hasMore = true
      · obtain ⟨hlength, hlt⟩ := hturn.length_seen hnodup hmore
        obtain ⟨-, hnodup', -⟩ := insertEntries_eq_ok hturn.seen hnodup
        rw [if_pos hmore]
        exact ih hnodup' hlt (by omega)
      · rw [if_neg hmore]
        split
        · exact ⟨_, rfl⟩
        · cases rounds with
          | nil => rw [List.length_nil, Nat.mul_zero] at hrounds; omega
          | cons final rest => exact ⟨_, rfl⟩

/-- What a traversal that ends well has done. -/
lemma Traversal.run_eq_ok {closing : Closing} {rounds : List Round} {spool : HistorySpool}
    (hreads : t.Reads pages) (hrun : t.run closing rounds = .finished (.ok spool)) :
    ∃ reads final rest more anchor probe, rounds = reads ++ final :: rest ∧
      Chain t.before t.anchor reads more ∧ final.Accepts none (some anchor) 1 probe ∧
      (∀ page ∈ pages ++ more, page.anchor = anchor) ∧
      spool.Stacks ((pages ++ more).map MessagePage.messages) ∧
      ((pages ++ more).flatMap MessagePage.messages).length = anchor.total.toNat ∧
      (((pages ++ more).flatMap MessagePage.messages).filterMap entryId).Nodup := by
  induction rounds generalizing t pages with
  | nil => cases hrun
  | cons round rounds ih =>
    unfold Traversal.run at hrun
    rcases hturn : t.turn round with error | ⟨page, t'⟩
    · simp only [hturn, Progress.finished.injEq, reduceCtorEq] at hrun
    · have hstep := Traversal.turn_eq_ok hturn
      have hreads' := hstep.reads hreads
      simp only [hturn] at hrun
      by_cases hmore : page.hasMore = true
      · rw [if_pos hmore] at hrun
        obtain ⟨reads, final, rest, more, anchor, probe, rfl, hchain, hfinal, hrest⟩ :=
          ih hreads' hrun
        rw [hstep.before, hstep.anchor] at hchain
        rw [← List.append_cons] at hrest
        exact ⟨round :: reads, final, rest, page :: more, anchor, probe, rfl,
          .cons _ _ round reads page more hstep.accepts hchain, hfinal, hrest⟩
      · rw [if_neg hmore] at hrun
        split at hrun
        · simp only [Progress.finished.injEq, reduceCtorEq] at hrun
        rename_i hcount
        cases rounds with
        | nil => cases hrun
        | cons final rest =>
          simp only [Traversal.finish, Progress.finished.injEq, bind_eq_ok, pure_eq_ok] at hrun
          obtain ⟨probe, hprobe, -, -, hspool⟩ := hrun
          obtain rfl := Except.ok.inj hspool
          refine ⟨[round], final, rest, [page], page.anchor, probe, rfl,
            .cons _ _ round [] page [] hstep.accepts (.nil _ _), Round.page_eq_ok hprobe, ?_,
            hreads'.spool, ?_, hreads'.seen ▸ hreads'.nodup⟩
          · intro p hp
            exact Option.some.inj ((hreads'.anchor p hp).symm.trans hstep.anchor)
          · rw [← hreads'.count]
            exact not_ne_iff.mp hcount

/-- The messages of a chain come from the replies, and each has an id. -/
lemma Chain.messages {before : Option String} {expected : Option BranchAnchor}
    {rounds : List Round} {pages : List MessagePage} (h : Chain before expected rounds pages) :
    ∀ page ∈ pages, (∃ round ∈ rounds, ∃ data, round.reply = .ok data ∧
        (data.index "messages").asArray = some page.messages) ∧
      ∀ message ∈ page.messages, ∃ id, entryId message = some id := by
  induction h with
  | nil => simp
  | cons before expected round rounds page pages haccepts _ ih =>
    intro p hp
    rcases List.mem_cons.mp hp with rfl | hp
    · obtain ⟨data, hdata, hpage⟩ := haccepts
      have hfits := validatePage_eq_ok hpage
      exact ⟨⟨round, List.mem_cons_self, data, hdata, hfits.messages⟩,
        entryId_of_checkEntries hfits.entries⟩
    · obtain ⟨⟨round', hround', hdata⟩, hids⟩ := ih p hp
      exact ⟨⟨round', List.mem_cons_of_mem _ hround', hdata⟩, hids⟩

lemma map_entryId {messages : List Value} (h : ∀ message ∈ messages, ∃ id, entryId message = some id) :
    messages.map entryId = (messages.filterMap entryId).map some := by
  induction messages with
  | nil => rfl
  | cons message messages ih =>
    obtain ⟨id, hid⟩ := h message List.mem_cons_self
    rw [List.map_cons, List.filterMap_cons_some hid, List.map_cons, hid,
      ih fun m hm => h m (List.mem_cons_of_mem _ hm)]

def sampleMessage : Value := .object [("entryId", .string "b"), ("role", .string "user")]

def sampleReply : Value :=
  .object [("messages", .array [sampleMessage]), ("total", .number (.posInt 1)),
    ("leafId", .string "b"), ("firstId", .string "b"), ("lastId", .string "b"),
    ("beforeId", .null), ("hasMore", .bool false)]

def sampleRound : Round := ⟨.ok sampleReply, .ok (), .ok (), .ok ()⟩

/-- A parser that knows one text. -/
def sampleFromSlice (bytes : List UInt8) : Except String (List Value) :=
  if bytes = pageBytes [sampleMessage] then .ok [sampleMessage] else .error "expected value"

end History
