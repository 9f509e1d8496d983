import RpiPackage.Mcp.Ownership

/-!
# The lifetimes of subscriptions

Content that was read in a lifetime is delivered in that lifetime only. A subscription of a live
connection lasts until something is done to that connection, or to it, as long as no operation
replaces the config of an entry that has left the registry.
-/

namespace Mcp

namespace Store

variable {s : Store} {key k : Key} {uri u : String} {token : Nat}

lemma subscription_enqueue (text : String) :
    (enqueue key uri token text s).subscription k u = s.subscription k u := by
  have henqueued := enqueue_enqueued key uri token text s
  generalize enqueue key uri token text s = s' at henqueued ⊢
  cases henqueued with
  | dropped => rfl
  | pushed hcurrent hroom => rfl

end Store

namespace Runtime

/-- A subscription of a live connection: its server has acknowledged the lifetime. -/
def isLive (s : Runtime) (key : Key) (uri : String) (token : Nat) : Bool :=
  match s.sessions.get key with
  | none => false
  | some id =>
    match (s.entries id).connection.session with
    | none => false
    | some session =>
      !session.failed && decide (token ∈ session.acknowledged) &&
        s.store.subscription key uri == some token

/-- The connection of a key has a subscription. -/
def serves (s : Runtime) (key : Key) : Bool :=
  s.store.subscriptions.any fun p => p.1.key == key && s.isLive key p.1.uri p.2

/-- An operation that may end a subscription: it unsubscribes, or it closes the connection of the
key, replaces its config or fails to restore its subscriptions. -/
def mayEnd (s : Runtime) (t : Nat) (key : Key) (uri : String) : Bool :=
  match s.operations t with
  | .held op _ (.running _) =>
    match op.access with
    | .unsubscribe _ uri' _ => op.key == key && uri' == uri
    | _ => false
  | .dropping key' uri' _ => key' == key && uri' == uri
  | .removing key' id _ => key' == key && s.sessions.get key == some id
  | .held op id .preparing =>
    op.key == key && s.replacesConfig op id && s.sessions.get key == some id
  | .held op id (.restoring _ _) => op.key == key && s.sessions.get key == some id
  | _ => false

/-- The config of an entry is replaced while the entry is the one of its key, or while no
subscription depends on the key. -/
def sparesOthers (s : Runtime) (move : Nat × Input) : Bool :=
  match s.operations move.1, move.2 with
  | .held op id .preparing, .go =>
    !s.replacesConfig op id || s.sessions.get op.key == some id || !s.serves op.key
  | _, _ => true

/-- A step that ends the lifetime of a subscription. -/
inductive Retires (s : Runtime) (key : Key) (uri : String) : Nat × Input → Prop
  | unsubscribed {t id : Nat} {op : Op} {fresh : Bool} {session : Session}
      {config : McpServerConfig} {previous : Option Nat}
      (hphase : s.operations t = .held op id (.running fresh))
      (hsession : (s.entries id).connection.session = some session) (hkey : op.key = key)
      (haccess : op.access = .unsubscribe config uri previous) : Retires s key uri (t, .go)
  | dropped {t previous : Nat} (hphase : s.operations t = .dropping key uri previous)
      (hprevious : s.store.subscription key uri = some previous) : Retires s key uri (t, .go)
  | closed {t id : Nat} {rest : List (Key × Nat)}
      (hphase : s.operations t = .removing key id rest)
      (hcurrent : s.sessions.get key = some id) : Retires s key uri (t, .go)
  | absent {t : Nat} (hphase : s.operations t = .idle) (hnone : s.sessions.get key = none) :
      Retires s key uri (t, .close key)
  | replaced {t id : Nat} {op : Op} (hphase : s.operations t = .held op id .preparing)
      (hkey : op.key = key) (hconfig : s.replacesConfig op id = true) : Retires s key uri (t, .go)
  | renewed {t id generation : Nat} {op : Op} {answer : Answer}
      (hphase : s.operations t = .held op id (.initializing generation)) (hkey : op.key = key)
      (hskip : op.access.skipRestoreUri ≠ some uri) (hok : answer.isOk = true) :
      Retires s key uri (t, .answer answer)
  | remarked {t id : Nat} {op : Op} {subscribed : Bool}
      (hphase : s.operations t = .held op id (.marking uri subscribed)) (hkey : op.key = key) :
      Retires s key uri (t, .go)

variable {s s' : Runtime} {t id : Nat} {op : Op} {move : Nat × Input} {key : Key} {uri : String}
  {token : Nat} {targets : Nat → TypedTarget} {moves : List (Nat × Input)}

lemma isLive_eq_true (h : s.isLive key uri token = true) :
    ∃ id session, s.sessions.get key = some id ∧
      (s.entries id).connection.session = some session ∧ token ∈ session.acknowledged ∧
      s.store.subscription key uri = some token := by
  unfold isLive at h
  split at h
  · cases h
  · rename_i id hget
    split at h
    · cases h
    · rename_i session hsession
      simp only [Bool.and_eq_true, decide_eq_true_eq, beq_iff_eq] at h
      exact ⟨id, session, hget, hsession, h.1.2, h.2⟩

/-- The connection of a live subscription serves. -/
lemma serves_of_isLive (h : s.isLive key uri token = true) : s.serves key = true := by
  obtain ⟨-, -, -, -, -, hsub⟩ := isLive_eq_true h
  rw [serves, List.any_eq_true]
  exact ⟨(⟨key, uri⟩, token), Assoc.mem_of_lookup hsub, by simp [h]⟩

lemma step_preparing_of_ne (hphase : s.operations t = .held op id .preparing) {input : Input}
    (hne : input ≠ .go) : step s (t, input) = s := by
  unfold step
  dsimp only
  rw [hphase]
  cases input with
  | go => exact absurd rfl hne
  | _ => rfl

lemma lost_of_clear {key' : Key} (hsub : s.store.subscription key uri = some token)
    (hlost : (s.store.clearSubscriptions key').subscription key uri = none) : key = key' := by
  by_contra hne
  rw [Store.subscription_clearSubscriptions, if_neg hne, hsub] at hlost
  cases hlost

lemma lost_of_remove {key' : Key} {uri' : String} {expected : Option Nat}
    (hsub : s.store.subscription key uri = some token)
    (hlost : (s.store.removeSubscription key' uri' expected).subscription key uri = none) :
    key = key' ∧ uri = uri' ∧ (expected = none ∨ expected = some token) := by
  rw [Store.subscription_removeSubscription] at hlost
  split at hlost
  · rename_i hboth
    obtain ⟨hmark, hexpected⟩ := hboth
    obtain ⟨rfl, rfl⟩ := Mark.mk.inj hmark
    rw [hsub] at hexpected
    exact ⟨rfl, rfl, hexpected.imp_right Eq.symm⟩
  · rw [hsub] at hlost
    cases hlost

/-- The lock of an open entry is held for the connection of its key. -/
lemma current_of_held {stage : Stage} (h : s.Inv) (hphase : s.operations t = .held op id stage)
    (hopen : stage.IsOpen) : s.sessions.get op.key = some id := by
  have hok := h.phases t
  rw [hphase] at hok
  obtain ⟨hholds, hunreleased, -⟩ := hok
  rw [← hholds.key]
  exact h.unreleased id hholds.issued (hunreleased hopen)

/-- A subscription of a live connection is lost to what is done to it or to that connection. -/
lemma mayEnd_of_lost (h : s.Inv) (hspares : s.sparesOthers move = true)
    (hlive : s.isLive key uri token = true)
    (hlost : (step s move).store.subscription key uri = none) : s.mayEnd move.1 key uri = true := by
  obtain ⟨id', session, hget, hsession, hacknowledged, hsub⟩ := isLive_eq_true hlive
  have hchanged : step s move ≠ s := by
    intro heq
    rw [heq, hsub] at hlost
    cases hlost
  have heffect := effect_step s move
  generalize (step s move).store = store at hlost heffect
  cases heffect with
  | same | taken | retried =>
    exact absurd (hsub.symm.trans hlost) (by simp)
  | enqueued =>
    rw [Store.subscription_enqueue, hsub] at hlost
    cases hlost
  | @renewed op =>
    have hbefore : (s.store.subscription key uri).isSome = true := by rw [hsub]; rfl
    have hsome := Store.isSome_renewSubscriptions op.key op.access.skipRestoreUri hbefore
    rw [hlost] at hsome
    cases hsome
  | marked =>
    rw [Store.subscription_addSubscription] at hlost
    split at hlost
    · cases hlost
    · rw [hsub] at hlost
      cases hlost
  | @replaced op id hphase hconfig =>
    obtain rfl := lost_of_clear hsub hlost
    have hgo : move.2 = .go := by
      by_contra hne
      exact hchanged (step_preparing_of_ne hphase hne)
    -- the subscription serves, so the entry has to be the one of the key
    rw [sparesOthers, hphase, hgo] at hspares
    have hcurrent : s.sessions.get op.key = some id := by
      simpa [hconfig, serves_of_isLive hlive] using hspares
    rw [mayEnd, hphase]
    simp [hconfig, hcurrent]
  | @unrestored op id generation tokens hphase =>
    obtain rfl := lost_of_clear hsub hlost
    rw [mayEnd, hphase]
    simp [current_of_held h hphase trivial]
  | unsubscribed hphase haccess =>
    obtain ⟨rfl, rfl, -⟩ := lost_of_remove hsub hlost
    rw [mayEnd, hphase]
    simp [haccess]
  | dropped hphase =>
    obtain ⟨rfl, rfl, -⟩ := lost_of_remove hsub hlost
    rw [mayEnd, hphase]
    simp
  | @rejected op id uri' token' hphase =>
    obtain ⟨rfl, rfl, hnone | hsome⟩ := lost_of_remove hsub hlost
    · cases hnone
    · -- what its server has not acknowledged is not lost to a rejection
      obtain rfl := Option.some.inj hsome
      have hcurrent := current_of_held h hphase trivial
      rw [hget] at hcurrent
      obtain rfl := Option.some.inj hcurrent
      have hok := h.phases move.1
      rw [hphase] at hok
      exact absurd hacknowledged (hok.2.2.2 session hsession)
  | gone hnone =>
    obtain rfl := lost_of_clear hsub hlost
    rw [hget] at hnone
    cases hnone
  | closed hphase hcurrent =>
    obtain rfl := lost_of_clear hsub hlost
    rw [mayEnd, hphase]
    simp [hcurrent]

lemma step_held {stage : Stage} (hphase : s.operations t = .held op id stage) (input : Input) :
    step s (t, input) = s.work t op id stage input := by
  simp only [step, hphase]

/-- A replaced config is not stale, and not the one of the connection. -/
lemma store_prepare (hconfig : s.replacesConfig op id = true) :
    (s.prepare t op id).store = s.store.clearSubscriptions op.key := by
  unfold replacesConfig at hconfig
  unfold prepare
  split at hconfig
  · cases hconfig
  · rename_i config heq
    obtain ⟨hfresh, hother⟩ := Bool.and_eq_true_iff.mp hconfig
    dsimp only
    rw [if_neg (by simpa using hfresh), if_pos hother]
    rfl

/-- Nothing that was registered for the resource is registered after its retirement. -/
lemma subscription_of_retires (h : s.Inv) (hretires : s.Retires key uri move)
    (hsub : s.store.subscription key uri = some token) :
    (step s move).store.subscription key uri ≠ some token := by
  have hclear : (s.store.clearSubscriptions key).subscription key uri ≠ some token := by
    rw [Store.subscription_clearSubscriptions, if_pos rfl]
    simp
  have hissued := h.store.issued key uri token hsub
  cases hretires with
  | @unsubscribed t id op fresh session config previous hphase hsession hkey haccess =>
    have hstore : (step s (t, .go)).store = s.store.removeSubscription op.key uri none := by
      rw [step_held hphase]
      unfold work
      dsimp only
      rw [hsession]
      dsimp only
      unfold run
      rw [haccess]
      rfl
    rw [hstore, hkey, Store.subscription_removeSubscription, if_pos ⟨rfl, .inl rfl⟩]
    simp
  | @dropped t previous hphase hprevious =>
    have hstep : step s (t, .go) =
        (s.setStore (s.store.removeSubscription key uri (some previous))).goto t .finished := by
      simp only [step, hphase]
    rw [hstep]
    show (s.store.removeSubscription key uri (some previous)).subscription key uri ≠ some token
    rw [Store.subscription_removeSubscription, if_pos ⟨rfl, .inr hprevious⟩]
    simp
  | @closed t id rest hphase hcurrent =>
    have hstep : step s (t, .go) = s.removeEntry t key id rest := by
      simp only [step, hphase]
    rw [hstep, removeEntry, if_pos hcurrent]
    exact hclear
  | @absent t hphase hnone =>
    have hstep : step s (t, .close key) = s.closeKey t key := by
      simp only [step, hphase, start]
    rw [hstep, closeKey, hnone]
    exact hclear
  | @replaced t id op hphase hkey hconfig =>
    rw [step_held hphase]
    show (s.prepare t op id).store.subscription key uri ≠ some token
    rw [store_prepare hconfig, hkey]
    exact hclear
  | @renewed t id generation op answer hphase hkey hskip hok =>
    have hstore : (step s (t, .answer answer)).store =
        (s.store.renewSubscriptions op.key op.access.skipRestoreUri).2 := by
      rw [step_held hphase]
      unfold work
      dsimp only
      rw [if_pos hok]
      rfl
    rw [hstore, hkey]
    intro heq
    rcases Store.subscription_renewSubscriptions (s := s.store) (k := key) (u := uri) with ⟨-, hkept⟩ | ⟨-, hnew⟩
    · rw [Store.renews, beq_self_eq_true, Bool.true_and] at hkept
      exact hskip (by simpa using hkept)
    · have hlow := (hnew token heq).1
      omega
  | @remarked t id op subscribed hphase hkey =>
    have hstore : (step s (t, .go)).store = (s.store.addSubscription op.key uri).2 := by
      rw [step_held hphase]
      unfold work
      dsimp only
      split <;> rfl
    rw [hstore, hkey, Store.subscription_addSubscription, if_pos rfl]
    intro heq
    rw [Option.some.inj heq] at hissued
    exact Nat.lt_irrefl _ hissued

/-! ### Runs -/

/-- What is to be expected of the subscriptions after a run. -/
structure Served (targets : Nat → TypedTarget) (moves : List (Nat × Input)) : Prop where
  /-- A read that waits belongs to the lifetime that is registered. -/
  current : ∀ q ∈ ((new targets).after moves).store.pending,
    ((new targets).after moves).store.IsCurrent q
  /-- What was read in a lifetime that has ended is never handed out. -/
  ended : ∀ before later, moves = before ++ later → ∀ key uri token,
    token < ((new targets).after before).store.nextSubscription →
    ((new targets).after before).store.subscription key uri ≠ some token →
    ∀ scope, ∀ q ∈ (((new targets).after moves).store.takePendingBatch scope).1,
      q.update.key = key → q.update.uri = uri → q.subscription ≠ token
  /-- Unsubscribing, closing, reconnecting and subscribing again end a lifetime. -/
  retired : ∀ before move later, moves = before ++ move :: later → ∀ key uri token,
    ((new targets).after before).Retires key uri move →
    ((new targets).after before).store.subscription key uri = some token →
    ((new targets).after (before ++ [move])).store.subscription key uri ≠ some token
  /-- What a retry queues again is the newest read of its lifetime, as long as the counter of the
  lifetime has not wrapped. -/
  newest : ∀ t updates, ((new targets).after moves).operations t = .holding updates →
    ∃ retried, (step ((new targets).after moves) (t, .go)).store.pending =
        retried ++ ((new targets).after moves).store.pending ∧
      ∀ q ∈ retried, q ∈ updates ∧ ((new targets).after moves).store.IsCurrent q ∧
        (Store.countOf q.subscription ((new targets).after moves).store.reads < UInt64.size →
          ((new targets).after moves).store.Newest q)
  bounded : ((new targets).after moves).store.pending.length ≤ maxPending
  /-- A subscription of a live connection is lost to what is done to it or to that connection. -/
  lost : ∀ before move later, moves = before ++ move :: later → ∀ key uri token,
    ((new targets).after before).isLive key uri token = true →
    ((new targets).after (before ++ [move])).store.subscription key uri = none →
    ((new targets).after before).mayEnd move.1 key uri = true

/-- An operation subscribes, over a connection that it opens. -/
def subscribes (t : Nat) : List (Nat × Input) :=
  [(t, .subscribe serverKey serverConfig "mem://page"), (t, .go), (t, .go), (t, .go), (t, .go),
    (t, .go), (t, .answer (.ok .null)), (t, .answers [] false), (t, .go), (t, .go),
    (t, .answer (.ok .null))]

/-- A notification is dispatched, and its read is taken and handed back. -/
def delivers (t : Nat) : List (Nat × Input) :=
  [(t, .notify 0 (.object [("method", .string "notifications/resources/updated"),
      ("params", .object [("uri", .string "mem://page")])])),
    (t, .go), (t, .go), (t, .go), (t, .go), (t, .text "page"), (t, .go), (t, .go),
    (t + 1, .take none), (t + 1, .go)]

/-- The first operation has checked that its entry is not stopped when the key is closed, and
subscribed to again by the third one. -/
def reopened : List (Nat × Input) :=
  [(0, .legacy serverKey serverConfig), (0, .go), (0, .go),
    (1, .close serverKey), (1, .go), (1, .go), (1, .go)] ++ subscribes 2 ++ [(0, .go)]

end Runtime

end Mcp
