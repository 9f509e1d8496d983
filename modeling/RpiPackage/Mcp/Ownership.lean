import RpiPackage.Mcp.Runtime

/-!
# What an operation may rely on

The lock of a connection keeps its session and its config to the operation that holds it, and a
connection whose session has been taken for good is never opened again. Each operation relies on
that, and no other one breaks it.
-/

namespace Mcp

variable {s s' s'' : Runtime} {t i id : Nat} {op : Op} {stage : Stage} {phase next : Phase}
  {e e' e'' : Entry} {key : Key} {uri : String} {token : Nat}

namespace Runtime

/-! ### What a step does to the subscriptions -/

/-- The store after a step of an operation. -/
inductive Effect (s : Runtime) (t : Nat) : Store → Prop
  | same : Effect s t s.store
  | replaced {op : Op} {id : Nat} (hphase : s.operations t = .held op id .preparing)
      (hconfig : s.replacesConfig op id = true) : Effect s t (s.store.clearSubscriptions op.key)
  | renewed {op : Op} {id generation : Nat}
      (hphase : s.operations t = .held op id (.initializing generation)) :
      Effect s t (s.store.renewSubscriptions op.key op.access.skipRestoreUri).2
  | unrestored {op : Op} {id generation : Nat} {tokens : List Nat}
      (hphase : s.operations t = .held op id (.restoring generation tokens)) :
      Effect s t (s.store.clearSubscriptions op.key)
  | unsubscribed {op : Op} {id : Nat} {fresh : Bool} {config : McpServerConfig} {uri : String}
      {previous : Option Nat} (hphase : s.operations t = .held op id (.running fresh))
      (haccess : op.access = .unsubscribe config uri previous) :
      Effect s t (s.store.removeSubscription op.key uri none)
  | marked {op : Op} {id : Nat} {uri : String} {subscribed : Bool}
      (hphase : s.operations t = .held op id (.marking uri subscribed)) :
      Effect s t (s.store.addSubscription op.key uri).2
  | rejected {op : Op} {id : Nat} {uri : String} {token : Nat}
      (hphase : s.operations t = .held op id (.subscribing uri token)) :
      Effect s t (s.store.removeSubscription op.key uri (some token))
  | dropped {key : Key} {uri : String} {previous : Nat}
      (hphase : s.operations t = .dropping key uri previous) :
      Effect s t (s.store.removeSubscription key uri (some previous))
  | gone {key : Key} (hnone : s.sessions.get key = none) :
      Effect s t (s.store.clearSubscriptions key)
  | closed {key : Key} {id : Nat} {rest : List (Key × Nat)}
      (hphase : s.operations t = .removing key id rest) (hcurrent : s.sessions.get key = some id) :
      Effect s t (s.store.clearSubscriptions key)
  | enqueued (key : Key) (uri : String) (token : Nat) (text : String) :
      Effect s t (s.store.enqueue key uri token text)
  | taken (scope : Option String) : Effect s t (s.store.takePendingBatch scope).2
  | retried {updates : List QueuedResourceUpdate} (hphase : s.operations t = .holding updates) :
      Effect s t (s.store.restorePendingBatch updates)

lemma effect_start (s : Runtime) (t : Nat) (input : Input) :
    s.Effect t (s.start t input).store := by
  unfold start
  split
  · exact .same
  · split <;> exact .same
  · exact .same
  · exact .same
  · split
    · split <;> exact .same
    · exact .same
  · unfold closeKey
    split
    · exact .same
    · rename_i hnone
      exact .gone hnone
  · exact .same
  · unfold dispatchNotification
    dsimp only
    split
    · exact .same
    · split
      · exact .same
      · split <;> exact .same
  · rename_i scope
    exact .taken scope
  · exact .same

lemma store_enter (s : Runtime) (t : Nat) (op : Op) : (s.enter t op).store = s.store := by
  unfold enter
  split
  · rfl
  · split
    · rfl
    · split <;> rfl

lemma effect_prepare (hphase : s.operations t = .held op id .preparing) :
    s.Effect t (s.prepare t op id).store := by
  unfold prepare
  dsimp only
  split
  · split <;> exact .same
  · rename_i config hconfig
    split
    · exact .same
    · rename_i hstale
      split
      · rename_i hother
        refine .replaced hphase ?_
        rw [replacesConfig, hconfig]
        simp only [Bool.not_eq_true] at hstale
        simp [hstale, hother]
      · split
        · exact .same
        · split <;> exact .same

lemma effect_run {fresh : Bool} (hphase : s.operations t = .held op id (.running fresh))
    (session : Session) (input : Input) : s.Effect t (s.run t op id fresh session input).store := by
  unfold run
  split
  · exact .same
  · exact .same
  · rename_i haccess
    exact .unsubscribed hphase haccess
  · split <;> exact .same
  · exact .same
  · exact .same
  · exact .same
  · split <;> exact .same
  · exact .same

lemma effect_work (hphase : s.operations t = .held op id stage) (input : Input) :
    s.Effect t (s.work t op id stage input).store := by
  unfold work
  split
  · exact effect_prepare hphase
  · exact .same
  · split <;> exact .same
  · split
    · exact .renewed hphase
    · exact .same
  · dsimp only
    split
    · exact .same
    · split
      · exact .same
      · exact .unrestored hphase
  · split
    · exact .same
    · exact effect_run hphase _ _
  · dsimp only
    split <;> exact .marked hphase
  · dsimp only
    split
    · exact .same
    · exact .rejected hphase
  · exact .same
  · exact .same

lemma effect_step (s : Runtime) (move : Nat × Input) : s.Effect move.1 (step s move).store := by
  unfold step
  dsimp only
  split
  · exact effect_start s _ _
  · exact .same
  · unfold discoverConfigured
    split
    · exact .same
    · dsimp only
      split <;> exact .same
  · exact .same
  · unfold callConfigured
    dsimp only
    split
    · exact .same
    · split <;> exact .same
  · exact .same
  · rw [store_enter]
    exact .same
  · exact .same
  · split <;> exact .same
  · split <;> exact .same
  · rename_i hphase
    exact effect_work hphase _
  · rename_i hphase _
    exact .dropped hphase
  · exact .same
  · exact .same
  · exact .enqueued _ _ _ _
  · exact .same
  · exact .same
  · unfold releaseEntry
    dsimp only
    split <;> exact .same
  · unfold retireEntry
    dsimp only
    split <;> exact .same
  · rename_i hphase _
    unfold removeEntry
    split
    · rename_i hcurrent
      exact .closed hphase hcurrent
    · exact .same
  · rename_i hphase _
    exact .retried hphase
  · exact .same

lemma Effect.grows {store : Store} (h : s.Effect t store) : s.store.Grows store := by
  cases h with
  | same => exact Store.Grows.refl _
  | replaced | unrestored | gone | closed => exact Store.grows_clearSubscriptions _ _
  | renewed => exact Store.grows_renewSubscriptions _ _ _
  | unsubscribed | rejected | dropped => exact Store.grows_removeSubscription _ _ _ _
  | marked => exact Store.grows_addSubscription _ _ _
  | enqueued => exact Store.grows_enqueue _ _ _ _ _
  | taken | retried => exact ⟨fun _ _ _ h => .inl h, Nat.le_refl _, List.Subset.refl _⟩

lemma grows_after (s : Runtime) (moves : List (Nat × Input)) :
    s.store.Grows (s.after moves).store := by
  refine Run.invariant (P := fun s' : Runtime => s.store.Grows s'.store) ?_ (Store.Grows.refl _) moves
  intro s' move h
  exact h.trans (effect_step s' move).grows

/-- The operation that holds the lock of an entry. -/
structure Holds (s : Runtime) (t : Nat) (op : Op) (id : Nat) : Prop where
  issued : id < s.nextEntry
  key : (s.entries id).key = op.key
  owner : (s.entries id).owner = some t

/-- The entry of a key that is being closed. -/
structure Stopped (s : Runtime) (key : Key) (id : Nat) : Prop where
  issued : id < s.nextEntry
  key : (s.entries id).key = key
  stop : (s.entries id).stop = true

end Runtime

/-! ### What holds between any two steps -/

/-- An entry whose session has been taken for good is stopped, and lifetimes that have been
acknowledged have been issued. -/
structure Entry.Sound (next : Nat) (e : Entry) : Prop where
  released : e.released = true → e.stop = true ∧ e.connection.session = none
  acknowledged : ∀ session, e.connection.session = some session →
    ∀ token ∈ session.acknowledged, token < next

/-- What an operation does to an entry, as far as the others rely on it. -/
structure Entry.Evolves (t : Nat) (e e' : Entry) : Prop where
  key : e'.key = e.key
  stop : e.stop = true → e'.stop = true
  released : e.released = true → e'.released = true
  kept : ∀ i, i ≠ t → e.owner = some i →
    e'.owner = some i ∧ e'.connection = e.connection ∧ e'.released = e.released

/-- The lock is held for a session. -/
def Stage.IsOpen : Stage → Prop
  | .preparing | .connecting => False
  | _ => True

/-- What an operation that holds a lock relies on. -/
def Stage.Ok (s : Runtime) (id : Nat) : Stage → Prop
  | .restoring _ tokens => ∀ token ∈ tokens, token < s.store.nextSubscription
  | .subscribing _ token =>
    token < s.store.nextSubscription ∧
      ∀ session, (s.entries id).connection.session = some session → token ∉ session.acknowledged
  | _ => True

/-- What an operation relies on. -/
def Phase.Ok (s : Runtime) (t : Nat) : Phase → Prop
  | .waiting op id | .checked op id => id < s.nextEntry ∧ (s.entries id).key = op.key
  | .held op id stage =>
    s.Holds t op id ∧ (stage.IsOpen → (s.entries id).released = false) ∧ stage.Ok s id
  | .releasing entries => ∀ p ∈ entries, s.Stopped p.1 p.2
  | .retiring key id entries | .removing key id entries =>
    (s.Stopped key id ∧ (s.entries id).released = true) ∧ ∀ p ∈ entries, s.Stopped p.1 p.2
  | .holding updates => updates ⊆ s.store.reads
  | _ => True

lemma Entry.Evolves.refl (t : Nat) (e : Entry) : e.Evolves t e :=
  ⟨rfl, id, id, fun _ _ h => ⟨h, rfl, rfl⟩⟩

lemma Entry.Evolves.trans (h : e.Evolves t e') (h' : e'.Evolves t e'') : e.Evolves t e'' := by
  refine ⟨h'.key.trans h.key, h'.stop ∘ h.stop, h'.released ∘ h.released, ?_⟩
  intro i hne howner
  obtain ⟨howner', hconnection, hreleased⟩ := h.kept i hne howner
  obtain ⟨howner'', hconnection', hreleased'⟩ := h'.kept i hne howner'
  exact ⟨howner'', hconnection'.trans hconnection, hreleased'.trans hreleased⟩

lemma Entry.Sound.mono {n m : Nat} (hle : n ≤ m) (h : e.Sound n) : e.Sound m :=
  ⟨h.released, fun session hsession token htoken =>
    Nat.lt_of_lt_of_le (h.acknowledged session hsession token htoken) hle⟩

/-- A session is only there before it has been taken for good. -/
lemma Entry.Sound.unreleased {n : Nat} (h : e.Sound n) (hsome : e.connection.session.isSome = true) :
    e.released = false := by
  cases hreleased : e.released with
  | false => rfl
  | true =>
    rw [(h.released hreleased).2] at hsome
    cases hsome

namespace Runtime

structure Inv (s : Runtime) : Prop where
  store : s.store.Sound
  entries : ∀ id, id < s.nextEntry → (s.entries id).Sound s.store.nextSubscription
  registered : ∀ key id, s.sessions.get key = some id →
    id < s.nextEntry ∧ (s.entries id).key = key
  unreleased : ∀ id, id < s.nextEntry → (s.entries id).released = false →
    s.sessions.get (s.entries id).key = some id
  phases : ∀ t, (s.operations t).Ok s t

/-- What an operation does to what the others rely on. -/
structure Extends (t : Nat) (s s' : Runtime) : Prop where
  nextEntry : s.nextEntry ≤ s'.nextEntry
  grows : s.store.Grows s'.store
  entries : ∀ id, id < s.nextEntry → (s.entries id).Evolves t (s'.entries id)

lemma Stopped.mono (hext : Extends t s s') (h : s.Stopped key id) : s'.Stopped key id := by
  have hentry := hext.entries id h.issued
  exact ⟨Nat.lt_of_lt_of_le h.issued hext.nextEntry, hentry.key.trans h.key, hentry.stop h.stop⟩

lemma extends_of_eq (t : Nat) (hentries : s'.entries = s.entries)
    (hnext : s'.nextEntry = s.nextEntry) (hgrows : s.store.Grows s'.store) : Extends t s s' := by
  refine ⟨Nat.le_of_eq hnext.symm, hgrows, ?_⟩
  intro id _
  rw [hentries]
  exact .refl _ _

end Runtime

open Runtime in
/-- What an operation relies on is left alone by the others. -/
lemma Phase.Ok.mono (hext : Extends t s s') (hne : i ≠ t) (h : phase.Ok s i) : phase.Ok s' i := by
  have hreach : ∀ id, id < s.nextEntry → id < s'.nextEntry := fun id hid =>
    Nat.lt_of_lt_of_le hid hext.nextEntry
  cases phase with
  | waiting op id | checked op id =>
    exact ⟨hreach id h.1, (hext.entries id h.1).key.trans h.2⟩
  | held op id stage =>
    obtain ⟨hholds, hopen, hstage⟩ := h
    have hentry := hext.entries id hholds.issued
    obtain ⟨howner, hconnection, hreleased⟩ := hentry.kept i hne hholds.owner
    refine ⟨⟨hreach id hholds.issued, hentry.key.trans hholds.key, howner⟩, ?_, ?_⟩
    · intro hstage
      exact hreleased.trans (hopen hstage)
    · cases stage with
      | restoring generation tokens =>
        intro token htoken
        exact Nat.lt_of_lt_of_le (hstage token htoken) hext.grows.next
      | subscribing uri token =>
        refine ⟨Nat.lt_of_lt_of_le hstage.1 hext.grows.next, ?_⟩
        rw [hconnection]
        exact hstage.2
      | _ => trivial
  | releasing entries => exact fun p hp => (h p hp).mono hext
  | retiring key id entries | removing key id entries =>
    obtain ⟨⟨hstopped, hreleased⟩, hrest⟩ := h
    exact ⟨⟨hstopped.mono hext, (hext.entries id hstopped.issued).released hreleased⟩,
      fun p hp => (hrest p hp).mono hext⟩
  | holding updates => exact List.Subset.trans h hext.grows.reads
  | _ => trivial


lemma Op.next_ok (op : Op) (s : Runtime) (t : Nat) : op.next.Ok s t := by
  unfold Op.next
  split <;> trivial

namespace Runtime

lemma Extends.trans (h : Extends t s s') (h' : Extends t s' s'') : Extends t s s'' := by
  refine ⟨Nat.le_trans h.nextEntry h'.nextEntry, h.grows.trans h'.grows, ?_⟩
  intro id hid
  exact (h.entries id hid).trans (h'.entries id (Nat.lt_of_lt_of_le hid h.nextEntry))

/-- An operation keeps what all of them rely on. -/
structure Reaches (t : Nat) (s s' : Runtime) : Prop where
  inv : s'.Inv
  extend : Extends t s s'
  operations : ∀ i, i ≠ t → s'.operations i = s.operations i
  targets : s'.targets = s.targets

lemma Reaches.trans (h : Reaches t s s') (h' : Reaches t s' s'') : Reaches t s s'' := by
  refine ⟨h'.inv, h.extend.trans h'.extend, ?_, h'.targets.trans h.targets⟩
  intro i hne
  exact (h'.operations i hne).trans (h.operations i hne)

lemma Inv.refl (h : s.Inv) (t : Nat) : Reaches t s s :=
  ⟨h, extends_of_eq t rfl rfl (.refl _), fun _ _ => rfl, rfl⟩

/-- The registry is left as it is. -/
lemma Inv.update (h : s.Inv) (hext : Extends t s s') (hsessions : s'.sessions = s.sessions)
    (hnext : s'.nextEntry = s.nextEntry)
    (hoperations : ∀ i, i ≠ t → s'.operations i = s.operations i)
    (htargets : s'.targets = s.targets) (hstore : s'.store.Sound)
    (hentries : ∀ id, id < s.nextEntry → (s'.entries id).Sound s'.store.nextSubscription)
    (hphase : (s'.operations t).Ok s' t) : Reaches t s s' := by
  refine ⟨⟨hstore, ?_, ?_, ?_, ?_⟩, hext, hoperations, htargets⟩
  · rw [hnext]
    exact hentries
  · intro key id hget
    rw [hsessions] at hget
    obtain ⟨hid, hkey⟩ := h.registered key id hget
    exact ⟨hnext ▸ hid, (hext.entries id hid).key.trans hkey⟩
  · intro id hid hreleased
    rw [hnext] at hid
    have hentry := hext.entries id hid
    have hbefore : (s.entries id).released = false := by
      cases hold : (s.entries id).released with
      | false => rfl
      | true =>
        rw [hentry.released hold] at hreleased
        cases hreleased
    rw [hsessions, hentry.key]
    exact h.unreleased id hid hbefore
  · intro i
    by_cases hi : i = t
    · rw [hi]
      exact hphase
    · rw [hoperations i hi]
      exact (h.phases i).mono hext hi

/-- The entries are left as they are. -/
lemma Inv.quiet (h : s.Inv) (hsessions : s'.sessions = s.sessions)
    (hentries : s'.entries = s.entries) (hnext : s'.nextEntry = s.nextEntry)
    (hoperations : ∀ i, i ≠ t → s'.operations i = s.operations i)
    (htargets : s'.targets = s.targets) (hstore : s'.store.Sound)
    (hgrows : s.store.Grows s'.store) (hphase : (s'.operations t).Ok s t) : Reaches t s s' := by
  refine h.update (extends_of_eq t hentries hnext hgrows) hsessions hnext hoperations htargets
    hstore ?_ ?_
  · intro id hid
    rw [hentries]
    exact (h.entries id hid).mono hgrows.next
  · exact hphase.mono (extends_of_eq (t + 1) hentries hnext hgrows)
      (Nat.ne_of_lt (Nat.lt_succ_self t))

lemma Inv.setStore (h : s.Inv) (t : Nat) {store : Store} (hstore : store.Sound)
    (hgrows : s.store.Grows store) : Reaches t s (s.setStore store) :=
  h.quiet rfl rfl rfl (fun _ _ => rfl) rfl hstore hgrows (h.phases t)

lemma Inv.record (h : s.Inv) (t : Nat) (event : Event) : Reaches t s (s.record event) :=
  h.quiet rfl rfl rfl (fun _ _ => rfl) rfl h.store (.refl _) (h.phases t)

lemma Inv.setAdmission (h : s.Inv) (t target : Nat) (admission : Admission) :
    Reaches t s (s.setAdmission target admission) :=
  h.quiet rfl rfl rfl (fun _ _ => rfl) rfl h.store (.refl _) (h.phases t)

@[simp] lemma operations_goto_self (s : Runtime) (t : Nat) (phase : Phase) :
    (s.goto t phase).operations t = phase := if_pos rfl

lemma operations_goto_of_ne (hne : i ≠ t) (s : Runtime) (phase : Phase) :
    (s.goto t phase).operations i = s.operations i := if_neg hne

@[simp] lemma entries_setEntry_self (s : Runtime) (id : Nat) (e : Entry) :
    (s.setEntry id e).entries id = e := if_pos rfl

lemma entries_setEntry_of_ne (hne : i ≠ id) (s : Runtime) (e : Entry) :
    (s.setEntry id e).entries i = s.entries i := if_neg hne

lemma Inv.goto (h : s.Inv) (hphase : phase.Ok s t) : Reaches t s (s.goto t phase) := by
  refine h.quiet rfl rfl rfl ?_ rfl h.store (.refl _) ?_
  · intro i hne
    exact operations_goto_of_ne hne s phase
  · rw [operations_goto_self]
    exact hphase

/-- One entry is changed. -/
lemma Inv.setEntry (h : s.Inv) (hevolves : (s.entries id).Evolves t e)
    (hsound : id < s.nextEntry → e.Sound s.store.nextSubscription)
    (hphase : (s.operations t).Ok (s.setEntry id e) t) : Reaches t s (s.setEntry id e) := by
  refine h.update ⟨Nat.le_refl _, .refl _, ?_⟩ rfl rfl (fun _ _ => rfl) rfl h.store ?_ hphase
  · intro i _
    by_cases hi : i = id
    · rw [hi, entries_setEntry_self]
      exact hevolves
    · rw [entries_setEntry_of_ne hi]
      exact .refl _ _
  · intro i hid
    by_cases hi : i = id
    · rw [hi, entries_setEntry_self]
      exact hsound (hi ▸ hid)
    · rw [entries_setEntry_of_ne hi]
      exact h.entries i hid

/-- The holder of a lock may change what the lock protects. -/
lemma Holds.evolves (hholds : s.Holds t op id) {owner : Option Nat} {connection : ConnectionState} :
    (s.entries id).Evolves t { s.entries id with owner, connection } := by
  refine ⟨rfl, fun h => h, fun h => h, ?_⟩
  intro i hne howner
  rw [hholds.owner] at howner
  exact absurd (Option.some.inj howner).symm hne

/-- Lifetimes that a session holds as acknowledged have been issued. -/
def Issued (s : Runtime) (session : Option Session) : Prop :=
  ∀ ses, session = some ses → ∀ token ∈ ses.acknowledged, token < s.store.nextSubscription

lemma Inv.leave (h : s.Inv) (hholds : s.Holds t op id) {session : Option Session}
    (hissued : s.Issued session) (hopen : session.isSome = true → (s.entries id).released = false)
    (hnext : ∀ s, next.Ok s t) : Reaches t s (s.leave t id session next) := by
  have hgoto := h.goto (hnext s)
  refine hgoto.trans (hgoto.inv.setEntry hholds.evolves (fun _ => ⟨?_, hissued⟩) ?_)
  · intro hreleased
    refine ⟨((h.entries id hholds.issued).released hreleased).1, ?_⟩
    cases session with
    | none => rfl
    | some ses =>
      rw [show (s.entries id).released = true from hreleased] at hopen
      exact absurd (hopen rfl) (by simp)
  · rw [operations_goto_self]
    exact hnext _

/-- The session of the entry is kept. -/
lemma Inv.leave_same (h : s.Inv) (hholds : s.Holds t op id) (hnext : ∀ s, next.Ok s t) :
    Reaches t s (s.leave t id (s.entries id).connection.session next) := by
  have hsound := h.entries id hholds.issued
  exact h.leave hholds hsound.acknowledged hsound.unreleased hnext

lemma Inv.leave_none (h : s.Inv) (hholds : s.Holds t op id) (hnext : ∀ s, next.Ok s t) :
    Reaches t s (s.leave t id none next) := by
  refine h.leave hholds ?_ (fun hsome => absurd hsome (by simp)) hnext
  intro ses hses
  cases hses

/-! ### One step -/

lemma Inv.register (h : s.Inv) (hnone : s.sessions.get key = none) :
    Reaches t s (s.register key) := by
  have hself : (s.register key).entries s.nextEntry = .fresh key := if_pos rfl
  have hold : ∀ i, i < s.nextEntry → (s.register key).entries i = s.entries i := fun i hi =>
    if_neg (Nat.ne_of_lt hi)
  have hext : ∀ i, Extends i s (s.register key) := by
    intro i
    refine ⟨Nat.le_succ _, .refl _, ?_⟩
    intro id hid
    rw [hold id hid]
    exact .refl _ _
  refine ⟨⟨h.store, ?_, ?_, ?_, ?_⟩, hext t, fun _ _ => rfl, rfl⟩
  · intro id hid
    rcases Nat.lt_succ_iff_lt_or_eq.mp hid with hid | rfl
    · rw [hold id hid]
      exact h.entries id hid
    · rw [hself]
      refine ⟨fun hreleased => absurd hreleased (by simp [Entry.fresh]), ?_⟩
      intro session hsession
      cases hsession
  · intro key' id hget
    by_cases hkey : key' = key
    · rw [hkey] at hget ⊢
      obtain rfl := Option.some.inj ((Table.get_put_self _ _ _).symm.trans hget)
      rw [hself]
      exact ⟨Nat.lt_succ_self _, rfl⟩
    · obtain ⟨hid, hentry⟩ :=
        h.registered key' id ((Table.get_put_of_ne hkey _ _).symm.trans hget)
      rw [hold id hid]
      exact ⟨Nat.lt_succ_of_lt hid, hentry⟩
  · intro id hid hreleased
    rcases Nat.lt_succ_iff_lt_or_eq.mp hid with hid | rfl
    · rw [hold id hid] at hreleased ⊢
      have hget := h.unreleased id hid hreleased
      refine (Table.get_put_of_ne ?_ _ _).trans hget
      rintro heq
      rw [heq, hnone] at hget
      cases hget
    · rw [hself]
      exact Table.get_put_self _ _ _
  · intro i
    exact (h.phases i).mono (hext (i + 1)) (Nat.ne_of_lt (Nat.lt_succ_self i))

lemma Inv.enter (h : s.Inv) : Reaches t s (s.enter t op) := by
  unfold Runtime.enter
  split
  · rename_i id hget
    exact h.goto (h.registered op.key id hget)
  · rename_i hnone
    split
    · exact h.goto (op.next_ok s t)
    · split
      · exact h.goto (op.next_ok s t)
      · have hregister : Reaches t s (s.register op.key) := h.register hnone
        refine hregister.trans (hregister.inv.goto ⟨Nat.lt_succ_self _, ?_⟩)
        show (if s.nextEntry = s.nextEntry then Entry.fresh op.key else _).key = op.key
        rw [if_pos rfl]
        rfl

/-- The holder of a lock goes on with another connection. -/
lemma Inv.reconnect (h : s.Inv) (hholds : s.Holds t op id) {connection : ConnectionState}
    (hissued : s.Issued connection.session)
    (hopen : connection.session.isSome = true → (s.entries id).released = false)
    (hstage : stage.IsOpen → (s.entries id).released = false) (hok : ∀ s, stage.Ok s id) :
    Reaches t s ((s.setEntry id { s.entries id with connection }).goto t (.held op id stage)) := by
  have hgoto : Reaches t s (s.goto t (.held op id stage)) := h.goto ⟨hholds, hstage, hok s⟩
  refine hgoto.trans (hgoto.inv.setEntry hholds.evolves (fun _ => ⟨?_, hissued⟩) ?_)
  · intro hreleased
    refine ⟨((h.entries id hholds.issued).released hreleased).1, ?_⟩
    cases hsession : connection.session with
    | none => rfl
    | some session =>
      rw [hsession, show (s.entries id).released = true from hreleased] at hopen
      exact absurd (hopen rfl) (by simp)
  · rw [operations_goto_self]
    refine ⟨⟨hholds.issued, ?_, ?_⟩, ?_, hok _⟩
    · rw [entries_setEntry_self]
      exact hholds.key
    · rw [entries_setEntry_self]
      exact hholds.owner
    · rw [entries_setEntry_self]
      exact hstage

lemma Inv.prepare (h : s.Inv) (hphase : s.operations t = .held op id .preparing) :
    Reaches t s (s.prepare t op id) := by
  have hok := h.phases t
  rw [hphase] at hok
  obtain ⟨hholds, -, -⟩ := hok
  have hclosed : Stage.IsOpen .connecting → (s.entries id).released = false := fun hopen =>
    absurd hopen (by simp [Stage.IsOpen])
  have hrunning : ∀ session, (s.entries id).connection.session = some session →
      Phase.Ok s t (.held op id (.running false)) := by
    intro session hsession
    refine ⟨hholds, fun _ => ?_, trivial⟩
    exact (h.entries id hholds.issued).unreleased (by rw [hsession]; rfl)
  unfold Runtime.prepare
  dsimp only
  split
  · split
    · exact h.leave_none hholds (op.next_ok · t)
    · rename_i session hsession
      exact h.goto (hrunning session hsession)
  · rename_i config _
    split
    · exact h.leave_same hholds (op.next_ok · t)
    · split
      · have hclear := h.setStore t (h.store.clearSubscriptions op.key)
          (Store.grows_clearSubscriptions _ _)
        refine hclear.trans (hclear.inv.reconnect ⟨hholds.issued, hholds.key, hholds.owner⟩ ?_
          (fun hsome => absurd hsome (by simp)) hclosed fun _ => trivial)
        intro session hsession
        cases hsession
      · split
        · exact h.goto ⟨hholds, hclosed, trivial⟩
        · rename_i session hsession
          split
          · refine h.reconnect hholds ?_ (fun hsome => absurd hsome (by simp)) hclosed fun _ => trivial
            intro session hsession
            cases hsession
          · exact h.goto (hrunning session hsession)

lemma Issued.kept {session : Session} (h : s.Issued (some session)) (failed isErr : Bool) :
    s.Issued (s.kept op { session with failed } isErr) := by
  unfold Runtime.kept
  split
  · intro ses hses
    cases hses
  · intro ses hses
    obtain rfl := Option.some.inj hses
    exact h session rfl

lemma Inv.run {fresh : Bool} {session : Session} (h : s.Inv)
    (hphase : s.operations t = .held op id (.running fresh))
    (hsession : (s.entries id).connection.session = some session) (input : Input) :
    Reaches t s (s.run t op id fresh session input) := by
  have hok := h.phases t
  rw [hphase] at hok
  obtain ⟨hholds, hopen, -⟩ := hok
  have hunreleased := hopen trivial
  have hissued : s.Issued (some session) := by
    rw [← hsession]
    exact (h.entries id hholds.issued).acknowledged
  unfold Runtime.run
  split
  · exact h.leave hholds (hissued.kept _ _) (fun _ => hunreleased) (op.next_ok · t)
  · exact h.goto ⟨hholds, fun _ => hunreleased, trivial⟩
  · rename_i config uri previous _
    have hremove := h.setStore t (h.store.removeSubscription op.key uri none)
      (Store.grows_removeSubscription _ _ _ _)
    refine hremove.trans (hremove.inv.goto ⟨?_, fun _ => hunreleased, trivial⟩)
    exact ⟨hholds.issued, hholds.key, hholds.owner⟩
  · rename_i target catalog answers cancelled _
    split
    · rename_i session' heq
      obtain ⟨failed, rfl⟩ := discover_eq_none heq
      exact h.leave hholds (hissued.kept _ _) (fun _ => hunreleased) (op.next_ok · t)
    · rename_i session' discovery heq
      obtain rfl := (discover_eq_some heq).1
      have hadmitted := h.setAdmission t target
        { s.admissions target with generation := some discovery.generation }
      exact hadmitted.trans (hadmitted.inv.leave ⟨hholds.issued, hholds.key, hholds.owner⟩
        (hissued.kept _ _) (fun _ => hunreleased) fun _ => trivial)
  · exact h.leave hholds (hissued.kept _ _) (fun _ => hunreleased) (op.next_ok · t)
  · rename_i target _ _ _ _ _ _
    have hrecord := h.record t (.called t target (s.entries id).connection.config session)
    exact hrecord.trans (hrecord.inv.leave ⟨hholds.issued, hholds.key, hholds.owner⟩
      (hissued.kept _ _) (fun _ => hunreleased) (op.next_ok · t))
  · exact h.leave hholds hissued (fun _ => hunreleased) fun _ => trivial
  · split
    · exact h.refl t
    · exact h.leave hholds (hissued.kept _ _) (fun _ => hunreleased) (op.next_ok · t)
  · exact h.refl t

lemma Inv.work (h : s.Inv) (hphase : s.operations t = .held op id stage) (input : Input) :
    Reaches t s (s.work t op id stage input) := by
  have hok := h.phases t
  rw [hphase] at hok
  obtain ⟨hholds, hopen, hstage⟩ := hok
  have hsound := h.entries id hholds.issued
  unfold Runtime.work
  split
  · exact h.prepare hphase
  · exact h.leave_none hholds (op.next_ok · t)
  · split
    · exact h.leave_none hholds (op.next_ok · t)
    · rename_i hstop
      have hgeneration : Reaches t s { s with nextGeneration := s.nextGeneration + 1 } :=
        h.quiet rfl rfl rfl (fun _ _ => rfl) rfl h.store (.refl _) (h.phases t)
      refine hgeneration.trans (hgeneration.inv.goto ⟨?_, ?_, trivial⟩)
      · exact ⟨hholds.issued, hholds.key, hholds.owner⟩
      · -- a connection whose session has been taken for good is stopped
        intro _
        cases hreleased : (s.entries id).released with
        | false => rfl
        | true => exact absurd (hsound.released hreleased).1 hstop
  · split
    · have hrenew := h.setStore t (h.store.renewSubscriptions op.key op.access.skipRestoreUri)
        (Store.grows_renewSubscriptions _ _ _)
      refine hrenew.trans (hrenew.inv.goto ⟨?_, fun _ => hopen trivial, ?_⟩)
      · exact ⟨hholds.issued, hholds.key, hholds.owner⟩
      · intro token htoken
        exact Store.lt_of_mem_renewSubscriptions htoken
    · exact h.leave_none hholds (op.next_ok · t)
  · dsimp only
    split
    · refine h.reconnect hholds ?_ (fun _ => hopen trivial) (fun _ => hopen trivial) fun _ => trivial
      intro session hsession token htoken
      obtain rfl := Option.some.inj hsession
      exact hstage token htoken
    · split
      · exact h.leave_none hholds (op.next_ok · t)
      · have hclear := h.setStore t (h.store.clearSubscriptions op.key)
          (Store.grows_clearSubscriptions _ _)
        exact hclear.trans (hclear.inv.leave_none ⟨hholds.issued, hholds.key, hholds.owner⟩
          (op.next_ok · t))
  · split
    · exact h.leave_none hholds (op.next_ok · t)
    · rename_i session hsession
      exact h.run hphase hsession _
  · rename_i uri subscribed
    dsimp only
    have hadd := h.setStore t (h.store.addSubscription op.key uri)
      (Store.grows_addSubscription op.key uri s.store)
    have hholds' : (s.setStore (s.store.addSubscription op.key uri).2).Holds t op id :=
      ⟨hholds.issued, hholds.key, hholds.owner⟩
    split
    · refine hadd.trans (hadd.inv.leave hholds' ?_ (fun _ => hopen trivial) (op.next_ok · t))
      intro ses hses token htoken
      obtain ⟨session, hsession, rfl⟩ := Option.map_eq_some_iff.mp hses
      rcases List.mem_cons.mp htoken with rfl | htoken
      · exact Nat.lt_succ_self _
      · exact Nat.lt_succ_of_lt (hsound.acknowledged session hsession token htoken)
    · refine hadd.trans (hadd.inv.goto ⟨hholds', fun _ => hopen trivial, Nat.lt_succ_self _, ?_⟩)
      intro session hsession hmem
      exact Nat.lt_irrefl _ (hsound.acknowledged session hsession _ hmem)
  · rename_i uri token answer
    dsimp only
    split
    · refine h.leave hholds ?_ (fun _ => hopen trivial) (op.next_ok · t)
      intro ses hses token' htoken
      obtain ⟨session, hsession, rfl⟩ := Option.map_eq_some_iff.mp hses
      rcases List.mem_cons.mp htoken with rfl | htoken
      · exact hstage.1
      · exact hsound.acknowledged session hsession token' htoken
    · have hremove := h.setStore t (h.store.removeSubscription op.key uri (some token))
        (Store.grows_removeSubscription _ _ _ _)
      refine hremove.trans (hremove.inv.leave ⟨hholds.issued, hholds.key, hholds.owner⟩ ?_
        (fun _ => hopen trivial) (op.next_ok · t))
      intro ses hses
      obtain ⟨session, hsession, hkept⟩ := Option.bind_eq_some_iff.mp hses
      have hissued : (s.setStore (s.store.removeSubscription op.key uri (some token))).Issued
          (some session) := by
        rw [← hsession]
        exact (hremove.inv.entries id hholds.issued).acknowledged
      exact hissued.kept _ _ ses hkept
  · split
    · exact h.leave_same hholds fun _ => trivial
    · exact h.leave_none hholds fun _ => trivial
  · exact h.refl t

/-- Some entries are stopped, or their dispatchers are at work or joined. -/
lemma Inv.flag (h : s.Inv) {entries : Nat → Entry}
    (hflag : ∀ id, ∃ stop dispatching joined, ((s.entries id).stop = true → stop = true) ∧
      entries id = { s.entries id with stop, dispatching, joined }) :
    Reaches t s { s with entries } := by
  have hext : ∀ i, Extends i s { s with entries } := by
    intro i
    refine ⟨Nat.le_refl _, .refl _, ?_⟩
    intro id _
    obtain ⟨stop, dispatching, joined, hstop, heq⟩ := hflag id
    show (s.entries id).Evolves i (entries id)
    rw [heq]
    exact ⟨rfl, hstop, fun hreleased => hreleased, fun _ _ howner => ⟨howner, rfl, rfl⟩⟩
  refine h.update (hext t) rfl rfl (fun _ _ => rfl) rfl h.store ?_
    ((h.phases t).mono (hext (t + 1)) (Nat.ne_of_lt (Nat.lt_succ_self t)))
  intro id hid
  obtain ⟨stop, dispatching, joined, hstop, heq⟩ := hflag id
  show (entries id).Sound _
  rw [heq]
  have hsound := h.entries id hid
  exact ⟨fun hreleased => ⟨hstop (hsound.released hreleased).1, (hsound.released hreleased).2⟩,
    hsound.acknowledged⟩

lemma Inv.flag_one (h : s.Inv) (id : Nat) {stop dispatching joined : Bool}
    (hstop : (s.entries id).stop = true → stop = true) :
    Reaches t s (s.setEntry id { s.entries id with stop, dispatching, joined }) := by
  refine h.flag ?_
  intro i
  by_cases hi : i = id
  · exact ⟨stop, dispatching, joined, hi ▸ hstop, by rw [if_pos hi, hi]⟩
  · exact ⟨_, _, _, fun hstop => hstop, if_neg hi⟩

lemma Inv.shutdownConnections (h : s.Inv) : Reaches t s (s.shutdownConnections t) := by
  unfold Runtime.shutdownConnections
  have hflag : Reaches t s { s with
      entries := fun id =>
        if id ∈ s.sessions.entries.map Prod.snd then { s.entries id with stop := true }
        else s.entries id } := by
    refine h.flag ?_
    intro id
    split
    · exact ⟨true, _, _, fun _ => rfl, rfl⟩
    · exact ⟨_, _, _, fun hstop => hstop, rfl⟩
  refine hflag.trans (hflag.inv.goto ?_)
  intro p hp
  have hmem : p.2 ∈ s.sessions.entries.map Prod.snd := List.mem_map.mpr ⟨p, hp, rfl⟩
  obtain ⟨hid, hkey⟩ := h.registered p.1 p.2 (Table.get_of_mem_entries hp)
  refine ⟨hid, ?_, ?_⟩
  · show (if p.2 ∈ s.sessions.entries.map Prod.snd then _ else _ : Entry).key = p.1
    rw [if_pos hmem]
    exact hkey
  · show (if p.2 ∈ s.sessions.entries.map Prod.snd then _ else _ : Entry).stop = true
    rw [if_pos hmem]

lemma Inv.closeKey (h : s.Inv) : Reaches t s (s.closeKey t key) := by
  unfold Runtime.closeKey
  split
  · rename_i id hget
    obtain ⟨hid, hkey⟩ := h.registered key id hget
    have hstop : Reaches t s (s.setEntry id { s.entries id with stop := true }) :=
      h.flag_one id fun _ => rfl
    refine hstop.trans (hstop.inv.goto ?_)
    intro p hp
    obtain rfl := List.mem_singleton.mp hp
    refine ⟨hid, ?_, ?_⟩
    · rw [entries_setEntry_self]
      exact hkey
    · rw [entries_setEntry_self]
  · have hclear := h.setStore t (h.store.clearSubscriptions key)
      (Store.grows_clearSubscriptions _ _)
    exact hclear.trans (hclear.inv.goto trivial)

lemma Inv.dispatchNotification (h : s.Inv) (value : Json.Value) :
    Reaches t s (s.dispatchNotification t id value) := by
  unfold Runtime.dispatchNotification
  dsimp only
  split
  · exact h.refl t
  · split
    · exact h.goto trivial
    · split
      · exact h.goto trivial
      · have hflag : Reaches t s (s.setEntry id { s.entries id with dispatching := true }) :=
          h.flag_one id fun hstop => hstop
        exact hflag.trans (hflag.inv.goto trivial)

lemma Inv.start (h : s.Inv) (input : Input) : Reaches t s (s.start t input) := by
  unfold Runtime.start
  split
  · exact h.goto trivial
  · split <;> exact h.goto trivial
  · exact h.goto trivial
  · exact h.goto trivial
  · split
    · split <;> exact h.goto trivial
    · exact h.goto trivial
  · exact h.closeKey
  · exact h.shutdownConnections
  · exact h.dispatchNotification _
  · rename_i scope
    have htake := h.setStore t (h.store.takePendingBatch scope)
      ⟨fun _ _ _ hsub => .inl hsub, Nat.le_refl _, List.Subset.refl _⟩
    refine htake.trans (htake.inv.goto ?_)
    intro q hq
    exact h.store.enqueued q (Store.mem_takePendingBatch hq)
  · exact h.refl t

/-! ### Retirement -/

variable {rest : List (Key × Nat)}

lemma Inv.releaseEntry (h : s.Inv) (hphase : s.operations t = .releasing ((key, id) :: rest)) :
    Reaches t s (s.releaseEntry t key id rest) := by
  have hok := h.phases t
  rw [hphase] at hok
  obtain ⟨hstopped, hrest⟩ := List.forall_mem_cons.mp hok
  unfold Runtime.releaseEntry
  dsimp only
  split
  · exact h.refl t
  · rename_i hfree
    have hset : Reaches t s (s.setEntry id { s.entries id with
        connection := { (s.entries id).connection with session := none }
        released := true }) := by
      refine h.setEntry ⟨rfl, fun hstop => hstop, fun _ => rfl, ?_⟩ ?_ ?_
      · intro i _ howner
        rw [howner] at hfree
        exact absurd rfl hfree
      · intro _
        refine ⟨fun _ => ⟨hstopped.stop, rfl⟩, ?_⟩
        intro session hsession
        cases hsession
      · rw [hphase]
        intro p hp
        have hp' := hok p hp
        refine ⟨hp'.issued, ?_, ?_⟩
        · by_cases hpid : p.2 = id
          · rw [hpid, entries_setEntry_self]
            exact hpid ▸ hp'.key
          · rw [entries_setEntry_of_ne hpid]
            exact hp'.key
        · by_cases hpid : p.2 = id
          · rw [hpid, entries_setEntry_self]
            exact hstopped.stop
          · rw [entries_setEntry_of_ne hpid]
            exact hp'.stop
    refine hset.trans (hset.inv.goto ⟨⟨?_, ?_⟩, ?_⟩)
    · exact hstopped.mono hset.extend
    · rw [entries_setEntry_self]
    · intro p hp
      exact (hrest p hp).mono hset.extend

lemma Inv.retireEntry (h : s.Inv) (hphase : s.operations t = .retiring key id rest) :
    Reaches t s (s.retireEntry t key id rest) := by
  have hok := h.phases t
  rw [hphase] at hok
  obtain ⟨⟨hstopped, hreleased⟩, hrest⟩ := hok
  unfold Runtime.retireEntry
  dsimp only
  split
  · exact h.flag_one id fun _ => rfl
  · have hflag : Reaches t s (s.setEntry id { s.entries id with stop := true, joined := true }) :=
      h.flag_one id fun _ => rfl
    refine hflag.trans (hflag.inv.goto ⟨⟨hstopped.mono hflag.extend, ?_⟩, ?_⟩)
    · exact (hflag.extend.entries id hstopped.issued).released hreleased
    · intro p hp
      exact (hrest p hp).mono hflag.extend

lemma Inv.removeEntry (h : s.Inv) (hphase : s.operations t = .removing key id rest) :
    Reaches t s (s.removeEntry t key id rest) := by
  have hok := h.phases t
  rw [hphase] at hok
  obtain ⟨⟨hstopped, hreleased⟩, hrest⟩ := hok
  unfold Runtime.removeEntry
  split
  · rename_i hcurrent
    have hgrows := Store.grows_clearSubscriptions key s.store
    have hext : ∀ i, Extends i s { s with
        store := s.store.clearSubscriptions key
        sessions := s.sessions.erase key } := fun i => extends_of_eq i rfl rfl hgrows
    have herase : Reaches t s { s with
        store := s.store.clearSubscriptions key
        sessions := s.sessions.erase key } := by
      refine ⟨⟨h.store.clearSubscriptions key, h.entries, ?_, ?_, ?_⟩, hext t, fun _ _ => rfl, rfl⟩
      · intro key' id' hget
        by_cases hkey : key' = key
        · rw [hkey] at hget
          rw [Table.get_erase_self] at hget
          cases hget
        · rw [Table.get_erase_of_ne hkey] at hget
          exact h.registered key' id' hget
      · -- the entry of the key has been taken for good, every other one keeps its key
        intro id' hid' hunreleased
        have hget := h.unreleased id' hid' hunreleased
        refine (Table.get_erase_of_ne ?_ _).trans hget
        intro hkey
        rw [hkey, hcurrent] at hget
        obtain rfl := Option.some.inj hget
        rw [show (s.entries id).released = false from hunreleased] at hreleased
        cases hreleased
      · intro i
        exact (h.phases i).mono (hext (i + 1)) (Nat.ne_of_lt (Nat.lt_succ_self i))
    refine herase.trans (herase.inv.goto ?_)
    intro p hp
    exact (hrest p hp).mono (hext t)
  · exact h.goto hrest

/-- A lock that is free is taken. -/
lemma Inv.acquire (h : s.Inv) (hphase : s.operations t = .checked op id)
    (hfree : (s.entries id).owner = none) :
    Reaches t s ((s.setEntry id { s.entries id with owner := some t }).goto t
      (.held op id .preparing)) := by
  have hok := h.phases t
  rw [hphase] at hok
  have hset : Reaches t s (s.setEntry id { s.entries id with owner := some t }) := by
    refine h.setEntry ⟨rfl, fun hstop => hstop, fun hreleased => hreleased, ?_⟩ ?_ ?_
    · intro i _ howner
      rw [hfree] at howner
      cases howner
    · intro hid
      exact ⟨(h.entries id hid).released, (h.entries id hid).acknowledged⟩
    · rw [hphase]
      refine ⟨hok.1, ?_⟩
      rw [entries_setEntry_self]
      exact hok.2
  refine hset.trans (hset.inv.goto ⟨⟨hok.1, ?_, ?_⟩, ?_, trivial⟩)
  · rw [entries_setEntry_self]
    exact hok.2
  · rw [entries_setEntry_self]
  · intro hopen
    exact absurd hopen (by simp [Stage.IsOpen])

/-- No step breaks what the operations rely on. -/
lemma Inv.step (h : s.Inv) (move : Nat × Input) : Reaches move.1 s (step s move) := by
  have hok := h.phases move.1
  unfold Runtime.step
  dsimp only
  split
  · exact h.start _
  · rename_i target _ _ _
    have hrecord := h.record move.1 (.discovered target none)
    exact hrecord.trans (hrecord.inv.goto trivial)
  · rename_i target limits _ _
    unfold discoverConfigured
    split
    · exact h.refl _
    · have hset := h.setAdmission move.1 target ⟨none, some move.1⟩
      dsimp only
      split
      · exact hset.trans (hset.inv.goto trivial)
      · exact hset.trans (hset.inv.goto trivial)
  · exact h.goto trivial
  · rename_i target tool arguments _ _
    unfold callConfigured
    dsimp only
    split
    · exact h.refl _
    · have hset := h.setAdmission move.1 target
        { s.admissions target with owner := some move.1 }
      split
      · exact hset.trans (hset.inv.goto trivial)
      · exact hset.trans (hset.inv.goto trivial)
  · exact h.goto (Op.next_ok _ _ _)
  · exact h.enter
  · exact h.goto (Op.next_ok _ _ _)
  · rename_i op id hphase _
    rw [hphase] at hok
    split
    · exact h.goto (Op.next_ok _ _ _)
    · exact h.goto hok
  · rename_i op id hphase _
    rw [hphase] at hok
    split
    · exact h.goto hok
    · rename_i hfree
      exact h.acquire hphase (by simpa using hfree)
  · rename_i hphase
    exact h.work hphase _
  · rename_i key uri previous _ _
    have hremove := h.setStore move.1 (h.store.removeSubscription key uri (some previous))
      (Store.grows_removeSubscription _ _ _ _)
    exact hremove.trans (hremove.inv.goto trivial)
  · rename_i target outcome _ _
    have hrecord := h.record move.1 (.discovered target outcome)
    have hset := hrecord.inv.setAdmission move.1 target { s.admissions target with owner := none }
    exact (hrecord.trans hset).trans (hset.inv.goto trivial)
  · rename_i target _ _
    have hset := h.setAdmission move.1 target { s.admissions target with owner := none }
    exact hset.trans (hset.inv.goto trivial)
  · rename_i dispatcher key uri token text _ _
    have henqueue := h.setStore move.1 (h.store.enqueue key uri token text)
      (Store.grows_enqueue _ _ _ _ _)
    exact henqueue.trans (henqueue.inv.goto trivial)
  · rename_i dispatcher _ _
    have hflag : Reaches move.1 s
        (s.setEntry dispatcher { s.entries dispatcher with dispatching := false }) :=
      h.flag_one dispatcher fun hstop => hstop
    exact hflag.trans (hflag.inv.goto trivial)
  · exact h.goto trivial
  · rename_i hphase _
    exact h.releaseEntry hphase
  · rename_i hphase _
    exact h.retireEntry hphase
  · rename_i hphase _
    exact h.removeEntry hphase
  · rename_i hphase _
    rw [hphase] at hok
    have hretry := h.setStore move.1 (h.store.restorePendingBatch hok)
      ⟨fun _ _ _ hsub => .inl hsub, Nat.le_refl _, List.Subset.refl _⟩
    exact hretry.trans (hretry.inv.goto trivial)
  · exact h.refl _

lemma inv_new (targets : Nat → TypedTarget) : (new targets).Inv := by
  refine ⟨Store.sound_default, ?_, ?_, ?_, fun _ => trivial⟩
  · intro id hid
    exact absurd hid (Nat.not_lt_zero id)
  · intro key id hget
    exact absurd hget (by simp [new, Table.get, Table.empty])
  · intro id hid
    exact absurd hid (Nat.not_lt_zero id)

lemma Inv.after (h : s.Inv) (moves : List (Nat × Input)) : (s.after moves).Inv :=
  Run.invariant (fun _ move h => (h.step move).inv) h moves

end Runtime

end Mcp
