import RpiPackage.Mcp.Ownership

/-!
# Calls that a discovery has admitted

The lock of an admission is held by a discovery until its outcome is known, and by a call until its
request has been answered. What a call finds admitted is what the last discovery has returned, as
long as a discovery that never got the lock has not failed.
-/

namespace Mcp

/-- Every page has been read and checked. -/
def Discovery.Validated (d : Discovery) : Prop :=
  ∃ limits catalog, Catalog.new limits = .ok catalog ∧ catalog.discover d.answers = .ok d.catalog

namespace Event

/-- What the last discovery of a target has returned. -/
def outcomeAfter (target : Nat) (last : Option Discovery) : Event → Option Discovery
  | .discovered target' outcome => if target' = target then outcome else last
  | .called .. => last

def lastOutcome (target : Nat) (log : List Event) : Option Discovery :=
  log.foldl (outcomeAfter target) none

def isCallOf (t : Nat) : Event → Bool
  | .discovered .. => false
  | .called t' .. => t' == t

/-- The requests that an operation has sent. -/
def callsOf (t : Nat) (log : List Event) : Nat := log.countP (isCallOf t)

/-- The last discovery of a target has admitted a generation. -/
def Admits (log : List Event) (target generation : Nat) : Prop :=
  ∃ d, lastOutcome target log = some d ∧ d.Validated ∧ d.generation = generation

variable {target t : Nat} {log : List Event} {outcome : Option Discovery}

lemma lastOutcome_discovered (target' : Nat) :
    lastOutcome target (log ++ [.discovered target' outcome]) =
      if target' = target then outcome else lastOutcome target log := by
  rw [lastOutcome, List.foldl_append]
  rfl

lemma lastOutcome_called (t target' : Nat) (config : Option McpServerConfig) (session : Session) :
    lastOutcome target (log ++ [.called t target' config session]) = lastOutcome target log := by
  rw [lastOutcome, List.foldl_append]
  rfl

lemma callsOf_concat (event : Event) :
    callsOf t (log ++ [event]) = callsOf t log + if isCallOf t event then 1 else 0 := by
  rw [callsOf, List.countP_append, List.countP_singleton]
  rfl

end Event

/-! ### What a discovery and a call rely on -/

namespace Access

def isExisting : Access → Bool
  | .existing .. => true
  | _ => false

end Access

def Op.Relies (admissions : Nat → Admission) (log : List Event) (t : Nat) (op : Op) : Prop :=
  match op.access with
  | .discover target catalog =>
    admissions target = ⟨none, some t⟩ ∧ ∃ limits, Catalog.new limits = .ok catalog
  | .existing target expected _ _ =>
    admissions target = ⟨some expected, some t⟩ ∧ Event.Admits log target expected
  | _ => True

/-- A call goes on with the session that has been admitted, and with no other. -/
def Stage.Relies (s : Runtime) (op : Op) (id : Nat) (stage : Stage) : Prop :=
  match op.access with
  | .existing target expected _ _ =>
    stage = .preparing ∨
      (∃ fresh, stage = .running fresh) ∧
        (s.entries id).connection.config = some (s.targets target).config ∧
        ∃ session, (s.entries id).connection.session = some session ∧ session.failed = false ∧
          session.generation = expected
  | _ => True

def Phase.Relies (s : Runtime) (t : Nat) : Phase → Prop
  | .entering op | .waiting op _ | .checked op _ => op.Relies s.admissions s.log t
  | .held op id stage => op.Relies s.admissions s.log t ∧ stage.Relies s op id
  | .settling target outcome =>
    s.admissions target = ⟨outcome.map Discovery.generation, some t⟩ ∧
      ∀ d, outcome = some d → d.Validated
  | .returning target =>
    (s.admissions target).owner = some t ∧
      ∀ generation, (s.admissions target).generation = some generation →
        Event.Admits s.log target generation
  | _ => True

/-- An operation that sends nothing any more. -/
def Phase.isOver : Phase → Bool
  | .returning _ | .finished => true
  | _ => false

/-- A discovery of the target is under way. -/
def Phase.discovers (target : Nat) : Phase → Bool
  | .entering op | .waiting op _ | .checked op _ | .held op _ _ =>
    match op.access with
    | .discover target' _ => target' == target
    | _ => false
  | .settling target' _ => target' == target
  | _ => false

namespace Runtime

/-- A discovery that fails for want of the lock of its target does so while nothing is admitted, or
while another discovery decides on it. -/
def withdrawsFirst (s : Runtime) (move : Nat × Input) : Bool :=
  match s.operations move.1, move.2 with
  | .discovering target _, .refuse =>
    (s.admissions target).generation.isNone ||
      (s.admissions target).owner.any fun i => (s.operations i).discovers target
  | _, _ => true

/-- What holds between any two steps of a run whose discoveries fail that way. -/
structure Guarded (s : Runtime) : Prop where
  inv : s.Inv
  free : ∀ target generation, (s.admissions target).owner = none →
    (s.admissions target).generation = some generation → Event.Admits s.log target generation
  phases : ∀ t, (s.operations t).Relies s t
  once : ∀ t, Event.callsOf t s.log ≤ 1
  unsent : ∀ t, (s.operations t).isOver = false → Event.callsOf t s.log = 0

end Runtime

variable {s s' : Runtime} {t i id target : Nat} {op : Op} {stage : Stage} {phase : Phase}

open Runtime in
/-- What an operation relies on is left alone by a step that leaves its admission and its entry. -/
lemma Phase.Relies.mono (hreach : Reaches t s s')
    (hne : i ≠ t) (hok : phase.Ok s i)
    (howned : ∀ target, (s.admissions target).owner = some i →
      s'.admissions target = s.admissions target ∧ (phase.discovers target = false →
        ∀ generation, (s.admissions target).generation = some generation →
          Event.Admits s.log target generation → Event.Admits s'.log target generation))
    (h : phase.Relies s i) : phase.Relies s' i := by
  have hop : ∀ {op : Op}, (∀ target, op.access.isExisting = true → phase.discovers target = false) →
      op.Relies s.admissions s.log i → op.Relies s'.admissions s'.log i := by
    intro op hcall hop
    unfold Op.Relies at hop ⊢
    split at hop
    · rename_i target _ _
      obtain ⟨hadmission, hlimits⟩ := hop
      exact ⟨(howned target (by rw [hadmission])).1.trans hadmission, hlimits⟩
    · rename_i target expected _ _ haccess
      obtain ⟨hadmission, hadmits⟩ := hop
      obtain ⟨hsame, hkept⟩ := howned target (by rw [hadmission])
      exact ⟨hsame.trans hadmission,
        hkept (hcall target (by rw [haccess]; rfl)) expected (by rw [hadmission]) hadmits⟩
    · trivial
  have hcall : ∀ {op : Op} (target : Nat), op.access.isExisting = true →
      (match op.access with | .discover target' _ => target' == target | _ => false) = false := by
    intro op target hexisting
    cases haccess : op.access with
    | discover =>
      rw [haccess] at hexisting
      cases hexisting
    | _ => rfl
  cases phase with
  | entering op | waiting op id | checked op id => exact hop hcall h
  | held op id stage =>
    refine ⟨hop hcall h.1, ?_⟩
    have hstage := h.2
    have hentry := (hreach.extend.entries id hok.1.issued).kept i hne hok.1.owner
    unfold Stage.Relies at hstage ⊢
    rw [hentry.2.1, hreach.targets]
    exact hstage
  | settling target outcome =>
    exact ⟨(howned target (by rw [h.1])).1.trans h.1, h.2⟩
  | returning target =>
    obtain ⟨hsame, hkept⟩ := howned target h.1
    refine ⟨by rw [hsame]; exact h.1, ?_⟩
    intro generation hgeneration
    rw [hsame] at hgeneration
    exact hkept rfl generation hgeneration (h.2 generation hgeneration)
  | _ => trivial

namespace Runtime

lemma relies_next (h : op.Relies s.admissions s.log t) : op.next.Relies s t := by
  unfold Op.Relies at h
  unfold Op.next
  cases haccess : op.access with
  | discover target catalog =>
    rw [haccess] at h
    refine ⟨h.1, ?_⟩
    intro d hd
    cases hd
  | existing target expected tool arguments =>
    rw [haccess] at h
    refine ⟨by rw [h.1], ?_⟩
    intro generation hgeneration
    rw [h.1] at hgeneration
    rw [← Option.some.inj hgeneration]
    exact h.2
  | unsubscribe config uri previous =>
    cases previous with
    | none => trivial
    | some previous => trivial
  | _ => trivial

/-- Neither an admission nor the log is touched. -/
lemma Guarded.quiet (h : s.Guarded) (hreach : Reaches t s s')
    (hadmissions : s'.admissions = s.admissions) (hlog : s'.log = s.log)
    (hphase : (s'.operations t).Relies s' t)
    (hover : (s'.operations t).isOver = false → (s.operations t).isOver = false) : s'.Guarded := by
  refine ⟨hreach.inv, ?_, ?_, ?_, ?_⟩
  · rw [hadmissions, hlog]
    exact h.free
  · intro i
    by_cases hi : i = t
    · rw [hi]
      exact hphase
    · rw [hreach.operations i hi]
      refine (h.phases i).mono hreach hi (h.inv.phases i) ?_
      intro target _
      rw [hadmissions, hlog]
      exact ⟨rfl, fun _ _ _ hadmits => hadmits⟩
  · rw [hlog]
    exact h.once
  · intro i hi
    rw [hlog]
    refine h.unsent i ?_
    by_cases heq : i = t
    · rw [heq] at hi ⊢
      exact hover hi
    · rw [← hreach.operations i heq]
      exact hi

/-- An operation goes on to another phase, whatever it has done to the rest. -/
lemma Guarded.goto (h : s.Guarded) (hreach : Reaches t s (s'.goto t phase))
    (hadmissions : s'.admissions = s.admissions) (hlog : s'.log = s.log)
    (hphase : phase.Relies (s'.goto t phase) t)
    (hover : phase.isOver = false → (s.operations t).isOver = false) :
    (s'.goto t phase).Guarded := by
  refine h.quiet hreach hadmissions hlog ?_ ?_
  · rw [operations_goto_self]
    exact hphase
  · rw [operations_goto_self]
    exact hover

lemma Guarded.start (h : s.Guarded) (hphase : s.operations t = .idle) (input : Input)
    (hreach : Reaches t s (s.start t input)) : (s.start t input).Guarded := by
  have hopen : (s.operations t).isOver = false := by
    rw [hphase]
    rfl
  revert hreach
  unfold Runtime.start
  split
  · exact fun hreach => h.goto hreach rfl rfl trivial fun _ => hopen
  · split
    · exact fun hreach => h.goto hreach rfl rfl trivial fun _ => hopen
    · exact fun hreach => h.goto hreach rfl rfl trivial fun _ => hopen
  · exact fun hreach => h.goto hreach rfl rfl trivial fun _ => hopen
  · exact fun hreach => h.goto hreach rfl rfl trivial fun _ => hopen
  · split
    · split
      · exact fun hreach => h.goto hreach rfl rfl trivial fun _ => hopen
      · exact fun hreach => h.goto hreach rfl rfl trivial fun _ => hopen
    · exact fun hreach => h.goto hreach rfl rfl trivial fun _ => hopen
  · unfold closeKey
    split
    · exact fun hreach => h.goto hreach rfl rfl trivial fun _ => hopen
    · exact fun hreach => h.goto hreach rfl rfl trivial fun _ => hopen
  · exact fun hreach => h.goto hreach rfl rfl trivial fun _ => hopen
  · unfold dispatchNotification
    dsimp only
    split
    · exact fun _ => h
    · split
      · exact fun hreach => h.goto hreach rfl rfl trivial fun _ => hopen
      · split
        · exact fun hreach => h.goto hreach rfl rfl trivial fun _ => hopen
        · exact fun hreach => h.goto hreach rfl rfl trivial fun _ => hopen
  · exact fun hreach => h.goto hreach rfl rfl trivial fun _ => hopen
  · exact fun _ => h

/-- The lock of an admission is taken or left, or what it admits is changed, by the operation that
holds it. -/
lemma Guarded.of_admission (h : s.Guarded) (hreach : Reaches t s s') {admission : Admission}
    (hadmissions : s'.admissions = (s.setAdmission target admission).admissions)
    (hlog : ∀ target' generation, target' ≠ target → Event.Admits s.log target' generation →
      Event.Admits s'.log target' generation)
    (hcalls : ∀ i, Event.callsOf i s'.log = Event.callsOf i s.log)
    (howner : ∀ i, i ≠ t → (s.admissions target).owner ≠ some i)
    (hfree : ∀ generation, admission.owner = none → admission.generation = some generation →
      Event.Admits s'.log target generation)
    (hphase : (s'.operations t).Relies s' t)
    (hover : (s'.operations t).isOver = false → (s.operations t).isOver = false) : s'.Guarded := by
  have hself : s'.admissions target = admission := by
    rw [hadmissions]
    exact if_pos rfl
  have hother : ∀ target', target' ≠ target → s'.admissions target' = s.admissions target' := by
    intro target' hne
    rw [hadmissions]
    exact if_neg hne
  refine ⟨hreach.inv, ?_, ?_, ?_, ?_⟩
  · intro target' generation hnone hgeneration
    by_cases heq : target' = target
    · rw [heq] at hnone hgeneration ⊢
      rw [hself] at hnone hgeneration
      exact hfree generation hnone hgeneration
    · rw [hother target' heq] at hnone hgeneration
      exact hlog target' generation heq (h.free target' generation hnone hgeneration)
  · intro i
    by_cases hi : i = t
    · rw [hi]
      exact hphase
    · rw [hreach.operations i hi]
      refine (h.phases i).mono hreach hi (h.inv.phases i) ?_
      intro target' howned
      have hne : target' ≠ target := by
        rintro rfl
        exact howner i hi howned
      exact ⟨hother target' hne, fun _ generation _ hadmits => hlog target' generation hne hadmits⟩
  · intro i
    rw [hcalls]
    exact h.once i
  · intro i hi
    rw [hcalls]
    refine h.unsent i ?_
    by_cases heq : i = t
    · rw [heq] at hi ⊢
      exact hover hi
    · rw [← hreach.operations i heq]
      exact hi

lemma Guarded.discoverConfigured (h : s.Guarded) {limits : DiscoveryLimits}
    (hphase : s.operations t = .discovering target limits)
    (hreach : Reaches t s (s.discoverConfigured t target limits)) :
    (s.discoverConfigured t target limits).Guarded := by
  have hopen : (s.operations t).isOver = false := by
    rw [hphase]
    rfl
  revert hreach
  unfold Runtime.discoverConfigured
  split
  · exact fun _ => h
  · rename_i hfree
    have howner : ∀ i, i ≠ t → (s.admissions target).owner ≠ some i := by
      intro i _ howner
      rw [howner] at hfree
      exact hfree rfl
    have hself : (s.setAdmission target ⟨none, some t⟩).admissions target = ⟨none, some t⟩ :=
      if_pos rfl
    dsimp only
    split
    · intro hreach
      refine h.of_admission hreach rfl (fun _ _ _ hadmits => hadmits) (fun _ => rfl) howner ?_ ?_
        fun _ => hopen
      · intro generation hnone
        cases hnone
      · rw [operations_goto_self]
        refine ⟨hself, ?_⟩
        intro d hd
        cases hd
    · rename_i catalog hcatalog
      intro hreach
      refine h.of_admission hreach rfl (fun _ _ _ hadmits => hadmits) (fun _ => rfl) howner ?_ ?_
        fun _ => hopen
      · intro generation hnone
        cases hnone
      · rw [operations_goto_self]
        exact ⟨hself, limits, hcatalog⟩

lemma Guarded.callConfigured (h : s.Guarded) {tool : String} {arguments : Json.Value}
    (hphase : s.operations t = .calling target tool arguments)
    (hreach : Reaches t s (s.callConfigured t target tool arguments)) :
    (s.callConfigured t target tool arguments).Guarded := by
  have hopen : (s.operations t).isOver = false := by
    rw [hphase]
    rfl
  revert hreach
  unfold Runtime.callConfigured
  dsimp only
  split
  · exact fun _ => h
  · rename_i hfree
    have hnone : (s.admissions target).owner = none := by simpa using hfree
    have howner : ∀ i, i ≠ t → (s.admissions target).owner ≠ some i := by
      intro i _ howner
      rw [hnone] at howner
      cases howner
    have hself : (s.setAdmission target { s.admissions target with owner := some t }).admissions
        target = { s.admissions target with owner := some t } := if_pos rfl
    split
    · rename_i hgeneration
      intro hreach
      refine h.of_admission hreach rfl (fun _ _ _ hadmits => hadmits) (fun _ => rfl)
        howner ?_ ?_ fun _ => hopen
      · intro generation hnone
        cases hnone
      · rw [operations_goto_self]
        refine ⟨congrArg Admission.owner hself, ?_⟩
        intro generation hsome
        have hsame := (congrArg Admission.generation hself).symm.trans hsome
        exact absurd (hgeneration.symm.trans hsame) (by simp)
    · rename_i generation hgeneration
      intro hreach
      refine h.of_admission hreach rfl (fun _ _ _ hadmits => hadmits) (fun _ => rfl)
        howner ?_ ?_ fun _ => hopen
      · intro generation hnone
        cases hnone
      · rw [operations_goto_self]
        refine ⟨?_, h.free target generation hnone hgeneration⟩
        rw [← hgeneration]
        exact hself

lemma relies_of_not_existing (h : op.access.isExisting = false) : stage.Relies s op id := by
  unfold Stage.Relies
  split
  · rename_i haccess
    rw [haccess] at h
    cases h
  · trivial

/-- Only the first and the last stage of a call are ever reached. -/
lemma not_existing_of_relies (h : stage.Relies s op id) (hpreparing : stage ≠ .preparing)
    (hrunning : ∀ fresh, stage ≠ .running fresh) : op.access.isExisting = false := by
  unfold Stage.Relies at h
  cases haccess : op.access with
  | existing target expected tool arguments =>
    rw [haccess] at h
    rcases h with hstage | ⟨⟨fresh, hstage⟩, -⟩
    · exact absurd hstage hpreparing
    · exact absurd hstage (hrunning fresh)
  | _ => rfl

/-- What is not stale is the session that has been admitted. -/
lemma relies_of_not_stale {config : McpServerConfig} (hconfig : s.configOf op.access = some config)
    (hstale : isStale (s.entries id).connection config op.access = false) (fresh : Bool) :
    (Stage.running fresh).Relies s op id := by
  unfold Stage.Relies
  split
  · rename_i target expected tool arguments haccess
    rw [haccess] at hconfig hstale
    obtain rfl := Option.some.inj hconfig
    obtain ⟨hsame, hlive⟩ := Bool.or_eq_false_iff.mp hstale
    refine .inr ⟨⟨fresh, rfl⟩, by simpa using hsame, ?_⟩
    cases hsession : (s.entries id).connection.session with
    | none => simp [hsession] at hlive
    | some session =>
      rw [hsession] at hlive
      obtain ⟨hok, hgeneration⟩ : session.failed = false ∧ session.generation = expected := by
        simpa using hlive
      exact ⟨session, rfl, hok, hgeneration⟩
  · trivial

lemma Guarded.prepare (h : s.Guarded) (hphase : s.operations t = .held op id .preparing)
    (hreach : Reaches t s (s.prepare t op id)) : (s.prepare t op id).Guarded := by
  have hopen : (s.operations t).isOver = false := by
    rw [hphase]
    rfl
  have hrelies := h.phases t
  rw [hphase] at hrelies
  obtain ⟨hop, -⟩ := hrelies
  revert hreach
  unfold Runtime.prepare
  dsimp only
  split
  · rename_i hnone
    have hother : op.access.isExisting = false := by
      cases haccess : op.access with
      | existing =>
        rw [haccess] at hnone
        cases hnone
      | _ => rfl
    split
    · exact fun hreach => h.goto hreach rfl rfl (relies_next hop) fun _ => hopen
    · exact fun hreach => h.goto hreach rfl rfl ⟨hop, relies_of_not_existing hother⟩ fun _ => hopen
  · rename_i config hconfig
    split
    · exact fun hreach => h.goto hreach rfl rfl (relies_next hop) fun _ => hopen
    · rename_i hstale
      have hfresh := relies_of_not_stale hconfig (by simpa using hstale) false
      -- a call that is not stale finds its config and its session
      have hother : ((s.entries id).connection.config != some config) = true ∨
          (∀ session, (s.entries id).connection.session = some session → session.failed = true) →
          op.access.isExisting = false := by
        intro hbad
        cases haccess : op.access with
        | existing target expected tool arguments =>
          unfold Stage.Relies at hfresh
          rw [haccess] at hfresh hconfig
          obtain rfl := Option.some.inj hconfig
          rcases hfresh with hstage | ⟨-, hsame, session, hsession, hok, -⟩
          · cases hstage
          · rcases hbad with hne | hfailed
            · rw [hsame] at hne
              simp at hne
            · rw [hfailed session hsession] at hok
              cases hok
        | _ => rfl
      split
      · rename_i hne
        exact fun hreach => h.goto hreach rfl rfl
          ⟨hop, relies_of_not_existing (hother (.inl hne))⟩ fun _ => hopen
      · split
        · rename_i hnone
          refine fun hreach => h.goto hreach rfl rfl
            ⟨hop, relies_of_not_existing (hother (.inr ?_))⟩ fun _ => hopen
          intro session hsession
          rw [hnone] at hsession
          cases hsession
        · rename_i session hsession
          split
          · rename_i hfailed
            refine fun hreach => h.goto hreach rfl rfl
              ⟨hop, relies_of_not_existing (hother (.inr ?_))⟩ fun _ => hopen
            intro session' hsession'
            rw [hsession] at hsession'
            rw [← Option.some.inj hsession']
            exact hfailed
          · exact fun hreach => h.goto hreach rfl rfl ⟨hop, hfresh⟩ fun _ => hopen

/-- A request is sent over the session that has been admitted. -/
lemma Guarded.sent (h : s.Guarded) {fresh : Bool} {session : Session} {next : Option Session}
    {expected : Nat} {tool : String} {arguments : Json.Value} {event : Event}
    (hphase : s.operations t = .held op id (.running fresh))
    (haccess : op.access = .existing target expected tool arguments)
    (hevent : event = .called t target (s.entries id).connection.config session)
    (hreach : Reaches t s ((s.record event).leave t id next op.next)) :
    ((s.record event).leave t id next op.next).Guarded := by
  have hopen : (s.operations t).isOver = false := by
    rw [hphase]
    rfl
  have hrelies := h.phases t
  rw [hphase] at hrelies
  obtain ⟨hop, -⟩ := hrelies
  have hlog : ∀ target', Event.lastOutcome target' (s.log ++ [event]) =
      Event.lastOutcome target' s.log := by
    intro target'
    rw [hevent, Event.lastOutcome_called]
  have hadmits : ∀ target' generation, Event.Admits s.log target' generation →
      Event.Admits (s.log ++ [event]) target' generation := by
    intro target' generation hadmits
    unfold Event.Admits at hadmits ⊢
    rw [hlog]
    exact hadmits
  have hcalls : ∀ i, Event.callsOf i (s.log ++ [event]) =
      Event.callsOf i s.log + if t = i then 1 else 0 := by
    intro i
    rw [Event.callsOf_concat, hevent]
    simp [Event.isCallOf]
  have hnext : op.next = .returning target := by
    unfold Op.next
    rw [haccess]
  have hphase' : ((s.record event).leave t id next op.next).operations t = .returning target := by
    rw [← hnext]
    exact operations_goto_self _ _ _
  refine ⟨hreach.inv, ?_, ?_, ?_, ?_⟩
  · intro target' generation hfree hgeneration
    exact hadmits target' generation (h.free target' generation hfree hgeneration)
  · intro i
    by_cases hi : i = t
    · rw [hi, hphase']
      have hnext' := relies_next hop
      rw [hnext] at hnext'
      exact ⟨hnext'.1, fun generation hgeneration =>
        hadmits target generation (hnext'.2 generation hgeneration)⟩
    · rw [hreach.operations i hi]
      exact (h.phases i).mono hreach hi (h.inv.phases i) fun target' _ =>
        ⟨rfl, fun _ generation _ => hadmits target' generation⟩
  · intro i
    show Event.callsOf i (s.log ++ [event]) ≤ 1
    rw [hcalls]
    by_cases hi : t = i
    · rw [if_pos hi, ← hi, h.unsent t hopen]
    · rw [if_neg hi]
      exact h.once i
  · intro i hi
    have hne : i ≠ t := by
      rintro rfl
      rw [hphase'] at hi
      cases hi
    show Event.callsOf i (s.log ++ [event]) = 0
    rw [hcalls, if_neg hne.symm]
    rw [hreach.operations i hne] at hi
    exact h.unsent i hi

lemma Guarded.run (h : s.Guarded) {fresh : Bool} {session : Session}
    (hphase : s.operations t = .held op id (.running fresh)) {input : Input}
    (hreach : Reaches t s (s.run t op id fresh session input)) :
    (s.run t op id fresh session input).Guarded := by
  have hopen : (s.operations t).isOver = false := by
    rw [hphase]
    rfl
  have hrelies := h.phases t
  rw [hphase] at hrelies
  obtain ⟨hop, -⟩ := hrelies
  revert hreach
  unfold Runtime.run
  split
  · exact fun hreach => h.goto hreach rfl rfl (relies_next hop) fun _ => hopen
  · rename_i haccess
    refine fun hreach => h.goto hreach rfl rfl ⟨hop, relies_of_not_existing ?_⟩ fun _ => hopen
    rw [haccess]
    rfl
  · rename_i haccess
    refine fun hreach => h.goto hreach rfl rfl ⟨hop, relies_of_not_existing ?_⟩ fun _ => hopen
    rw [haccess]
    rfl
  · rename_i target catalog answers cancelled haccess
    split
    · exact fun hreach => h.goto hreach rfl rfl (relies_next hop) fun _ => hopen
    · rename_i session' discovery hdiscover
      intro hreach
      unfold Op.Relies at hop
      rw [haccess] at hop
      obtain ⟨hadmission, limits, hcatalog⟩ := hop
      refine h.of_admission hreach rfl (fun _ _ _ hadmits => hadmits) (fun _ => rfl)
        ?_ ?_ ?_ fun _ => hopen
      · intro i hne howner
        rw [hadmission] at howner
        exact hne (Option.some.inj howner).symm
      · intro generation hnone
        rw [show (s.admissions target).owner = some t by rw [hadmission]] at hnone
        cases hnone
      · rw [show (Runtime.leave _ t id _ _).operations t = _ from operations_goto_self _ _ _]
        refine ⟨?_, ?_⟩
        · show (if target = target then _ else _ : Admission) = _
          rw [if_pos rfl, hadmission]
          rfl
        · intro d hd
          obtain rfl := Option.some.inj hd
          exact ⟨limits, catalog, hcatalog, (discover_eq_some hdiscover).2.2⟩
  · exact fun hreach => h.goto hreach rfl rfl (relies_next hop) fun _ => hopen
  · rename_i haccess
    exact fun hreach => h.sent hphase haccess rfl hreach
  · exact fun hreach => h.goto hreach rfl rfl trivial fun _ => hopen
  · split
    · exact fun _ => h
    · exact fun hreach => h.goto hreach rfl rfl (relies_next hop) fun _ => hopen
  · exact fun _ => h

lemma Guarded.work (h : s.Guarded) (hphase : s.operations t = .held op id stage) {input : Input}
    (hreach : Reaches t s (s.work t op id stage input)) : (s.work t op id stage input).Guarded := by
  have hopen : (s.operations t).isOver = false := by
    rw [hphase]
    rfl
  have hrelies := h.phases t
  rw [hphase] at hrelies
  obtain ⟨hop, hstage⟩ := hrelies
  have hother := not_existing_of_relies hstage
  revert hreach
  unfold Runtime.work
  split
  · exact h.prepare hphase
  · exact fun hreach => h.goto hreach rfl rfl (relies_next hop) fun _ => hopen
  · split
    · exact fun hreach => h.goto hreach rfl rfl (relies_next hop) fun _ => hopen
    · exact fun hreach => h.goto hreach rfl rfl
        ⟨hop, relies_of_not_existing (hother (by simp) (by simp))⟩ fun _ => hopen
  · split
    · exact fun hreach => h.goto hreach rfl rfl
        ⟨hop, relies_of_not_existing (hother (by simp) (by simp))⟩ fun _ => hopen
    · exact fun hreach => h.goto hreach rfl rfl (relies_next hop) fun _ => hopen
  · dsimp only
    split
    · exact fun hreach => h.goto hreach rfl rfl
        ⟨hop, relies_of_not_existing (hother (by simp) (by simp))⟩ fun _ => hopen
    · split
      · exact fun hreach => h.goto hreach rfl rfl (relies_next hop) fun _ => hopen
      · exact fun hreach => h.goto hreach rfl rfl (relies_next hop) fun _ => hopen
  · split
    · exact fun hreach => h.goto hreach rfl rfl (relies_next hop) fun _ => hopen
    · exact fun hreach => h.run hphase hreach
  · dsimp only
    split
    · exact fun hreach => h.goto hreach rfl rfl (relies_next hop) fun _ => hopen
    · exact fun hreach => h.goto hreach rfl rfl
        ⟨hop, relies_of_not_existing (hother (by simp) (by simp))⟩ fun _ => hopen
  · dsimp only
    split
    · exact fun hreach => h.goto hreach rfl rfl (relies_next hop) fun _ => hopen
    · exact fun hreach => h.goto hreach rfl rfl (relies_next hop) fun _ => hopen
  · exact fun hreach => h.goto hreach rfl rfl trivial fun _ => hopen
  · exact fun _ => h

lemma Guarded.enter (h : s.Guarded) (hphase : s.operations t = .entering op)
    (hreach : Reaches t s (s.enter t op)) : (s.enter t op).Guarded := by
  have hopen : (s.operations t).isOver = false := by
    rw [hphase]
    rfl
  have hop := h.phases t
  rw [hphase] at hop
  revert hreach
  unfold Runtime.enter
  split
  · exact fun hreach => h.goto hreach rfl rfl hop fun _ => hopen
  · split
    · exact fun hreach => h.goto hreach rfl rfl (relies_next hop) fun _ => hopen
    · split
      · exact fun hreach => h.goto hreach rfl rfl (relies_next hop) fun _ => hopen
      · exact fun hreach => h.goto hreach rfl rfl hop fun _ => hopen

/-- A discovery that never got its lock has failed. -/
lemma Guarded.refused (h : s.Guarded) {limits : DiscoveryLimits}
    (hphase : s.operations t = .discovering target limits)
    (hfirst : ((s.admissions target).generation.isNone ||
      (s.admissions target).owner.any fun i => (s.operations i).discovers target) = true)
    (hreach : Reaches t s ((s.record (.discovered target none)).goto t .finished)) :
    ((s.record (.discovered target none)).goto t .finished).Guarded := by
  have hother : ∀ target' generation, target' ≠ target → Event.Admits s.log target' generation →
      Event.Admits (s.log ++ [.discovered target none]) target' generation := by
    intro target' generation hne hadmits
    unfold Event.Admits at hadmits ⊢
    rw [Event.lastOutcome_discovered, if_neg hne.symm]
    exact hadmits
  have hcalls : ∀ i, Event.callsOf i (s.log ++ [.discovered target none]) =
      Event.callsOf i s.log := by
    intro i
    rw [Event.callsOf_concat]
    rfl
  refine ⟨hreach.inv, ?_, ?_, ?_, ?_⟩
  · intro target' generation hnone hgeneration
    by_cases heq : target' = target
    · rw [heq] at hnone hgeneration
      rw [show (s.admissions target).owner = none from hnone,
        show (s.admissions target).generation = some generation from hgeneration] at hfirst
      exact absurd hfirst (by simp)
    · exact hother target' generation heq (h.free target' generation hnone hgeneration)
  · intro i
    by_cases hi : i = t
    · rw [hi, operations_goto_self]
      trivial
    · rw [hreach.operations i hi]
      refine (h.phases i).mono hreach hi (h.inv.phases i) ?_
      intro target' howner
      refine ⟨rfl, ?_⟩
      intro hcall generation hgeneration hadmits
      by_cases heq : target' = target
      · rw [heq] at howner hgeneration hcall
        rw [howner, hgeneration] at hfirst
        simp [hcall] at hfirst
      · exact hother target' generation heq hadmits
  · intro i
    show Event.callsOf i (s.log ++ [.discovered target none]) ≤ 1
    rw [hcalls]
    exact h.once i
  · intro i hi
    show Event.callsOf i (s.log ++ [.discovered target none]) = 0
    rw [hcalls]
    have hne : i ≠ t := by
      rintro rfl
      rw [operations_goto_self] at hi
      cases hi
    rw [hreach.operations i hne] at hi
    exact h.unsent i hi

lemma Guarded.settled (h : s.Guarded) {outcome : Option Discovery}
    (hphase : s.operations t = .settling target outcome)
    (hreach : Reaches t s (((s.record (.discovered target outcome)).setAdmission target
      { s.admissions target with owner := none }).goto t .finished)) :
    (((s.record (.discovered target outcome)).setAdmission target
      { s.admissions target with owner := none }).goto t .finished).Guarded := by
  have hopen : (s.operations t).isOver = false := by
    rw [hphase]
    rfl
  have hrelies := h.phases t
  rw [hphase] at hrelies
  obtain ⟨hadmission, hvalidated⟩ := hrelies
  refine h.of_admission hreach rfl ?_ ?_ ?_ ?_ ?_ fun _ => hopen
  · intro target' generation hne hadmits
    show Event.Admits (s.log ++ [.discovered target outcome]) target' generation
    unfold Event.Admits at hadmits ⊢
    rw [Event.lastOutcome_discovered, if_neg hne.symm]
    exact hadmits
  · intro i
    show Event.callsOf i (s.log ++ [.discovered target outcome]) = _
    rw [Event.callsOf_concat]
    rfl
  · intro i hne howner
    rw [hadmission] at howner
    exact hne (Option.some.inj howner).symm
  · intro generation _ hgeneration
    rw [show (s.admissions target).generation = outcome.map Discovery.generation by
      rw [hadmission]] at hgeneration
    obtain ⟨d, rfl, hd⟩ := Option.map_eq_some_iff.mp hgeneration
    refine ⟨d, ?_, hvalidated d rfl, hd⟩
    show Event.lastOutcome target (s.log ++ [.discovered target (some d)]) = some d
    rw [Event.lastOutcome_discovered, if_pos rfl]
  · rw [operations_goto_self]
    trivial

lemma Guarded.step (h : s.Guarded) {move : Nat × Input} (hfirst : s.withdrawsFirst move = true) :
    (step s move).Guarded := by
  have hreach := h.inv.step move
  have hrelies := h.phases move.1
  unfold withdrawsFirst at hfirst
  revert hreach
  unfold Runtime.step
  dsimp only
  split
  · rename_i hphase
    exact h.start hphase _
  · rename_i target limits hphase hinput
    rw [hphase, hinput] at hfirst
    exact h.refused hphase hfirst
  · rename_i hphase _
    exact h.discoverConfigured hphase
  · rename_i hphase _
    exact fun hreach => h.goto hreach rfl rfl trivial fun _ => by rw [hphase]; rfl
  · rename_i hphase _
    exact h.callConfigured hphase
  · rename_i hphase _
    rw [hphase] at hrelies
    exact fun hreach => h.goto hreach rfl rfl (relies_next hrelies) fun _ => by rw [hphase]; rfl
  · rename_i hphase _
    exact h.enter hphase
  · rename_i hphase _
    rw [hphase] at hrelies
    exact fun hreach => h.goto hreach rfl rfl (relies_next hrelies) fun _ => by rw [hphase]; rfl
  · rename_i hphase _
    rw [hphase] at hrelies
    split
    · exact fun hreach => h.goto hreach rfl rfl (relies_next hrelies) fun _ => by rw [hphase]; rfl
    · exact fun hreach => h.goto hreach rfl rfl hrelies fun _ => by rw [hphase]; rfl
  · rename_i hphase _
    rw [hphase] at hrelies
    split
    · exact fun hreach => h.goto hreach rfl rfl hrelies fun _ => by rw [hphase]; rfl
    · refine fun hreach => h.goto hreach rfl rfl ⟨hrelies, ?_⟩ fun _ => by rw [hphase]; rfl
      unfold Stage.Relies
      split
      · exact .inl rfl
      · trivial
  · rename_i hphase
    exact h.work hphase
  · rename_i hphase _
    exact fun hreach => h.goto hreach rfl rfl trivial fun _ => by rw [hphase]; rfl
  · rename_i hphase _
    exact h.settled hphase
  · rename_i target hphase _
    rw [hphase] at hrelies
    intro hreach
    refine h.of_admission hreach rfl (fun _ _ _ hadmits => hadmits) (fun _ => rfl)
      ?_ ?_ ?_ ?_
    · intro i hne howner
      rw [hrelies.1] at howner
      exact hne (Option.some.inj howner).symm
    · exact fun generation _ hgeneration => hrelies.2 generation hgeneration
    · rw [operations_goto_self]
      trivial
    · rw [operations_goto_self]
      intro hover
      cases hover
  · rename_i hphase _
    exact fun hreach => h.goto hreach rfl rfl trivial fun _ => by rw [hphase]; rfl
  · rename_i hphase _
    exact fun hreach => h.goto hreach rfl rfl trivial fun _ => by rw [hphase]; rfl
  · rename_i hphase _
    exact fun hreach => h.goto hreach rfl rfl trivial fun _ => by rw [hphase]; rfl
  · rename_i hphase _
    unfold Runtime.releaseEntry
    dsimp only
    split
    · exact fun _ => h
    · exact fun hreach => h.goto hreach rfl rfl trivial fun _ => by rw [hphase]; rfl
  · rename_i hphase _
    unfold Runtime.retireEntry
    dsimp only
    split
    · intro hreach
      refine h.quiet hreach rfl rfl ?_ fun hopen => hopen
      show (s.operations move.1).Relies _ _
      rw [hphase]
      trivial
    · exact fun hreach => h.goto hreach rfl rfl trivial fun _ => by rw [hphase]; rfl
  · rename_i hphase _
    unfold Runtime.removeEntry
    split
    · exact fun hreach => h.goto hreach rfl rfl trivial fun _ => by rw [hphase]; rfl
    · exact fun hreach => h.goto hreach rfl rfl trivial fun _ => by rw [hphase]; rfl
  · rename_i hphase _
    exact fun hreach => h.goto hreach rfl rfl trivial fun _ => by rw [hphase]; rfl
  · exact fun _ => h

/-! ### What is sent -/

/-- The log after a step of an operation. -/
inductive Logs (s : Runtime) (t : Nat) : List Event → Prop
  | same : Logs s t s.log
  | discovered (target : Nat) (outcome : Option Discovery) :
      Logs s t (s.log ++ [.discovered target outcome])
  | called {op : Op} {id target expected : Nat} {fresh : Bool} {tool : String}
      {arguments : Json.Value} {session : Session}
      (hphase : s.operations t = .held op id (.running fresh))
      (haccess : op.access = .existing target expected tool arguments)
      (hsession : (s.entries id).connection.session = some session) :
      Logs s t (s.log ++ [.called t target (s.entries id).connection.config session])

lemma logs_start (s : Runtime) (t : Nat) (input : Input) : s.Logs t (s.start t input).log := by
  unfold start
  split
  · exact .same
  · split <;> exact .same
  · exact .same
  · exact .same
  · split
    · split <;> exact .same
    · exact .same
  · unfold closeKey
    split <;> exact .same
  · exact .same
  · unfold dispatchNotification
    dsimp only
    split
    · exact .same
    · split
      · exact .same
      · split <;> exact .same
  · exact .same
  · exact .same

lemma log_enter (s : Runtime) (t : Nat) (op : Op) : (s.enter t op).log = s.log := by
  unfold enter
  split
  · rfl
  · split
    · rfl
    · split <;> rfl

lemma log_prepare (s : Runtime) (t : Nat) (op : Op) (id : Nat) :
    (s.prepare t op id).log = s.log := by
  unfold prepare
  dsimp only
  split
  · split <;> rfl
  · split
    · rfl
    · split
      · rfl
      · split
        · rfl
        · split <;> rfl

lemma logs_run {fresh : Bool} {session : Session}
    (hphase : s.operations t = .held op id (.running fresh))
    (hsession : (s.entries id).connection.session = some session) (input : Input) :
    s.Logs t (s.run t op id fresh session input).log := by
  unfold run
  split
  · exact .same
  · exact .same
  · exact .same
  · split <;> exact .same
  · exact .same
  · rename_i haccess
    exact .called hphase haccess hsession
  · exact .same
  · split <;> exact .same
  · exact .same

lemma logs_work (hphase : s.operations t = .held op id stage) (input : Input) :
    s.Logs t (s.work t op id stage input).log := by
  unfold work
  split
  · rw [log_prepare]
    exact .same
  · exact .same
  · split <;> exact .same
  · split <;> exact .same
  · dsimp only
    split
    · exact .same
    · split <;> exact .same
  · split
    · exact .same
    · rename_i hsession
      exact logs_run hphase hsession _
  · dsimp only
    split <;> exact .same
  · dsimp only
    split <;> exact .same
  · exact .same
  · exact .same

lemma logs_step (s : Runtime) (move : Nat × Input) : s.Logs move.1 (step s move).log := by
  unfold step
  dsimp only
  split
  · exact logs_start s _ _
  · exact .discovered _ _
  · unfold discoverConfigured
    split
    · exact .same
    · dsimp only
      split <;> exact .same
  · exact .same
  · unfold callConfigured
    dsimp only
    split
    · exact .same
    · split <;> exact .same
  · exact .same
  · rw [log_enter]
    exact .same
  · exact .same
  · split <;> exact .same
  · split <;> exact .same
  · rename_i hphase
    exact logs_work hphase _
  · exact .same
  · exact .discovered _ _
  · exact .same
  · exact .same
  · exact .same
  · exact .same
  · unfold releaseEntry
    dsimp only
    split <;> exact .same
  · unfold retireEntry
    dsimp only
    split <;> exact .same
  · unfold removeEntry
    split <;> exact .same
  · exact .same
  · exact .same

/-- A request was sent to what the last discovery of its target has admitted. -/
structure Reached (targets : Nat → TypedTarget) (before : List Event) (target : Nat)
    (config : Option McpServerConfig) (session : Session) : Prop where
  admitted : Event.Admits before target session.generation
  config : config = some (targets target).config
  live : session.failed = false

/-- Everything that has been sent was sent to what had been admitted. -/
def Sent (s : Runtime) : Prop :=
  ∀ before t target config session later,
    s.log = before ++ .called t target config session :: later →
      Reached s.targets before target config session

lemma Guarded.reached {fresh : Bool} {session : Session} {expected : Nat} {tool : String}
    {arguments : Json.Value} (h : s.Guarded) (hphase : s.operations t = .held op id (.running fresh))
    (haccess : op.access = .existing target expected tool arguments)
    (hsession : (s.entries id).connection.session = some session) :
    Reached s.targets s.log target (s.entries id).connection.config session := by
  have hrelies := h.phases t
  rw [hphase] at hrelies
  obtain ⟨hop, hstage⟩ := hrelies
  unfold Op.Relies at hop
  unfold Stage.Relies at hstage
  rw [haccess] at hop hstage
  rcases hstage with hpreparing | ⟨-, hconfig, session', hsession', hlive, hgeneration⟩
  · cases hpreparing
  · rw [hsession] at hsession'
    obtain rfl := Option.some.inj hsession'
    exact ⟨hgeneration ▸ hop.2, hconfig, hlive⟩

lemma Sent.step {move : Nat × Input} (h : s.Sent) (hguarded : s.Guarded) :
    (Runtime.step s move).Sent := by
  have htargets := (hguarded.inv.step move).targets
  have hlogs := logs_step s move
  unfold Sent
  rw [htargets]
  generalize (Runtime.step s move).log = log at hlogs ⊢
  cases hlogs with
  | same => exact h
  | discovered target outcome =>
    intro before t target' config session later heq
    rcases List.eq_nil_or_concat later with rfl | ⟨later, last, rfl⟩
    · obtain ⟨-, hlast⟩ := List.append_inj' heq rfl
      cases List.head_eq_of_cons_eq hlast
    · rw [List.concat_eq_append, ← List.cons_append, ← List.append_assoc] at heq
      exact h before t target' config session later (List.append_inj' heq rfl).1
  | called hphase haccess hsession =>
    intro before t target' config session' later heq
    rcases List.eq_nil_or_concat later with rfl | ⟨later, last, rfl⟩
    · obtain ⟨rfl, hlast⟩ := List.append_inj' heq rfl
      obtain ⟨-, rfl, rfl, rfl⟩ := Event.called.inj (List.head_eq_of_cons_eq hlast)
      exact hguarded.reached hphase haccess hsession
    · rw [List.concat_eq_append, ← List.cons_append, ← List.append_assoc] at heq
      exact h before t target' config session' later (List.append_inj' heq rfl).1

/-! ### What a call leaves alone -/

/-- A step of a call. -/
def isCallStep (s : Runtime) (move : Nat × Input) : Bool :=
  match s.operations move.1, move.2 with
  | .idle, .call .. => true
  | .calling .., _ | .returning _, _ => true
  | .entering op, _ | .waiting op _, _ | .checked op _, _ | .held op _ _, _ => op.access.isExisting
  | _, _ => false

/-- No transport is started, no entry is created, and no config is changed. -/
structure Untouched (s s' : Runtime) : Prop where
  transports : s'.nextGeneration = s.nextGeneration
  sessions : s'.sessions = s.sessions
  entries : s'.nextEntry = s.nextEntry
  configs : ∀ id, (s'.entries id).connection.config = (s.entries id).connection.config

lemma untouched_of_eq (hgeneration : s'.nextGeneration = s.nextGeneration)
    (hsessions : s'.sessions = s.sessions) (hnext : s'.nextEntry = s.nextEntry)
    (hentries : s'.entries = s.entries) : Untouched s s' :=
  ⟨hgeneration, hsessions, hnext, fun _ => by rw [hentries]⟩

lemma untouched_setEntry {e : Entry} (hgeneration : s'.nextGeneration = s.nextGeneration)
    (hsessions : s'.sessions = s.sessions) (hnext : s'.nextEntry = s.nextEntry)
    (hentries : s'.entries = (s.setEntry id e).entries)
    (hconfig : e.connection.config = (s.entries id).connection.config) : Untouched s s' := by
  refine ⟨hgeneration, hsessions, hnext, ?_⟩
  intro i
  rw [hentries]
  by_cases hi : i = id
  · rw [hi, entries_setEntry_self]
    exact hconfig
  · rw [entries_setEntry_of_ne hi]

lemma untouched_leave (s : Runtime) (t id : Nat) (session : Option Session) (next : Phase) :
    Untouched s (s.leave t id session next) :=
  untouched_setEntry rfl rfl rfl rfl rfl

/-- A call is refused, or finds its config and its session. -/
lemma untouched_prepare {expected : Nat} {tool : String} {arguments : Json.Value}
    (haccess : op.access = .existing target expected tool arguments) :
    Untouched s (s.prepare t op id) := by
  have hconfig : s.configOf op.access = some (s.targets target).config := by
    rw [haccess]
    rfl
  unfold prepare
  rw [hconfig]
  dsimp only
  split
  · exact untouched_leave s t id _ _
  · rename_i hstale
    have hrelies := relies_of_not_stale hconfig (by simpa using hstale) false
    unfold Stage.Relies at hrelies
    rw [haccess] at hrelies
    rcases hrelies with hpreparing | ⟨-, hsame, session, hsession, hlive, -⟩
    · cases hpreparing
    · rw [if_neg (by simp [hsame]), hsession]
      dsimp only
      rw [if_neg (by simp [hlive])]
      exact untouched_of_eq rfl rfl rfl rfl

lemma untouched_run {expected : Nat} {tool : String} {arguments : Json.Value} {fresh : Bool}
    {session : Session} (haccess : op.access = .existing target expected tool arguments)
    (input : Input) : Untouched s (s.run t op id fresh session input) := by
  unfold run
  rw [haccess]
  split
  · exact untouched_leave s t id _ _
  · exact untouched_of_eq rfl rfl rfl rfl
  · exact untouched_of_eq rfl rfl rfl rfl
  · rename_i heq
    cases heq
  · exact untouched_leave s t id _ _
  · exact untouched_setEntry rfl rfl rfl rfl rfl
  · exact untouched_leave s t id _ _
  · rename_i heq
    cases heq
  · exact untouched_of_eq rfl rfl rfl rfl

lemma Guarded.untouched_work (h : s.Guarded) (hphase : s.operations t = .held op id stage)
    (hcall : op.access.isExisting = true) (input : Input) :
    Untouched s (s.work t op id stage input) := by
  have hrelies := h.phases t
  rw [hphase] at hrelies
  have hstage := hrelies.2
  unfold Stage.Relies at hstage
  cases haccess : op.access with
  | existing target expected tool arguments =>
    rw [haccess] at hstage
    rcases hstage with rfl | ⟨⟨fresh, rfl⟩, -, session, hsession, -⟩
    · cases input with
      | go => exact untouched_prepare haccess
      | _ => exact untouched_of_eq rfl rfl rfl rfl
    · unfold Runtime.work
      dsimp only
      rw [hsession]
      exact untouched_run haccess input
  | _ =>
    rw [haccess] at hcall
    cases hcall

lemma untouched_callConfigured (s : Runtime) (t target : Nat) (tool : String)
    (arguments : Json.Value) : Untouched s (s.callConfigured t target tool arguments) := by
  unfold callConfigured
  dsimp only
  split
  · exact untouched_of_eq rfl rfl rfl rfl
  · split <;> exact untouched_of_eq rfl rfl rfl rfl

lemma untouched_enter (hcall : op.access.isExisting = true) : Untouched s (s.enter t op) := by
  have hopens : op.access.opens = false := by
    cases haccess : op.access with
    | existing => rfl
    | _ =>
      rw [haccess] at hcall
      cases hcall
  unfold enter
  split
  · exact untouched_of_eq rfl rfl rfl rfl
  · rw [if_pos hopens]
    exact untouched_of_eq rfl rfl rfl rfl

/-- A call only goes on over what is there. -/
lemma Guarded.untouched (h : s.Guarded) {move : Nat × Input} (hcall : s.isCallStep move = true) :
    Untouched s (Runtime.step s move) := by
  obtain ⟨t, input⟩ := move
  unfold isCallStep at hcall
  dsimp only at hcall
  unfold Runtime.step
  dsimp only
  cases hphase : s.operations t with
  | idle =>
    rw [hphase] at hcall
    cases input with
    | call target tool arguments =>
      show Untouched s (s.start t (.call target tool arguments))
      unfold Runtime.start
      dsimp only
      split
      · split <;> exact untouched_of_eq rfl rfl rfl rfl
      · exact untouched_of_eq rfl rfl rfl rfl
    | _ => cases hcall
  | calling target tool arguments =>
    cases input with
    | go => exact untouched_callConfigured s t target tool arguments
    | _ => exact untouched_of_eq rfl rfl rfl rfl
  | returning target =>
    cases input with
    | _ => exact untouched_of_eq rfl rfl rfl rfl
  | entering op =>
    rw [hphase] at hcall
    cases input with
    | go => exact untouched_enter hcall
    | _ => exact untouched_of_eq rfl rfl rfl rfl
  | waiting op id =>
    cases input with
    | go =>
      show Untouched s (if (s.entries id).stop then _ else _)
      split <;> exact untouched_of_eq rfl rfl rfl rfl
    | _ => exact untouched_of_eq rfl rfl rfl rfl
  | checked op id =>
    cases input with
    | go =>
      show Untouched s (if (s.entries id).owner.isSome then _ else _)
      split
      · exact untouched_of_eq rfl rfl rfl rfl
      · exact untouched_setEntry rfl rfl rfl rfl rfl
    | _ => exact untouched_of_eq rfl rfl rfl rfl
  | held op id stage =>
    rw [hphase] at hcall
    exact h.untouched_work hphase hcall input
  | _ =>
    rw [hphase] at hcall
    cases hcall

/-! ### Runs -/

/-- What is to be expected of discoveries and calls after a run. -/
structure Admitted (targets : Nat → TypedTarget) (moves : List (Nat × Input)) : Prop where
  /-- A request goes to the session that the last discovery of its target has admitted. -/
  reached : ∀ before t target config session later,
    ((new targets).after moves).log = before ++ .called t target config session :: later →
      Reached targets before target config session
  /-- After a failed discovery, nothing is sent until one has succeeded. -/
  withdrawn : ∀ before target between t config session later,
    ((new targets).after moves).log = before ++ .discovered target none :: between ++
      .called t target config session :: later →
    ∃ d, .discovered target (some d) ∈ between
  once : ∀ t, Event.callsOf t ((new targets).after moves).log ≤ 1
  untouched : ∀ before move later, moves = before ++ move :: later →
    ((new targets).after before).isCallStep move = true →
      Untouched ((new targets).after before) ((new targets).after (before ++ [move]))

lemma guarded_new (targets : Nat → TypedTarget) : (new targets).Guarded := by
  refine ⟨inv_new targets, ?_, fun _ => trivial, fun _ => Nat.zero_le _, fun _ _ => rfl⟩
  intro target generation _ hgeneration
  cases hgeneration

variable {targets : Nat → TypedTarget} {moves : List (Nat × Input)}

lemma guarded_after
    (h : Run.Meets step (fun s move => s.withdrawsFirst move = true) (new targets) moves) :
    ((new targets).after moves).Guarded :=
  h.invariant (fun _ _ hguarded hfirst => hguarded.step hfirst) (guarded_new targets)

lemma targets_after (moves : List (Nat × Input)) : ((new targets).after moves).targets = targets := by
  refine (Run.invariant (P := fun s : Runtime => s.Inv ∧ s.targets = targets) ?_
    ⟨inv_new targets, rfl⟩ moves).2
  intro s move h
  exact ⟨(h.1.step move).inv, (h.1.step move).targets.trans h.2⟩

lemma sent_after
    (h : Run.Meets step (fun s move => s.withdrawsFirst move = true) (new targets) moves) :
    ((new targets).after moves).Sent := by
  refine (h.invariant (P := fun s : Runtime => s.Guarded ∧ s.Sent) ?_ ⟨guarded_new targets, ?_⟩).2
  · intro s move hs hfirst
    exact ⟨hs.1.step hfirst, hs.2.step hs.1⟩
  · intro before t target config session later hlog
    exact absurd hlog (by simp [new])

/-- What has been admitted after a failure has been discovered since. -/
lemma exists_discovered {before between : List Event} {d : Discovery}
    (h : Event.lastOutcome target (before ++ .discovered target none :: between) = some d) :
    .discovered target (some d) ∈ between := by
  induction between using List.reverseRecOn with
  | nil =>
    rw [Event.lastOutcome_discovered, if_pos rfl] at h
    cases h
  | append_singleton between event ih =>
    rw [← List.cons_append, ← List.append_assoc] at h
    cases event with
    | discovered target' outcome =>
      rw [Event.lastOutcome_discovered] at h
      split at h
      · rename_i heq
        rw [heq, h]
        exact List.mem_append_right _ (List.mem_singleton.mpr rfl)
      · exact List.mem_append_left _ (ih h)
    | called t target' config session =>
      rw [Event.lastOutcome_called] at h
      exact List.mem_append_left _ (ih h)

/-- A call reaches nothing but what the last discovery of its target has admitted, when no discovery
fails for want of the lock of a target that is admitted. -/
theorem admitted_of_withdrawsFirst
    (h : Run.Meets step (fun s move => s.withdrawsFirst move = true) (new targets) moves) :
    Admitted targets moves := by
  have hsent := sent_after h
  unfold Sent at hsent
  rw [targets_after] at hsent
  refine ⟨hsent, ?_, (guarded_after h).once, ?_⟩
  · intro before target between t config session later hlog
    obtain ⟨d, hd, -, -⟩ := (hsent _ t target config session later hlog).admitted
    exact ⟨d, exists_discovered hd⟩
  · rintro before move later rfl hcall
    rw [after_concat]
    exact (guarded_after (Run.meets_append.mp h).1).untouched hcall

/-! ### A discovery that never got its lock -/

/-- A discovery of one page opens the connection. -/
def discovers (t : Nat) : List (Nat × Input) :=
  [(t, .discover 0 ⟨10, 1000⟩), (t, .go), (t, .go), (t, .go), (t, .go), (t, .go), (t, .go),
    (t, .answer (.ok .null)), (t, .answers [] false),
    (t, .answers [.ok (.object [("tools", .array [.object [("name", .string "echo"),
      ("inputSchema", .object [("type", .string "object")])]])])] false), (t, .go)]

/-- A discovery whose control is cancelled while it waits for the lock of the target. -/
def failsToDiscover (t : Nat) : List (Nat × Input) := [(t, .discover 0 ⟨10, 1000⟩), (t, .refuse)]

def calls (t : Nat) : List (Nat × Input) :=
  [(t, .call 0 "echo" (.object [])), (t, .go), (t, .go), (t, .go), (t, .go), (t, .go),
    (t, .answer (.ok .null)), (t, .go)]

theorem admitted_of_withdrawsFirst_calls :
    Event.callsOf 1 ((new serverTargets).after (discovers 0 ++ calls 1)).log = 1 ∧
      Admitted serverTargets (discovers 0 ++ calls 1) :=
  ⟨by decide +kernel, admitted_of_withdrawsFirst (by decide +kernel)⟩

/-- What was discovered before stays admitted. -/
theorem not_admitted_calls : ¬∀ targets moves, Admitted targets moves := by
  intro h
  have hadmitted := h serverTargets (discovers 0 ++ failsToDiscover 1 ++ calls 2)
  obtain ⟨first, t, config, session, hlog⟩ : ∃ first t config session,
      ((new serverTargets).after (discovers 0 ++ failsToDiscover 1 ++ calls 2)).log =
        [first, .discovered 0 none, .called t 0 config session] :=
    ⟨_, _, _, _, rfl⟩
  obtain ⟨d, hd⟩ := hadmitted.withdrawn [first] 0 [] t config session [] hlog
  exact absurd hd List.not_mem_nil

end Runtime

end Mcp
