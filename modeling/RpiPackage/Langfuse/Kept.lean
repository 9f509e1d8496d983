import RpiPackage.Langfuse.Tracer
import RpiPackage.Lib.Trace

/-!
# What becomes of the observations

An observation stays in the store until a successful export holds it, as long as no observation
ends behind the back of an export that is under way.
-/

namespace Langfuse

def exportedIds (log : List Event) : List Nat :=
  log.flatMap fun event => match event with
    | .exported _ batch => batch.map SpanRecord.id
    | _ => []

def Started (log : List Event) (id : Nat) : Prop := ∃ turn, .started id turn ∈ log

/-- What must have gone before an event: only what was started is ended, and an export in the
middle of a turn holds only what was ended. -/
def Timely (before : List Event) : Event → Prop
  | .ended id => Started before id
  | .exported false batch => ∀ rec ∈ batch, .ended rec.id ∈ before
  | _ => True

variable {log log' : List Event} {s s' : Tracer} {id n n' : Nat} {e : Event} {op : Op}
  {left : List Op} {known known' : Nat → Prop} {i : Nat} {store : List SpanRecord}

lemma Started.mono (hlog : log ⊆ log') (h : Started log id) : Started log' id := by
  obtain ⟨turn, hturn⟩ := h
  exact ⟨turn, hlog hturn⟩

lemma started_concat (he : ∀ turn, e ≠ .started id turn) :
    Started (log ++ [e]) id ↔ Started log id := by
  constructor
  · rintro ⟨turn, hturn⟩
    rcases List.mem_append.mp hturn with hmem | hmem
    · exact ⟨turn, hmem⟩
    · exact absurd (List.mem_singleton.mp hmem).symm (he turn)
  · exact Started.mono (List.subset_append_left _ _)

lemma started_concat_started {id' : Nat} {turn : Option Nat} :
    Started (log ++ [.started id' turn]) id ↔ Started log id ∨ id = id' := by
  constructor
  · rintro ⟨turn', hturn⟩
    rcases List.mem_append.mp hturn with hmem | hmem
    · exact .inl ⟨turn', hmem⟩
    · cases List.mem_singleton.mp hmem
      exact .inr rfl
  · rintro (h | rfl)
    · exact h.mono (List.subset_append_left _ _)
    · exact ⟨turn, List.mem_append_right _ List.mem_cons_self⟩

lemma exportedIds_append (log log' : List Event) :
    exportedIds (log ++ log') = exportedIds log ++ exportedIds log' := List.flatMap_append

/-! ### The uses of the store that a handler has left -/

namespace Tracer

def ops (s : Tracer) : List Op := (s.holder.map Prod.fst).getD []

/-- A handler that needs the prompt state does nothing while another one has it. -/
lemma of_free {P : Tracer → Prop} (h : P s) (hfree : s.holder = none → P s') :
    P (if s.holder.isSome then s else s') := by
  split
  · exact h
  · rename_i hholder
    exact hfree (by simpa using hholder)

end Tracer

/-- With these observations started and ids drawn below `n`, every use of the store is of an
observation that is started by then, and none is started twice. -/
def Ready (n : Nat) : (Nat → Prop) → List Op → Prop
  | _, [] => True
  | known, .start id _ :: ops => id < n ∧ ¬known id ∧ Ready n (fun x => known x ∨ x = id) ops
  | known, .stop id :: ops => known id ∧ Ready n known ops
  | known, .finalize _ root :: ops => known root ∧ Ready n known ops

lemma Ready.mono (h : Ready n known left) (hbelow : ∀ x, known x → x < n) (hle : n ≤ n')
    (hagree : ∀ x < n, known x ↔ known' x) : Ready n' known' left := by
  induction left generalizing known known' with
  | nil => trivial
  | cons op ops ih =>
    cases op with
    | start id turn =>
      obtain ⟨hid, hnew, hops⟩ := h
      refine ⟨Nat.lt_of_lt_of_le hid hle, fun hknown => hnew ((hagree id hid).mpr hknown), ih hops ?_ ?_⟩
      · rintro x (hx | rfl)
        · exact hbelow x hx
        · exact hid
      · intro x hx
        rw [hagree x hx]
    | stop id => exact ⟨(hagree id (hbelow id h.1)).mp h.1, ih h.2 hbelow hagree⟩
    | finalize turn root => exact ⟨(hagree root (hbelow root h.1)).mp h.1, ih h.2 hbelow hagree⟩

lemma Ready.congr (h : Ready n known left) (hagree : ∀ x, known x ↔ known' x) :
    Ready n known' left := by
  have heq : known = known' := funext fun x => propext (hagree x)
  exact heq ▸ h

lemma ready_append {ops' : List Op} (h : Ready n known left)
    (h' : Ready n (fun x => known x ∨ ∃ turn, .start x turn ∈ left) ops') :
    Ready n known (left ++ ops') := by
  induction left generalizing known with
  | nil => exact h'.congr fun x => by simp
  | cons op ops ih =>
    cases op with
    | start id turn =>
      refine ⟨h.1, h.2.1, ih h.2.2 (h'.congr fun x => ?_)⟩
      simp only [List.mem_cons, Op.start.injEq]
      constructor
      · rintro (hknown | ⟨t, ⟨rfl, rfl⟩ | hmem⟩)
        · exact .inl (.inl hknown)
        · exact .inl (.inr rfl)
        · exact .inr ⟨t, hmem⟩
      · rintro ((hknown | rfl) | ⟨t, hmem⟩)
        · exact .inl hknown
        · exact .inr ⟨turn, .inl ⟨rfl, rfl⟩⟩
        · exact .inr ⟨t, .inr hmem⟩
    | stop id => exact ⟨h.1, ih h.2 (h'.congr fun x => by simp)⟩
    | finalize turn root => exact ⟨h.1, ih h.2 (h'.congr fun x => by simp)⟩

/-- The observations that a turn still holds open. -/
def PromptState.openIds (p : PromptState) : List Nat :=
  (p.openGeneration.map OpenGeneration.obsId).toList ++ p.openTools.map Prod.snd

/-! ### The store and the log -/

structure Shelf (store : List SpanRecord) (log : List Event) (n : Nat) : Prop where
  below : ∀ id, Started log id → id < n
  nodup : (store.map SpanRecord.id).Nodup
  started : ∀ rec ∈ store, Started log rec.id
  ended : ∀ rec ∈ store, rec.ended = true → .ended rec.id ∈ log
  kept : ∀ id, Started log id → id ∈ store.map SpanRecord.id ∨ id ∈ exportedIds log
  timely : Trace.Each Timely log
  once : (exportedIds log).Nodup

namespace Shelf

lemma empty : Shelf [] [] 0 where
  below := by
    rintro id ⟨turn, hturn⟩
    cases hturn
  nodup := List.nodup_nil
  started := by
    intro rec hrec
    cases hrec
  ended := by
    intro rec hrec
    cases hrec
  kept := by
    rintro id ⟨turn, hturn⟩
    cases hturn
  timely := Trace.each_nil
  once := List.nodup_nil

lemma next (h : Shelf store log n) (hle : n ≤ n') : Shelf store log n' :=
  ⟨fun id hid => Nat.lt_of_lt_of_le (h.below id hid) hle, h.nodup, h.started, h.ended, h.kept,
    h.timely, h.once⟩

/-- A new observation. -/
lemma startObservation (h : Shelf store log n) {hasParent : Bool} {turn : Option Nat} (hid : id < n)
    (hnew : ¬Started log id) :
    Shelf (store ++ [⟨id, hasParent, false⟩]) (log ++ [.started id turn]) n where
  below := by
    intro x hx
    rcases started_concat_started.mp hx with hx | rfl
    · exact h.below x hx
    · exact hid
  nodup := by
    rw [List.map_append, List.nodup_append]
    refine ⟨h.nodup, by simp, ?_⟩
    rintro x hx y hy rfl
    obtain ⟨rec, hrec, rfl⟩ := List.mem_map.mp hx
    have hy : rec.id = id := List.mem_singleton.mp hy
    exact hnew (hy ▸ h.started rec hrec)
  started := by
    intro rec hrec
    rw [started_concat_started]
    rcases List.mem_append.mp hrec with hrec | hrec
    · exact .inl (h.started rec hrec)
    · rw [List.mem_singleton.mp hrec]
      exact .inr rfl
  ended := by
    intro rec hrec hended
    rcases List.mem_append.mp hrec with hrec | hrec
    · exact List.mem_append_left _ (h.ended rec hrec hended)
    · rw [List.mem_singleton.mp hrec] at hended
      cases hended
  kept := by
    intro x hx
    rw [exportedIds_append, List.map_append]
    rcases started_concat_started.mp hx with hx | rfl
    · rcases h.kept x hx with hstore | hexported
      · exact .inl (List.mem_append_left _ hstore)
      · exact .inr (List.mem_append_left _ hexported)
    · exact .inl (List.mem_append_right _ List.mem_cons_self)
  timely := Trace.each_concat.mpr ⟨h.timely, trivial⟩
  once := by
    rw [exportedIds_append]
    exact (List.append_nil _).symm ▸ h.once

/-- An event that starts nothing and exports nothing. -/
lemma emit (h : Shelf store log n) (hstarted : ∀ id turn, e ≠ .started id turn)
    (hexported : exportedIds [e] = []) (htimely : Timely log e) : Shelf store (log ++ [e]) n where
  below := fun x hx => h.below x ((started_concat (hstarted x)).mp hx)
  nodup := h.nodup
  started := fun rec hrec => (h.started rec hrec).mono (List.subset_append_left _ _)
  ended := fun rec hrec hended => List.mem_append_left _ (h.ended rec hrec hended)
  kept := by
    intro x hx
    rw [exportedIds_append, hexported, List.append_nil]
    exact h.kept x ((started_concat (hstarted x)).mp hx)
  timely := Trace.each_concat.mpr ⟨h.timely, htimely⟩
  once := by
    rw [exportedIds_append, hexported, List.append_nil]
    exact h.once

lemma map_id_endRecord (id : Nat) (store : List SpanRecord) :
    (Tracer.endRecord id store).map SpanRecord.id = store.map SpanRecord.id := by
  induction store with
  | nil => rfl
  | cons rec store ih =>
    rw [Tracer.endRecord]
    split
    · rfl
    · rw [List.map_cons, List.map_cons, ih]

lemma mem_endRecord {rec : SpanRecord} (h : rec ∈ Tracer.endRecord id store) :
    rec ∈ store ∨ rec.id = id := by
  induction store with
  | nil => cases h
  | cons first store ih =>
    rw [Tracer.endRecord] at h
    split at h
    · rcases List.mem_cons.mp h with rfl | h
      · exact .inr ‹_›
      · exact .inl (List.mem_cons_of_mem _ h)
    · rcases List.mem_cons.mp h with rfl | h
      · exact .inl List.mem_cons_self
      · rcases ih h with hrec | hrec
        · exact .inl (List.mem_cons_of_mem _ hrec)
        · exact .inr hrec

lemma endObservation (h : Shelf store log n) (hid : Started log id) :
    Shelf (Tracer.endRecord id store) (log ++ [.ended id]) n := by
  have hemit := h.emit (e := .ended id) (fun _ _ => Event.noConfusion) rfl hid
  refine ⟨hemit.below, ?_, ?_, ?_, ?_, hemit.timely, hemit.once⟩
  · rw [map_id_endRecord]
    exact h.nodup
  · intro rec hrec
    rcases mem_endRecord hrec with hrec | rfl
    · exact hemit.started rec hrec
    · exact hid.mono (List.subset_append_left _ _)
  · intro rec hrec hended
    rcases mem_endRecord hrec with hrec | rfl
    · exact hemit.ended rec hrec hended
    · exact List.mem_append_right _ List.mem_cons_self
  · intro x hx
    rw [map_id_endRecord]
    exact hemit.kept x hx

/-- A success that repeats nothing of the earlier ones. -/
lemma success (h : Shelf store log n) {includeOpen : Bool} {batch : List SpanRecord}
    (hnodup : (batch.map SpanRecord.id).Nodup)
    (hended : includeOpen = false → ∀ rec ∈ batch, .ended rec.id ∈ log)
    (hnew : ∀ rec ∈ batch, rec.id ∉ exportedIds log) :
    Shelf store (log ++ [.exported includeOpen batch]) n where
  below := fun x hx => h.below x ((started_concat fun _ => Event.noConfusion).mp hx)
  nodup := h.nodup
  started := fun rec hrec => (h.started rec hrec).mono (List.subset_append_left _ _)
  ended := fun rec hrec hended => List.mem_append_left _ (h.ended rec hrec hended)
  kept := by
    intro x hx
    rw [exportedIds_append]
    rcases h.kept x ((started_concat fun _ => Event.noConfusion).mp hx) with hstore | hexported
    · exact .inl hstore
    · exact .inr (List.mem_append_left _ hexported)
  timely := by
    refine Trace.each_concat.mpr ⟨h.timely, ?_⟩
    cases includeOpen with
    | false => exact hended rfl
    | true => trivial
  once := by
    rw [exportedIds_append, List.nodup_append]
    refine ⟨h.once, ?_, ?_⟩
    · simpa [exportedIds] using hnodup
    · rintro x hx y hy rfl
      have hy : x ∈ batch.map SpanRecord.id := by simpa [exportedIds] using hy
      obtain ⟨rec, hrec, rfl⟩ := List.mem_map.mp hy
      exact hnew rec hrec hx

/-- What leaves the store was exported. -/
lemma shrink (h : Shelf store log n) {store' : List SpanRecord} (hsub : store'.Sublist store)
    (hgone : ∀ rec ∈ store, rec ∉ store' → rec.id ∈ exportedIds log) : Shelf store' log n where
  below := h.below
  nodup := h.nodup.sublist (hsub.map _)
  started := fun rec hrec => h.started rec (hsub.mem hrec)
  ended := fun rec hrec => h.ended rec (hsub.mem hrec)
  kept := by
    intro x hx
    rcases h.kept x hx with hstore | hexported
    · obtain ⟨rec, hrec, rfl⟩ := List.mem_map.mp hstore
      by_cases hmem : rec ∈ store'
      · exact .inl (List.mem_map_of_mem hmem)
      · exact .inr (hgone rec hrec hmem)
    · exact .inr hexported
  timely := h.timely
  once := h.once

end Shelf

/-! ### What the tasks refer to -/

/-- A batch that an export holds. -/
structure Batch (log : List Event) (f : Flush) : Prop where
  nodup : (f.batch.map SpanRecord.id).Nodup
  ended : f.includeOpen = false → ∀ rec ∈ f.batch, .ended rec.id ∈ log
  sent : f.sent = true → ∀ rec ∈ f.batch, rec.id ∈ exportedIds log

lemma exportedIds_subset (hlog : log ⊆ log') : exportedIds log ⊆ exportedIds log' := by
  intro id hid
  obtain ⟨event, hevent, hmem⟩ := List.mem_flatMap.mp hid
  exact List.mem_flatMap.mpr ⟨event, hlog hevent, hmem⟩

lemma Batch.mono {f : Flush} (h : Batch log f) (hlog : log ⊆ log') : Batch log' f :=
  ⟨h.nodup, fun hopen rec hrec => hlog (h.ended hopen rec hrec),
    fun hsent rec hrec => exportedIds_subset hlog (h.sent hsent rec hrec)⟩

/-- Every id that a task or the turn holds is one that was started, or will be by the handler that
has the prompt state. -/
structure Refers (s : Tracer) : Prop where
  ops : Ready s.nextId (Started s.log) s.ops
  root : ∀ p, s.prompt = some p → Started s.log p.rootObsId
  opened : ∀ p, s.prompt = some p → ∀ id ∈ p.openIds,
    Started s.log id ∨ ∃ turn, .start id turn ∈ s.ops
  handed : ∀ left root, s.holder ≠ some (left, some (.install root))
  installs : ∀ root, .install root ∈ s.tails → Started s.log root
  compactions : ∀ id ∈ s.compactions, Started s.log id
  flushes : ∀ f ∈ s.flushes, Batch s.log f

/-- A step that only lets the log grow, without the ids that were drawn before. -/
lemma Refers.grow (h : Refers s) (hbelow : ∀ id, Started s.log id → id < s.nextId)
    (hlog : s.log ⊆ s'.log) (hnext : s.nextId ≤ s'.nextId)
    (hold : ∀ id < s.nextId, Started s'.log id → Started s.log id)
    (hholder : s'.holder = s.holder) (hprompt : s'.prompt = s.prompt)
    (htails : ∀ root, .install root ∈ s'.tails → Started s'.log root ∨ .install root ∈ s.tails)
    (hcompactions : ∀ id ∈ s'.compactions, Started s'.log id ∨ id ∈ s.compactions)
    (hflushes : ∀ f ∈ s'.flushes, Batch s'.log f ∨ f ∈ s.flushes) : Refers s' where
  ops := by
    rw [Tracer.ops, hholder]
    exact h.ops.mono hbelow hnext fun id hid => ⟨Started.mono hlog, hold id hid⟩
  root := by
    rw [hprompt]
    exact fun p hp => (h.root p hp).mono hlog
  opened := by
    rw [hprompt, Tracer.ops, hholder]
    exact fun p hp id hid => (h.opened p hp id hid).imp_left (Started.mono hlog)
  handed := hholder ▸ h.handed
  installs := fun root hroot =>
    (htails root hroot).elim (fun hnew => hnew) fun hmem => (h.installs root hmem).mono hlog
  compactions := fun id hid =>
    (hcompactions id hid).elim (fun hnew => hnew) fun hmem => (h.compactions id hmem).mono hlog
  flushes := fun f hf =>
    (hflushes f hf).elim (fun hnew => hnew) fun hmem => (h.flushes f hmem).mono hlog

/-- The store and the log, and what the tasks hold of them. -/
structure Kept (s : Tracer) : Prop where
  shelf : Shelf s.store s.log s.nextId
  refers : Refers s

/-- The steps that could lose an observation or export it twice do not. -/
def Keeps (s : Tracer) : Action → Prop
  -- a success exports nothing that another one exported meanwhile
  | .respond i true => ∀ f ∈ s.flushes[i]?, f.sent = false →
    ∀ rec ∈ f.batch, rec.id ∉ exportedIds s.log
  -- nothing that leaves the store came to its end, or began, behind the back of the export
  | .prune i => ∀ f ∈ s.flushes[i]?, f.sent = true →
    (∀ rec ∈ s.store, (rec.ended || f.includeOpen) = true → rec.id ∈ f.batch.map SpanRecord.id) ∧
      (s.retained f.includeOpen).length ≤ 2000
  | _ => True

namespace Kept

lemma start : Kept Tracer.start where
  shelf := Shelf.empty
  refers := {
    ops := trivial
    root := fun p (hp : none = some p) => nomatch hp
    opened := fun p (hp : none = some p) => nomatch hp
    handed := fun _ _ hholder => nomatch hholder
    installs := fun _ hroot => absurd hroot List.not_mem_nil
    compactions := fun _ hid => absurd hid List.not_mem_nil
    flushes := fun _ hf => absurd hf List.not_mem_nil }

/-! #### The handler that has the prompt state -/

/-- A use of the store by the handler. -/
lemma exec (h : Kept s) {tail : Option Tail} (hholder : s.holder = some (op :: left, tail)) :
    Kept { s.exec op with holder := some (left, tail) } := by
  have hready := h.refers.ops
  have hopened := h.refers.opened
  rw [Tracer.ops, hholder] at hready hopened
  simp only [Option.map_some, Option.getD_some] at hready hopened
  have hhanded : ∀ left' root, some (left, tail) ≠ some (left', some (.install root)) := by
    intro left' root heq
    cases heq
    exact h.refers.handed _ root hholder
  cases op with
  | start id turn =>
    obtain ⟨hid, hnew, hleft⟩ := hready
    have hsub : s.log ⊆ s.log ++ [.started id (some turn)] := List.subset_append_left _ _
    refine ⟨h.shelf.startObservation hid hnew, ?_, ?_, ?_, hhanded, ?_, ?_, ?_⟩
    · exact hleft.congr fun x => started_concat_started.symm
    · exact fun p hp => (h.refers.root p hp).mono hsub
    · intro p hp x hx
      rcases hopened p hp x hx with hstarted | ⟨t, hmem⟩
      · exact .inl (hstarted.mono hsub)
      · rcases List.mem_cons.mp hmem with heq | hmem
        · cases heq
          exact .inl (started_concat_started.mpr (.inr rfl))
        · exact .inr ⟨t, hmem⟩
    · exact fun root hroot => (h.refers.installs root hroot).mono hsub
    · exact fun x hx => (h.refers.compactions x hx).mono hsub
    · exact fun f hf => (h.refers.flushes f hf).mono hsub
  | stop id =>
    obtain ⟨hid, hleft⟩ := hready
    have hsub : s.log ⊆ s.log ++ [.ended id] := List.subset_append_left _ _
    refine ⟨h.shelf.endObservation hid, ?_, ?_, ?_, hhanded, ?_, ?_, ?_⟩
    · exact hleft.congr fun x => (started_concat fun _ => Event.noConfusion).symm
    · exact fun p hp => (h.refers.root p hp).mono hsub
    · intro p hp x hx
      rcases hopened p hp x hx with hstarted | ⟨t, hmem⟩
      · exact .inl (hstarted.mono hsub)
      · exact .inr ⟨t, List.mem_of_ne_of_mem Op.noConfusion hmem⟩
    · exact fun root hroot => (h.refers.installs root hroot).mono hsub
    · exact fun x hx => (h.refers.compactions x hx).mono hsub
    · exact fun f hf => (h.refers.flushes f hf).mono hsub
  | finalize turn root =>
    obtain ⟨hroot, hleft⟩ := hready
    have hsub : s.log ⊆ s.log ++ [.ended root] ++ [.finalized turn] := by
      rw [List.append_assoc]
      exact List.subset_append_left _ _
    have hshelf := (h.shelf.endObservation hroot).emit (e := .finalized turn)
      (fun _ _ => Event.noConfusion) rfl trivial
    refine ⟨hshelf, ?_, ?_, ?_, hhanded, ?_, ?_, ?_⟩
    · refine hleft.congr fun x => ?_
      show _ ↔ Started (s.log ++ [.ended root] ++ [.finalized turn]) x
      rw [started_concat fun _ => Event.noConfusion, started_concat fun _ => Event.noConfusion]
    · exact fun p hp => (h.refers.root p hp).mono hsub
    · intro p hp x hx
      rcases hopened p hp x hx with hstarted | ⟨t, hmem⟩
      · exact .inl (hstarted.mono hsub)
      · exact .inr ⟨t, List.mem_of_ne_of_mem Op.noConfusion hmem⟩
    · exact fun root hroot => (h.refers.installs root hroot).mono hsub
    · exact fun x hx => (h.refers.compactions x hx).mono hsub
    · exact fun f hf => (h.refers.flushes f hf).mono hsub

/-- A handler gets the prompt state, or lets go of it: the store and the log stay. -/
lemma hand (h : Kept s) (hstore : s'.store = s.store) (hlog : s'.log = s.log)
    (hnext : s.nextId ≤ s'.nextId) (hops : Ready s'.nextId (Started s.log) s'.ops)
    (hroot : ∀ p, s'.prompt = some p → Started s.log p.rootObsId)
    (hopened : ∀ p, s'.prompt = some p → ∀ id ∈ p.openIds,
      Started s.log id ∨ ∃ turn, .start id turn ∈ s'.ops)
    (hhanded : ∀ left root, s'.holder ≠ some (left, some (.install root)))
    (hinstalls : ∀ root, .install root ∈ s'.tails → .install root ∈ s.tails)
    (hcompactions : s'.compactions = s.compactions) (hflushes : s'.flushes = s.flushes) :
    Kept s' where
  shelf := by
    rw [hstore, hlog]
    exact h.shelf.next hnext
  refers := {
    ops := hlog ▸ hops
    root := hlog ▸ hroot
    opened := hlog ▸ hopened
    handed := hhanded
    installs := fun root hmem => hlog ▸ h.refers.installs root (hinstalls root hmem)
    compactions := by
      rw [hcompactions, hlog]
      exact h.refers.compactions
    flushes := by
      rw [hflushes, hlog]
      exact h.refers.flushes }

lemma run (h : Kept s) : Kept s.run := by
  unfold Tracer.run
  split
  · exact h
  · rename_i op left tail hholder
    exact h.exec hholder
  · rename_i tail hholder
    have hopened := h.refers.opened
    rw [Tracer.ops, hholder] at hopened
    refine h.hand rfl rfl (Nat.le_refl _) trivial h.refers.root ?_ (fun _ _ hnone => nomatch hnone) ?_ rfl
      rfl
    · intro p hp id hid
      rcases hopened p hp id hid with hstarted | ⟨turn, hmem⟩
      · exact .inl hstarted
      · cases hmem
    · intro root hroot
      rcases List.mem_append.mp hroot with hroot | hroot
      · exact hroot
      · rw [Option.mem_toList.mp hroot] at hholder
        exact absurd hholder (h.refers.handed [] root)

lemma opened_of_free (h : Kept s) (hfree : s.holder = none) {p : PromptState}
    (hp : s.prompt = some p) (hid : id ∈ p.openIds) : Started s.log id := by
  rcases h.refers.opened p hp id hid with hstarted | ⟨turn, hmem⟩
  · exact hstarted
  · rw [Tracer.ops, hfree] at hmem
    cases hmem

lemma ready_stopGeneration {p : PromptState} (hopened : ∀ id ∈ p.openIds, Started log id) :
    Ready n (Started log) (stopGeneration p.openGeneration) := by
  cases hgen : p.openGeneration with
  | none => trivial
  | some gen =>
    unfold stopGeneration
    dsimp only
    split
    · trivial
    · exact ⟨hopened _ (by simp [PromptState.openIds, hgen]), trivial⟩

lemma ready_stops {ids : List Nat} (hids : ∀ id ∈ ids, known id) :
    Ready n known (ids.map .stop) := by
  induction ids with
  | nil => trivial
  | cons id ids ih =>
    exact ⟨hids id List.mem_cons_self, ih fun x hx => hids x (List.mem_cons_of_mem _ hx)⟩

lemma ready_finalizeRoot {p : PromptState} (hopened : ∀ id ∈ p.openIds, Started log id)
    (hroot : Started log p.rootObsId) : Ready n (Started log) (finalizeRoot p) := by
  have htools : p.openTools.map (fun tool => Op.stop tool.2) =
      (p.openTools.map Prod.snd).map .stop := by rw [List.map_map]; rfl
  unfold finalizeRoot
  rw [htools, List.append_assoc]
  apply ready_append (ready_stopGeneration hopened)
  apply ready_append
  · apply ready_stops
    exact fun id hid => .inl (hopened id (List.mem_append_right _ hid))
  · exact ⟨.inl (.inl hroot), trivial⟩

/-- The turn is taken and finalized, if there is one. -/
lemma takeTurn (h : Kept s) (hfree : s.holder = none) {tail : Tail}
    (htail : ∀ root, tail ≠ .install root) : Kept (s.takeTurn tail) := by
  unfold Tracer.takeTurn
  split
  · refine h.hand rfl rfl (Nat.le_refl _) h.refers.ops h.refers.root h.refers.opened
      h.refers.handed ?_ rfl rfl
    intro root hroot
    rcases List.mem_append.mp hroot with hroot | hroot
    · exact hroot
    · exact absurd (List.mem_singleton.mp hroot).symm (htail root)
  · rename_i p hp
    refine h.hand rfl rfl (Nat.le_refl _) ?_ ?_ ?_ ?_ (fun root hroot => hroot) rfl rfl
    · exact ready_finalizeRoot (fun id hid => h.opened_of_free hfree hp hid) (h.refers.root p hp)
    · exact fun p hp => nomatch hp
    · exact fun p hp => nomatch hp
    · intro left root heq
      cases heq
      exact htail root rfl

/-- A handler works on the turn: what it uses is open in the turn or new. -/
lemma onTurn (h : Kept s) (hfree : s.holder = none)
    {handler : Nat → PromptState → PromptState × List Op × Option Tail}
    (hready : ∀ p, s.prompt = some p → (∀ id ∈ p.openIds, Started s.log id) →
      Ready (s.nextId + 1) (Started s.log) (handler s.nextId p).2.1)
    (hroot : ∀ id p, (handler id p).1.rootObsId = p.rootObsId)
    (hopened : ∀ id p, ∀ x ∈ (handler id p).1.openIds,
      x ∈ p.openIds ∨ ∃ turn, .start x turn ∈ (handler id p).2.1)
    (htail : ∀ id p root, (handler id p).2.2 ≠ some (.install root)) :
    Kept (s.onTurn handler) := by
  unfold Tracer.onTurn
  split
  · exact h
  · rename_i p hp
    have hstarted : ∀ id ∈ p.openIds, Started s.log id :=
      fun id hid => h.opened_of_free hfree hp hid
    refine h.hand rfl rfl (Nat.le_succ _) (hready p hp hstarted) ?_ ?_ ?_
      (fun root hroot => hroot) rfl rfl
    · intro p' hp'
      obtain rfl := Option.some.inj hp'
      rw [hroot]
      exact h.refers.root p hp
    · intro p' hp' x hx
      obtain rfl := Option.some.inj hp'
      exact (hopened _ _ x hx).imp_left (hstarted x)
    · intro left root heq
      exact htail _ _ root (congrArg Prod.snd (Option.some.inj heq))

/-- The id that is drawn next is new. -/
lemma ready_start (h : Kept s) (turn : Nat) :
    Ready (s.nextId + 1) (Started s.log) [.start s.nextId turn] :=
  ⟨Nat.lt_succ_self _, fun hstarted => Nat.lt_irrefl _ (h.shelf.below _ hstarted), trivial⟩

lemma providerRequest (h : Kept s) (hfree : s.holder = none) :
    Kept (s.onTurn fun obsId p =>
      let (p, ops) := onBeforeProviderRequest obsId p
      (p, ops, none)) := by
  apply h.onTurn hfree
  · intro p hp hstarted
    apply ready_append (ready_stopGeneration hstarted)
    refine (h.ready_start p.turn).congr fun x => ?_
    have hnot : ∀ turn, .start x turn ∉ stopGeneration p.openGeneration := by
      intro turn hmem
      unfold stopGeneration at hmem
      split at hmem
      · split at hmem
        · cases hmem
        · exact Op.noConfusion (List.mem_singleton.mp hmem)
      · cases hmem
    simp [hnot]
  · exact fun _ _ => rfl
  · intro id p x hx
    rcases List.mem_append.mp hx with hgen | htool
    · obtain rfl : x = id := by simpa [onBeforeProviderRequest] using hgen
      exact .inr ⟨p.turn, List.mem_append_right _ List.mem_cons_self⟩
    · exact .inl (List.mem_append_right _ htool)
  · exact fun _ _ _ heq => by cases heq

lemma messageEnd (h : Kept s) (hfree : s.holder = none) (toolCalls : Bool) :
    Kept (s.onTurn fun _ p => onMessageEnd toolCalls p) := by
  apply h.onTurn hfree
  · intro p hp hstarted
    unfold onMessageEnd
    split
    · trivial
    · rename_i gen hgen
      dsimp only
      split
      · trivial
      · exact ⟨hstarted _ (by simp [PromptState.openIds, hgen]), trivial⟩
  · intro id p
    unfold onMessageEnd
    split
    · rfl
    · dsimp only
      split
      · rfl
      · rfl
  · intro id p x hx
    unfold onMessageEnd at hx
    split at hx
    · exact .inl hx
    · have htool : x ∈ p.openTools.map Prod.snd := by
        dsimp only at hx
        split at hx
        · exact (List.mem_append.mp hx).resolve_left List.not_mem_nil
        · exact (List.mem_append.mp hx).resolve_left List.not_mem_nil
      exact .inl (List.mem_append_right _ htool)
  · intro id p root
    unfold onMessageEnd
    split
    · exact fun heq => nomatch heq
    · dsimp only
      split
      · exact fun heq => nomatch heq
      · split
        · exact fun heq => nomatch heq
        · exact fun heq => nomatch heq

lemma toolStart (h : Kept s) (hfree : s.holder = none) (toolCallId : String) :
    Kept (s.onTurn fun obsId p =>
      let (p, ops) := onToolExecutionStart obsId toolCallId p
      (p, ops, none)) := by
  apply h.onTurn hfree
  · exact fun p _ _ => h.ready_start p.turn
  · exact fun _ _ => rfl
  · intro id p x hx
    rcases List.mem_append.mp hx with hgen | htool
    · exact .inl (List.mem_append_left _ hgen)
    · rcases List.mem_cons.mp htool with rfl | htool
      · exact .inr ⟨p.turn, List.mem_cons_self⟩
      · obtain ⟨tool, hmem, rfl⟩ := List.mem_map.mp htool
        exact .inl (List.mem_append_right _
          (List.mem_map_of_mem (List.mem_filter.mp hmem).1))
  · exact fun _ _ _ heq => by cases heq

lemma toolEnd (h : Kept s) (hfree : s.holder = none) (toolCallId : String) (usage : Bool) :
    Kept (s.onTurn fun obsId p =>
      let (p, ops) := onToolExecutionEnd obsId toolCallId usage p
      (p, ops, none)) := by
  apply h.onTurn hfree
  · intro p hp hstarted
    dsimp only
    unfold onToolExecutionEnd
    split
    · trivial
    · rename_i tool htool
      have htool : Started s.log tool := hstarted tool (List.mem_append_right _
        (List.mem_map_of_mem (Assoc.mem_of_lookup htool)))
      split
      · exact ⟨Nat.lt_succ_self _, fun hnew => Nat.lt_irrefl _ (h.shelf.below _ hnew), .inr rfl,
          .inl htool, trivial⟩
      · exact ⟨htool, trivial⟩
  · intro id p
    dsimp only
    unfold onToolExecutionEnd
    split
    · rfl
    · rfl
  · intro id p x hx
    dsimp only at hx
    unfold onToolExecutionEnd at hx
    split at hx
    · exact .inl hx
    · rcases List.mem_append.mp hx with hgen | htool
      · exact .inl (List.mem_append_left _ hgen)
      · obtain ⟨tool, hmem, rfl⟩ := List.mem_map.mp htool
        exact .inl (List.mem_append_right _ (List.mem_map_of_mem (List.mem_filter.mp hmem).1))
  · exact fun _ _ _ heq => by cases heq

/-! #### The tasks without the prompt state -/

/-- An observation that is started outside of a turn. -/
lemma draw (h : Kept s) {hasParent : Bool} {tails : List Tail} {compactions : List Nat}
    (htails : ∀ root, .install root ∈ tails → root = s.nextId ∨ .install root ∈ s.tails)
    (hcompactions : ∀ id ∈ compactions, id = s.nextId ∨ id ∈ s.compactions) :
    Kept { s.startObservation s.nextId hasParent none with
      tails, compactions, nextId := s.nextId + 1 } where
  shelf := (h.shelf.next (Nat.le_succ _)).startObservation (Nat.lt_succ_self _)
    fun hstarted => Nat.lt_irrefl _ (h.shelf.below _ hstarted)
  refers := by
    have hnew : Started (s.log ++ [.started s.nextId none]) s.nextId :=
      started_concat_started.mpr (.inr rfl)
    refine h.refers.grow h.shelf.below (List.subset_append_left _ _) (Nat.le_succ _) ?_ rfl rfl
      ?_ ?_ fun f hf => .inr hf
    · intro id hid hstarted
      rcases started_concat_started.mp hstarted with hold | rfl
      · exact hold
      · exact absurd hid (Nat.lt_irrefl _)
    · intro root hroot
      rcases htails root hroot with rfl | hmem
      · exact .inl hnew
      · exact .inr hmem
    · intro id hid
      rcases hcompactions id hid with rfl | hmem
      · exact .inl hnew
      · exact .inr hmem

lemma compact (h : Kept s) : Kept s.compact := by
  apply h.draw
  · exact fun root hroot => .inr hroot
  · intro id hid
    rcases List.mem_append.mp hid with hid | hid
    · exact .inr hid
    · exact .inl (List.mem_singleton.mp hid)

lemma endCompaction (h : Kept s) (i : Nat) : Kept (s.endCompaction i) := by
  unfold Tracer.endCompaction
  split
  · exact h
  · rename_i id hid
    refine ⟨h.shelf.endObservation (h.refers.compactions id (List.mem_of_getElem? hid)), ?_⟩
    refine h.refers.grow h.shelf.below (List.subset_append_left _ _) (Nat.le_refl _) ?_ rfl rfl
      (fun root hroot => .inr hroot) (fun x hx => .inr (List.mem_of_mem_eraseIdx hx))
      (fun f hf => .inr hf)
    exact fun x _ hx => (started_concat fun _ => Event.noConfusion).mp hx

/-- An event that starts, ends and exports nothing. -/
lemma emit (h : Kept s) {held : Nat} {flushes : List Flush} (hflushes : ∀ f ∈ flushes, f ∈ s.flushes) :
    Kept { s with flushes, log := s.log ++ [.flushed held] } where
  shelf := h.shelf.emit (fun _ _ => Event.noConfusion) rfl trivial
  refers := by
    refine h.refers.grow h.shelf.below (List.subset_append_left _ _) (Nat.le_refl _) ?_ rfl rfl
      (fun root hroot => .inr hroot) (fun x hx => .inr hx) (fun f hf => .inr (hflushes f hf))
    exact fun x _ hx => (started_concat fun _ => Event.noConfusion).mp hx

lemma mem_snapshot {includeOpen : Bool} {rec : SpanRecord} :
    rec ∈ s.snapshot includeOpen ↔ rec ∈ s.store ∧ (rec.ended || includeOpen) = true := by
  simp only [Tracer.snapshot, List.mem_append, List.mem_filter]
  constructor
  · rintro (⟨h, -⟩ | ⟨h, -⟩)
    · exact h
    · exact h
  · intro h
    cases hparent : rec.hasParent with
    | true => exact .inl ⟨h, rfl⟩
    | false => exact .inr ⟨h, rfl⟩

lemma nodup_snapshot (h : Kept s) (includeOpen : Bool) :
    ((s.snapshot includeOpen).map SpanRecord.id).Nodup := by
  have hperm : (s.snapshot includeOpen).Perm
      (s.store.filter fun rec => rec.ended || includeOpen) := List.filter_append_perm _ _
  exact (hperm.map SpanRecord.id).nodup_iff.mpr (h.shelf.nodup.sublist (List.filter_sublist.map _))

lemma beginFlush (h : Kept s) (includeOpen : Bool) : Kept (s.beginFlush includeOpen) := by
  unfold Tracer.beginFlush
  dsimp only
  split
  · exact h.emit fun f hf => hf
  · refine ⟨h.shelf, h.refers.grow h.shelf.below (List.Subset.refl _) (Nat.le_refl _)
      (fun x _ hx => hx) rfl rfl (fun root hroot => .inr hroot) (fun x hx => .inr hx) ?_⟩
    intro f hf
    rcases List.mem_append.mp hf with hf | hf
    · exact .inr hf
    · obtain rfl := List.mem_singleton.mp hf
      refine .inl ⟨h.nodup_snapshot includeOpen, ?_, fun hsent => nomatch hsent⟩
      rintro rfl rec hrec
      obtain ⟨hmem, hended⟩ := mem_snapshot.mp hrec
      exact h.shelf.ended rec hmem (by simpa using hended)

lemma proceed (h : Kept s) (i : Nat) : Kept (s.proceed i) := by
  have herase : ∀ root, .install root ∈ s.tails.eraseIdx i → .install root ∈ s.tails :=
    fun root hroot => List.mem_of_mem_eraseIdx hroot
  have hdrop : Kept { s with tails := s.tails.eraseIdx i } :=
    h.hand rfl rfl (Nat.le_refl _) h.refers.ops h.refers.root h.refers.opened h.refers.handed herase
      rfl rfl
  unfold Tracer.proceed
  split
  · exact h
  · apply h.draw
    · intro root hroot
      rcases List.mem_or_eq_of_mem_set hroot with hmem | heq
      · exact .inr hmem
      · exact .inl (Tail.install.inj heq)
    · exact fun id hid => .inr hid
  · rename_i root hi
    split
    · exact h
    · have hroot := h.refers.installs root (List.mem_of_getElem? hi)
      refine h.hand rfl rfl (Nat.le_refl _) h.refers.ops ?_ ?_ h.refers.handed herase rfl rfl
      · intro p hp
        obtain rfl := Option.some.inj hp
        exact hroot
      · intro p hp id hid
        obtain rfl := Option.some.inj hp
        cases hid
  · split
    · exact h
    · rename_i hholder
      exact hdrop.takeTurn (by simpa using hholder) fun root heq => nomatch heq
  · exact hdrop.beginFlush _

lemma respond (h : Kept s) {i : Nat} {success : Bool} (hkeeps : Keeps s (.respond i success)) :
    Kept (s.respond i success) := by
  unfold Tracer.respond
  split
  · rename_i includeOpen batch hi
    have hbatch := h.refers.flushes _ (List.mem_of_getElem? hi)
    split
    · rename_i hsuccess
      subst hsuccess
      refine ⟨h.shelf.success hbatch.nodup hbatch.ended (hkeeps _ hi rfl), ?_⟩
      refine h.refers.grow h.shelf.below (List.subset_append_left _ _) (Nat.le_refl _) ?_ rfl rfl
        (fun root hroot => .inr hroot) (fun x hx => .inr hx) ?_
      · exact fun x _ hx => (started_concat fun _ => Event.noConfusion).mp hx
      · intro f hf
        rcases List.mem_or_eq_of_mem_set hf with hmem | rfl
        · exact .inr hmem
        · have hgrown := hbatch.mono (List.subset_append_left _ [.exported includeOpen batch])
          refine .inl ⟨hgrown.nodup, hgrown.ended, fun _ rec hrec => ?_⟩
          show rec.id ∈ exportedIds (s.log ++ [.exported includeOpen batch])
          rw [exportedIds_append]
          apply List.mem_append_right
          simpa [exportedIds] using ⟨rec, hrec, rfl⟩
    · exact h.emit fun f hf => List.mem_of_mem_eraseIdx hf
  · exact h

lemma prune (h : Kept s) {i : Nat} (hkeeps : Keeps s (.prune i)) : Kept (s.prune i) := by
  unfold Tracer.prune
  split
  · rename_i includeOpen batch hi
    obtain ⟨hsent, hlength⟩ := hkeeps _ hi rfl
    have hbatch := h.refers.flushes _ (List.mem_of_getElem? hi)
    have hbounded : Tracer.bounded (s.retained includeOpen) = s.retained includeOpen :=
      if_neg (Nat.not_lt.mpr hlength)
    have hshrink : Kept { s with store := s.retained includeOpen } := by
      refine ⟨h.shelf.shrink List.filter_sublist ?_, h.refers.grow h.shelf.below
        (List.Subset.refl _) (Nat.le_refl _) (fun x _ hx => hx) rfl rfl
        (fun root hroot => .inr hroot) (fun x hx => .inr hx) (fun f hf => .inr hf)⟩
      intro rec hrec hgone
      have hended : (rec.ended || includeOpen) = true := by
        by_contra hopen
        apply hgone
        refine List.mem_filter.mpr ⟨hrec, ?_⟩
        revert hopen
        cases rec.ended <;> cases includeOpen <;> decide
      obtain ⟨sent, hmem, hid⟩ := List.mem_map.mp (hsent rec hrec hended)
      exact hid ▸ hbatch.sent rfl sent hmem
    dsimp only
    rw [hbounded]
    exact hshrink.emit fun f hf => List.mem_of_mem_eraseIdx hf
  · exact h

/-- A step that the condition admits loses no observation and exports none twice. -/
lemma step (h : Kept s) {action : Action} (hkeeps : Keeps s action) : Kept (s.step action) := by
  cases action with
  | sessionStart =>
    refine Tracer.of_free h fun _ => ?_
    exact h.hand rfl rfl (Nat.le_refl _) h.refers.ops (fun p hp => nomatch hp)
      (fun p hp => nomatch hp) h.refers.handed (fun root hroot => hroot) rfl rfl
  | turnStart subagent => exact Tracer.of_free h fun hfree => h.takeTurn hfree fun root heq => nomatch heq
  | providerRequest => exact Tracer.of_free h h.providerRequest
  | messageEnd toolCalls => exact Tracer.of_free h fun hfree => h.messageEnd hfree toolCalls
  | toolStart toolCallId => exact Tracer.of_free h fun hfree => h.toolStart hfree toolCallId
  | toolEnd toolCallId usage => exact Tracer.of_free h fun hfree => h.toolEnd hfree toolCallId usage
  | settle => exact Tracer.of_free h fun hfree => h.takeTurn hfree fun root heq => nomatch heq
  | shutdown => exact Tracer.of_free h fun hfree => h.takeTurn hfree fun root heq => nomatch heq
  | compact => exact h.compact
  | endCompaction i => exact h.endCompaction i
  | run => exact h.run
  | proceed i => exact h.proceed i
  | respond i success => exact h.respond hkeeps
  | prune i => exact h.prune hkeeps

end Kept

end Langfuse
