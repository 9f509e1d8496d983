import Mathlib.Logic.Equiv.Basic
import RpiPackage.Lib.Decimal
import RpiPackage.Lib.First
import RpiPackage.Lib.Json
import RpiPackage.Lib.Run
import RpiPackage.Lib.Rust
import RpiPackage.Lib.Table

/-!
# The identity of requests

The store of sessions, which a request begins on and is named after: sessions expire, the one that
was used least recently makes room for a new one, and the clock may go backwards. A release build
computes with times that wrap around.
-/

namespace Antigravity

open Json Json.Value

def fnv1a64Signed (input : String) : String :=
  toString (input.toUTF8.toList.foldl (fun hash byte => (hash ^^^ byte.toUInt64) * 0x100000001b3)
    0xcbf29ce484222325 : UInt64).toInt64

structure SessionContext where
  conversationId : String
  trajectoryId : String
  numericSessionId : String
  usedClaude : Option Bool
  usedNonGeminiModel : Option Bool
  lastExecutionId : Option String
  deriving DecidableEq, Repr

def SessionContext.new (workspaceUri conversationId trajectoryId : String) : SessionContext :=
  ⟨conversationId, trajectoryId, fnv1a64Signed workspaceUri, none, none, none⟩

structure StoredSession where
  context : SessionContext
  lastAccessedAt : Int64
  lastRequestTimestamp : Int64
  deriving DecidableEq, Repr

structure SessionStore where
  entries : Table String StoredSession
  workspaceUri : String
  ttlMs : Int64
  maxEntries : Nat

namespace SessionStore

def withLimits (workspaceUri : String) (ttlMs : Int64) (maxEntries : Nat) : SessionStore :=
  ⟨.empty, workspaceUri, ttlMs, maxEntries⟩

/-- `min_by_key`: the first of the entries that were accessed least recently. -/
def oldest : List (String × StoredSession) → Option String
  | [] => none
  | p :: ps =>
    let first := ps.foldl (fun best q =>
      if q.2.lastAccessedAt < best.2.lastAccessedAt then q else best) p
    some first.1

/-- Room is made for one more entry. Every turn removes one, so that there is one turn an entry. -/
def evict (maxEntries : Nat) (preserved : String) :
    Nat → Table String StoredSession → Table String StoredSession
  | 0, m => m
  | turns + 1, m =>
    if maxEntries ≤ m.size ∧ ¬m.contains preserved then
      match oldest m.entries with
      | none => m
      | some key => if key = "" then m else evict maxEntries preserved turns (m.erase key)
    else m

def prune (s : SessionStore) (now : Int64) (preserved : String) : SessionStore :=
  let expiry := now - s.ttlMs
  let kept := s.entries.filter fun p => p.1 == preserved || decide (expiry ≤ p.2.lastAccessedAt)
  { s with entries := evict s.maxEntries preserved kept.size kept }

/-- The session of a key after it was accessed, the store with it, and how many ids were taken; ids
come from a source that is called for one after the other. -/
def getOrCreate (nextId : Nat → String) (taken : Nat) (s : SessionStore) (key : String) (now : Int64) :
    StoredSession × SessionStore × Nat :=
  let s := s.prune now key
  let (stored, taken) := match s.entries.get key with
    | some stored => (stored, taken)
    | none => (⟨.new s.workspaceUri (nextId taken) (nextId (taken + 1)), now, 0⟩, taken + 2)
  let stored := { stored with lastAccessedAt := now }
  (stored, { s with entries := s.entries.put key stored }, taken)

def beginRequest (nextId : Nat → String) (taken : Nat) (s : SessionStore) (key : String)
    (now : Int64) : StoredSession × SessionStore × Nat :=
  let (stored, s, taken) := s.getOrCreate nextId taken key now
  let timestamp := max stored.lastAccessedAt (stored.lastRequestTimestamp + 1)
  let stored := { stored with lastRequestTimestamp := timestamp }
  (stored, { s with entries := s.entries.put key stored }, taken)

def completeExecution (nextId : Nat → String) (taken : Nat) (s : SessionStore) (key : String) :
    SessionStore × Nat :=
  match s.entries.get key with
  | some stored =>
    let context := { stored.context with lastExecutionId := some (nextId taken) }
    ({ s with entries := s.entries.put key { stored with context } }, taken + 1)
  | none => (s, taken)

/-! ### What is kept -/

variable {m : Table String StoredSession} {maxEntries turns : Nat} {preserved key k : String}
  {stored : StoredSession}

lemma oldest_mem {ps : List (String × StoredSession)} (h : oldest ps = some key) :
    key ∈ ps.map Prod.fst := by
  cases ps with
  | nil => cases h
  | cons p ps =>
    obtain rfl := Option.some.inj h
    have hfold : ∀ (qs : List (String × StoredSession)) (best : String × StoredSession),
        qs.foldl (fun best q => if q.2.lastAccessedAt < best.2.lastAccessedAt then q else best) best ∈
          best :: qs := by
      intro qs
      induction qs with
      | nil => exact fun best => List.mem_singleton_self best
      | cons q qs ih =>
        intro best
        rw [List.foldl_cons]
        split
        · exact List.mem_cons_of_mem _ (ih q)
        · rcases List.mem_cons.mp (ih best) with heq | hmem
          · rw [heq]
            exact List.mem_cons_self
          · exact List.mem_cons_of_mem _ (List.mem_cons_of_mem _ hmem)
    exact List.mem_map_of_mem (hfold ps p)

lemma oldest_eq_none {ps : List (String × StoredSession)} : oldest ps = none ↔ ps = [] := by
  cases ps <;> simp [oldest]

/-- What is left after an eviction was there before it. -/
lemma get_evict (h : (evict maxEntries preserved turns m).get k = some stored) :
    m.get k = some stored := by
  fun_induction evict maxEntries preserved turns m with
  | case1 | case2 | case3 | case5 => exact h
  | case4 turns m hfull key holdest hkey ih => exact (Table.get_of_get_erase (ih h)).2

/-- A session that is preserved makes no room. -/
lemma evict_of_contains (h : m.contains preserved = true) : evict maxEntries preserved turns m = m := by
  cases turns with
  | zero => rfl
  | succ turns =>
    rw [evict, if_neg]
    exact fun hfull => hfull.2 h

lemma not_contains_erase (h : ¬m.contains preserved = true) : ¬(m.erase key).contains preserved = true := by
  rw [Table.contains, Option.isSome_iff_exists] at h ⊢
  rintro ⟨stored, hget⟩
  exact h ⟨stored, (Table.get_of_get_erase hget).2⟩

/-- Without it there is room in the end. -/
lemma size_evict (hmax : 1 ≤ maxEntries) (hkeys : "" ∉ m.keys) (hturns : m.size ≤ turns)
    (h : ¬m.contains preserved = true) : (evict maxEntries preserved turns m).size < maxEntries := by
  fun_induction evict maxEntries preserved turns m with
  | case1 m => omega
  | case2 turns m hfull hnone =>
    have hsize : m.size = 0 := congrArg List.length (oldest_eq_none.mp hnone)
    omega
  | case3 turns m hfull holdest => exact absurd (oldest_mem holdest) hkeys
  | case4 turns m hfull key holdest hkey ih =>
    have hmem : key ∈ m.keys := oldest_mem holdest
    apply ih
    · rw [Table.keys_erase]
      exact fun hin => hkeys (List.mem_of_mem_filter hin)
    · have hlt := Table.size_erase_lt hmem
      omega
    · exact not_contains_erase h
  | case5 turns m hroom =>
    rw [not_and_or, not_not] at hroom
    exact Nat.lt_of_not_le (hroom.resolve_right h)

/-! ### A request begins -/

variable {nextId : Nat → String} {taken : Nat} {s : SessionStore} {now : Int64}

/-- Pruning keeps the session of the request, adds none and makes room for it. -/
lemma prune_spec (s : SessionStore) (now : Int64) (key : String) :
    (∀ k stored, (s.prune now key).entries.get k = some stored → s.entries.get k = some stored) ∧
    (∀ stored, s.entries.get key = some stored → (s.prune now key).entries.get key = some stored) ∧
    (1 ≤ s.maxEntries → "" ∉ s.entries.keys → s.entries.size ≤ s.maxEntries →
      (s.prune now key).entries.size ≤ s.maxEntries ∧
      (s.entries.get key = none → (s.prune now key).entries.size < s.maxEntries)) := by
  let kept := s.entries.filter fun p =>
    p.1 == key || decide (now - s.ttlMs ≤ p.2.lastAccessedAt)
  have hpruned : (s.prune now key).entries = evict s.maxEntries key kept.size kept := rfl
  have hold : ∀ k stored, kept.get k = some stored → s.entries.get k = some stored :=
    fun k stored h => (Table.get_filter h).1
  have hkey : ∀ stored, s.entries.get key = some stored → kept.get key = some stored := by
    intro stored h
    apply Table.get_of_mem_entries
    exact List.mem_filter.mpr ⟨Table.mem_entries_of_get h, by simp⟩
  have hsize : kept.size ≤ s.entries.size := List.length_filter_le _ _
  refine ⟨fun k stored h => hold k stored (get_evict (hpruned ▸ h)), ?_, ?_⟩
  · intro stored h
    rw [hpruned, evict_of_contains]
    · exact hkey stored h
    · rw [Table.contains, hkey stored h]
      rfl
  · intro hmax hkeys hbound
    rw [hpruned]
    by_cases hcontains : kept.contains key = true
    · rw [evict_of_contains hcontains]
      refine ⟨Nat.le_trans hsize hbound, fun hnone => ?_⟩
      obtain ⟨stored, hstored⟩ := Option.isSome_iff_exists.mp hcontains
      rw [hold key stored hstored] at hnone
      exact absurd hnone (by simp)
    · have hnames : "" ∉ kept.keys := by
        intro hmem
        obtain ⟨p, hp, hname⟩ := List.mem_map.mp hmem
        exact hkeys (List.mem_map.mpr ⟨p, List.mem_of_mem_filter hp, hname⟩)
      have hlt := size_evict hmax hnames (Nat.le_refl kept.size) hcontains
      exact ⟨Nat.le_of_lt hlt, fun _ => hlt⟩

/-- The session that a request begins on: the one that was stored, or a new one, with the time of
the request and a timestamp that is later than the one before. -/
structure Begun (nextId : Nat → String) (taken : Nat) (s : SessionStore) (key : String) (now : Int64)
    (result : StoredSession × SessionStore × Nat) : Prop where
  stored : result.2.1.entries.get key = some result.1
  others : ∀ k stored, k ≠ key → result.2.1.entries.get k = some stored →
    s.entries.get k = some stored
  limits : result.2.1.maxEntries = s.maxEntries
  bounded : 1 ≤ s.maxEntries → "" ∉ s.entries.keys → s.entries.size ≤ s.maxEntries →
    result.2.1.entries.size ≤ s.maxEntries
  session : (∃ old, s.entries.get key = some old ∧ result.2.2 = taken ∧ result.1 =
      ⟨old.context, now, max now (old.lastRequestTimestamp + 1)⟩) ∨
    (s.entries.get key = none ∧ result.2.2 = taken + 2 ∧ result.1 =
      ⟨.new s.workspaceUri (nextId taken) (nextId (taken + 1)), now, max now (0 + 1)⟩)

lemma begun (nextId : Nat → String) (taken : Nat) (s : SessionStore) (key : String) (now : Int64) :
    Begun nextId taken s key now (s.beginRequest nextId taken key now) := by
  obtain ⟨hold, hkey, hroom⟩ := prune_spec s now key
  have hshape : ∃ first last : StoredSession,
      (s.beginRequest nextId taken key now).2.1 = { s.prune now key with
        entries := ((s.prune now key).entries.put key first).put key last } ∧
      (s.beginRequest nextId taken key now).1 = last := ⟨_, _, rfl, rfl⟩
  obtain ⟨first, last, hstore, hlast⟩ := hshape
  have hgone : s.entries.get key = none → (s.prune now key).entries.get key = none := by
    intro hnone
    by_contra hsome
    obtain ⟨stored, hstored⟩ := Option.ne_none_iff_exists'.mp hsome
    rw [hold key stored hstored] at hnone
    exact absurd hnone (by simp)
  refine ⟨?_, ?_, ?_, ?_, ?_⟩
  · rw [hstore, hlast]
    exact Table.get_put_self _ _ _
  · intro k stored hne h
    rw [hstore] at h
    have hget := Table.get_put_of_ne hne ((s.prune now key).entries.put key first) last
    have hget' := Table.get_put_of_ne hne (s.prune now key).entries first
    exact hold k stored (hget' ▸ hget ▸ h)
  · rw [hstore]
    rfl
  · intro hmax hkeys hbound
    obtain ⟨hle, hlt⟩ := hroom hmax hkeys hbound
    rw [hstore]
    show (((s.prune now key).entries.put key first).put key last).size ≤ _
    rw [Table.size_put_of_mem (Table.mem_keys_put_self _ _ _)]
    by_cases hin : key ∈ (s.prune now key).entries.keys
    · rw [Table.size_put_of_mem hin]
      exact hle
    · rw [Table.size_put hin]
      apply hlt
      by_contra hsome
      obtain ⟨stored, hstored⟩ := Option.ne_none_iff_exists'.mp hsome
      have hkept := hkey stored hstored
      rw [Table.get_eq_none.mpr hin] at hkept
      exact absurd hkept (by simp)
  · cases hget : s.entries.get key with
    | some old =>
      refine .inl ⟨old, rfl, ?_, ?_⟩ <;>
        simp only [beginRequest, getOrCreate, hkey old hget]
    | none =>
      refine .inr ⟨rfl, ?_, ?_⟩ <;>
        simp only [beginRequest, getOrCreate, hgone hget]
      rfl

end SessionStore

/-! ### The identity of a request -/

inductive StepCountMode where
  | parts
  | contents
  | cli
  deriving DecidableEq, Repr

def partsOfContent (content : Value) : List Value :=
  ((content.get "parts").bind asArray).getD []

def countSteps (payload : Value) (mode : StepCountMode) : Nat :=
  match (payload.index "contents").asArray with
  | none => 1
  | some contents =>
    let parts := contents.flatMap partsOfContent
    match mode with
    | .contents => max contents.length 1
    | .cli => max (contents.length + parts.countP fun part => (part.get "functionResponse").isSome) 1
    | .parts => max parts.length 1

/-- What is known of models: lower case, and the names in the catalog. -/
structure Models where
  toLowercase : String → String
  modelEnum : String → Option String

/-- The request id, the payload of labels and the session after a request was named. -/
def SessionContext.build (models : Models) (session : SessionContext) (payload : Value) (model : String)
    (timestamp : Int64) (mode : StepCountMode) : String × Value × SessionContext :=
  let previous := session.lastExecutionId.filter fun id => id != ""
  let step := countSteps payload mode + if previous.isSome then 1 else 0
  let lower := models.toLowercase model
  let claude := session.usedClaude == some true || Rust.startsWith lower "claude-"
  let nonGemini := session.usedNonGeminiModel == some true || Rust.startsWith lower "claude-" ||
    Rust.startsWith lower "gpt-"
  let labels := (previous.map fun id => ("last_execution_id", Value.string id)).toList ++
    [("last_step_index", .string (toString step))] ++
    ((models.modelEnum model).map fun name => ("model_enum", Value.string name)).toList ++
    [("trajectory_id", .string session.trajectoryId), ("used_claude", .string (toString claude)),
      ("used_claude_conservative", .string (toString claude)),
      ("used_non_gemini_model", .string (toString nonGemini))]
  let requestId := "agent/" ++ session.conversationId ++ "/" ++ toString timestamp ++ "/" ++
    session.trajectoryId ++ "/" ++ toString (step + 1)
  (requestId,
    .object [("requestId", .string requestId), ("sessionId", .string session.numericSessionId),
      ("labels", .object labels), ("lastStepIndex", .number (.posInt (UInt64.ofNat step)))],
    { session with usedClaude := some claude, usedNonGeminiModel := some nonGemini })

/-! ### Calls -/

inductive Call where
  | beginRequest (key : String) (now : Int64)
  | build (payload : Value) (model : String) (mode : StepCountMode)
  | completeExecution (key : String)

/-- A store and what it has given: the ids taken from the source, the session that is lent with its
timestamp and whether a request was built with it, and, newest first, the timestamps and the request
ids. A session is known by its conversation. -/
structure Sessions where
  store : SessionStore
  taken : Nat
  lent : Option (String × Int64)
  spent : Bool
  handed : List (String × Int64)
  built : List String

namespace Sessions

def start (workspaceUri : String) (ttlMs : Int64) (maxEntries : Nat) : Sessions :=
  ⟨.withLimits workspaceUri ttlMs maxEntries, 0, none, false, [], []⟩

/-- A session is lent until the next call on the store. -/
def step (models : Models) (nextId : Nat → String) (s : Sessions) : Call → Sessions
  | .beginRequest key now =>
    let (stored, store, taken) := s.store.beginRequest nextId s.taken key now
    { s with
      store, taken
      lent := some (key, stored.lastRequestTimestamp)
      spent := false
      handed := (stored.context.conversationId, stored.lastRequestTimestamp) :: s.handed }
  | .build payload model mode =>
    match s.lent with
    | none => s
    | some (key, timestamp) =>
      match s.store.entries.get key with
      | none => s
      | some stored =>
        let (requestId, _, context) := stored.context.build models payload model timestamp mode
        { s with
          store := { s.store with entries := s.store.entries.put key { stored with context } }
          spent := true
          built := requestId :: s.built }
  | .completeExecution key =>
    let (store, taken) := s.store.completeExecution nextId s.taken key
    { s with store, taken, lent := none }

/-! ### Names -/

/-- A request id names a conversation and a timestamp. -/
def Names (id : String) (p : String × Int64) : Prop :=
  ∃ rest, id = "agent/" ++ p.1 ++ "/" ++ toString p.2 ++ "/" ++ rest

lemma names_build (models : Models) (session : SessionContext) (payload : Value) (model : String)
    (timestamp : Int64) (mode : StepCountMode) :
    Names (session.build models payload model timestamp mode).1 (session.conversationId, timestamp) := by
  simp only [Names, SessionContext.build]
  exact ⟨session.trajectoryId ++ ("/" ++ _), by rw [← String.append_assoc, ← String.append_assoc]⟩

lemma slash_inj {xs ys zs ws : List Char} (hx : '/' ∉ xs) (hz : '/' ∉ zs)
    (h : xs ++ '/' :: ys = zs ++ '/' :: ws) : xs = zs ∧ ys = ws := by
  induction xs generalizing zs with
  | nil =>
    cases zs with
    | nil => exact ⟨rfl, (List.cons.inj h).2⟩
    | cons z zs =>
      obtain rfl := (List.cons.inj h).1
      exact absurd List.mem_cons_self hz
  | cons x xs ih =>
    cases zs with
    | nil =>
      obtain rfl := (List.cons.inj h).1
      exact absurd List.mem_cons_self hx
    | cons z zs =>
      rw [List.mem_cons, not_or] at hx hz
      obtain ⟨rfl, hrest⟩ := List.cons.inj h
      obtain ⟨rfl, rfl⟩ := ih hx.2 hz.2 hrest
      exact ⟨rfl, rfl⟩

/-- Where no conversation has a slash, it names no more than one of each. -/
lemma Names.eq {id : String} {p q : String × Int64} (hp : Names id p) (hq : Names id q)
    (hslash : '/' ∉ p.1.toList) (hslash' : '/' ∉ q.1.toList) : p = q := by
  obtain ⟨rest, rfl⟩ := hp
  obtain ⟨rest', heq⟩ := hq
  have hlist := congrArg String.toList heq
  have htimes : ∀ n : Int64, '/' ∉ (toString n).toList := fun n =>
    Decimal.not_mem_toString (by decide) (by decide) n.toInt
  simp only [String.toList_append, List.append_assoc] at hlist
  have hlist := List.append_cancel_left hlist
  obtain ⟨hconversation, hlist⟩ := slash_inj hslash hslash' hlist
  obtain ⟨htime, -⟩ := slash_inj (htimes _) (htimes _) hlist
  have htime := Decimal.toString_injective (m := p.2.toInt) (n := q.2.toInt) (String.toList_inj.mp htime)
  exact Prod.ext (String.toList_inj.mp hconversation) (Int64.toInt_inj.mp htime)

/-! ### What holds in every run -/

variable {models : Models} {nextId : Nat → String} {s : Sessions}

lemma build_cases (models : Models) (nextId : Nat → String) (s : Sessions) (payload : Value)
    (model : String) (mode : StepCountMode) :
    s.step models nextId (.build payload model mode) = s ∨
      ∃ key timestamp stored, s.lent = some (key, timestamp) ∧
        s.store.entries.get key = some stored ∧
        s.step models nextId (.build payload model mode) =
          let built := stored.context.build models payload model timestamp mode
          { s with
            store := { s.store with
              entries := s.store.entries.put key { stored with context := built.2.2 } }
            spent := true
            built := built.1 :: s.built } := by
  cases hlent : s.lent with
  | none =>
    left
    simp only [step, hlent]
  | some lent =>
    obtain ⟨key, timestamp⟩ := lent
    cases hget : s.store.entries.get key with
    | none =>
      left
      simp only [step, hlent, hget]
    | some stored =>
      right
      refine ⟨key, timestamp, stored, rfl, hget, ?_⟩
      simp only [step, hlent, hget]

lemma complete_cases (models : Models) (nextId : Nat → String) (s : Sessions) (key : String) :
    s.step models nextId (.completeExecution key) = { s with lent := none } ∨
      ∃ stored, s.store.entries.get key = some stored ∧
        s.step models nextId (.completeExecution key) = { s with
          store := { s.store with
            entries := s.store.entries.put key { stored with
              context := { stored.context with lastExecutionId := some (nextId s.taken) } } }
          taken := s.taken + 1
          lent := none } := by
  cases hget : s.store.entries.get key with
  | none =>
    left
    simp only [step, SessionStore.completeExecution, hget]
  | some stored =>
    right
    refine ⟨stored, rfl, ?_⟩
    simp only [step, SessionStore.completeExecution, hget]

/-- Every stored session has a conversation of its own, which no session that is gone had, and its
last timestamp is the latest of those handed out for it. -/
structure Apart (nextId : Nat → String) (s : Sessions) : Prop where
  bounded : s.store.entries.size ≤ s.store.maxEntries
  named : "" ∉ s.store.entries.keys
  taken : ∀ k stored, s.store.entries.get k = some stored →
    ∃ i < s.taken, stored.context.conversationId = nextId i
  apart : ∀ k k' stored stored', s.store.entries.get k = some stored →
    s.store.entries.get k' = some stored' →
    stored.context.conversationId = stored'.context.conversationId → k = k'
  past : ∀ p ∈ s.handed, ∃ i < s.taken, p.1 = nextId i
  latest : ∀ k stored, s.store.entries.get k = some stored → ∀ p ∈ s.handed,
    p.1 = stored.context.conversationId → p.2 ≤ stored.lastRequestTimestamp
  rising : s.handed.Pairwise fun later earlier => later.1 = earlier.1 → earlier.2 < later.2

/-- Every request id names a pair that was handed out, each pair once, and the pair that is lent out
has not been named. -/
structure Unique (s : Sessions) : Prop where
  lent : ∀ key timestamp, s.lent = some (key, timestamp) → ∃ stored,
    s.store.entries.get key = some stored ∧
    s.handed.head? = some (stored.context.conversationId, timestamp)
  named : ∃ pairs, List.Forall₂ Names s.built pairs ∧
    pairs.Sublist (if s.lent.isSome && !s.spent then s.handed.tail else s.handed)

/-- What a call may meet: keys are not empty, no session begins a request after its last possible
timestamp, and a request is built once with what it began on. -/
def Admissible (s : Sessions) : Call → Prop
  | .beginRequest key _ => key ≠ "" ∧ ∀ stored, s.store.entries.get key = some stored →
    stored.lastRequestTimestamp ≠ Int64.maxValue
  | .build .. => s.spent = false
  | .completeExecution _ => True

instance (s : Sessions) : (call : Call) → Decidable (Admissible s call)
  | .beginRequest key _ => decidable_of_iff
      (key ≠ "" ∧ (s.store.entries.get key).all
        (fun stored => decide (stored.lastRequestTimestamp ≠ Int64.maxValue)) = true)
      (by simp only [Admissible, Option.all_eq_true, decide_eq_true_eq])
  | .build .. => inferInstanceAs (Decidable (s.spent = false))
  | .completeExecution _ => .isTrue trivial

lemma apart_start (workspaceUri : String) (ttlMs : Int64) (maxEntries : Nat) :
    Apart nextId (start workspaceUri ttlMs maxEntries) := by
  have hnone : ∀ k stored, (start workspaceUri ttlMs maxEntries).store.entries.get k ≠ some stored :=
    fun k stored h => absurd h (by simp [start, SessionStore.withLimits, Table.get, Table.empty])
  exact ⟨Nat.zero_le _, List.not_mem_nil, fun k stored h => absurd h (hnone k stored),
    fun k k' stored stored' h => absurd h (hnone k stored), fun p hp => absurd hp List.not_mem_nil,
    fun k stored h => absurd h (hnone k stored), .nil⟩

lemma unique_start (workspaceUri : String) (ttlMs : Int64) (maxEntries : Nat) :
    Unique (start workspaceUri ttlMs maxEntries) :=
  ⟨fun key timestamp h => absurd h (by simp [start]), [], .nil, .slnil⟩

/-- A session that is written back with its conversation and its times stays what it was. -/
lemma Apart.change (h : Apart nextId s) {key : String} {stored : StoredSession}
    (hget : s.store.entries.get key = some stored) (context : SessionContext)
    (hsame : context.conversationId = stored.context.conversationId) {s' : Sessions}
    (hentries : s'.store.entries = s.store.entries.put key { stored with context })
    (hmax : s'.store.maxEntries = s.store.maxEntries) (htaken : s.taken ≤ s'.taken)
    (hhanded : s'.handed = s.handed) : Apart nextId s' := by
  have hkey : key ∈ s.store.entries.keys := by
    by_contra hnot
    rw [Table.get_eq_none.mpr hnot] at hget
    exact absurd hget (by simp)
  -- every session is one from before, up to its context
  have hback : ∀ k st, s'.store.entries.get k = some st → ∃ old, s.store.entries.get k = some old ∧
      st.context.conversationId = old.context.conversationId ∧
      st.lastRequestTimestamp = old.lastRequestTimestamp := by
    intro k st hst
    rw [hentries] at hst
    by_cases hk : k = key
    · subst hk
      rw [Table.get_put_self] at hst
      obtain rfl := Option.some.inj hst
      exact ⟨stored, hget, hsame, rfl⟩
    · rw [Table.get_put_of_ne hk] at hst
      exact ⟨st, hst, rfl, rfl⟩
  refine ⟨?_, ?_, ?_, ?_, ?_, ?_, ?_⟩
  · rw [hentries, hmax, Table.size_put_of_mem hkey]
    exact h.bounded
  · rw [hentries]
    intro hmem
    rcases Table.mem_keys_putEntries.mp hmem with rfl | hmem
    · exact h.named hkey
    · exact h.named hmem
  · intro k st hst
    obtain ⟨old, hold, hconversation, -⟩ := hback k st hst
    obtain ⟨i, hi, hid⟩ := h.taken k old hold
    exact ⟨i, Nat.lt_of_lt_of_le hi htaken, hconversation.trans hid⟩
  · intro k k' st st' hst hst' heq
    obtain ⟨old, hold, hconversation, -⟩ := hback k st hst
    obtain ⟨old', hold', hconversation', -⟩ := hback k' st' hst'
    exact h.apart k k' old old' hold hold' (hconversation.symm.trans (heq.trans hconversation'))
  · intro p hp
    obtain ⟨i, hi, hid⟩ := h.past p (hhanded ▸ hp)
    exact ⟨i, Nat.lt_of_lt_of_le hi htaken, hid⟩
  · intro k st hst p hp heq
    obtain ⟨old, hold, hconversation, hlast⟩ := hback k st hst
    rw [hlast]
    exact h.latest k old hold p (hhanded ▸ hp) (heq.trans hconversation)
  · rw [hhanded]
    exact h.rising

/-- The session that a request begins on: it is that of the key, or has a conversation that no
session had before, and its timestamp is later than any that was handed out for it. -/
lemma Apart.beginRequest (h : Apart nextId s) (hids : Function.Injective nextId)
    (hmax : 1 ≤ s.store.maxEntries) {key : String} {now : Int64}
    (hadmissible : Admissible s (.beginRequest key now)) :
    Apart nextId (s.step models nextId (.beginRequest key now)) := by
  obtain ⟨hstored, hothers, hlimits, hbounded, hsession⟩ :=
    SessionStore.begun nextId s.taken s.store key now
  generalize hresult : s.store.beginRequest nextId s.taken key now = result at *
  obtain ⟨stored, store, taken⟩ := result
  dsimp only at hstored hothers hlimits hbounded hsession
  have hstep : s.step models nextId (.beginRequest key now) =
      { s with
        store, taken
        lent := some (key, stored.lastRequestTimestamp)
        spent := false
        handed := (stored.context.conversationId, stored.lastRequestTimestamp) :: s.handed } := by
    rw [step, hresult]
  -- the conversation of the session, and which sessions can share it
  have hle : s.taken ≤ taken := by
    rcases hsession with ⟨-, -, htaken, -⟩ | ⟨-, htaken, -⟩ <;> omega
  have hid : ∃ i < taken, stored.context.conversationId = nextId i := by
    rcases hsession with ⟨old, hold, htaken, rfl⟩ | ⟨-, htaken, rfl⟩
    · obtain ⟨i, hi, hid⟩ := h.taken key old hold
      exact ⟨i, by omega, hid⟩
    · exact ⟨s.taken, by omega, rfl⟩
  have hown : ∀ k st, k ≠ key → s.store.entries.get k = some st →
      st.context.conversationId ≠ stored.context.conversationId := by
    intro k st hk hst heq
    rcases hsession with ⟨old, hold, -, rfl⟩ | ⟨-, -, rfl⟩
    · exact hk (h.apart k key st old hst hold heq)
    · obtain ⟨i, hi, hid⟩ := h.taken k st hst
      exact absurd (hids (hid.symm.trans heq)) (Nat.ne_of_lt hi)
  have hlater : ∀ p ∈ s.handed, p.1 = stored.context.conversationId →
      p.2 < stored.lastRequestTimestamp := by
    intro p hp heq
    rcases hsession with ⟨old, hold, -, rfl⟩ | ⟨-, -, rfl⟩
    · have hlast := h.latest key old hold p hp heq
      have hnext := Rust.lt_succ64 (hadmissible.2 old hold)
      have hmaximum := Rust.le_max_right64 now (old.lastRequestTimestamp + 1)
      exact Int64.lt_of_le_of_lt hlast (Int64.lt_of_lt_of_le hnext hmaximum)
    · obtain ⟨i, hi, hid⟩ := h.past p hp
      exact absurd (hids (hid.symm.trans heq)) (Nat.ne_of_lt hi)
  rw [hstep]
  refine ⟨?_, ?_, ?_, ?_, ?_, ?_, ?_⟩
  · exact hlimits ▸ hbounded hmax h.named h.bounded
  · intro hmem
    obtain ⟨p, hp, hname⟩ := List.mem_map.mp hmem
    have hget := Table.get_of_mem_entries (k := p.1) (a := p.2) hp
    by_cases hk : p.1 = key
    · exact hadmissible.1 (hk.symm.trans hname)
    · have hold := Table.mem_entries_of_get (hothers p.1 p.2 hk hget)
      exact h.named (List.mem_map.mpr ⟨_, hold, hname⟩)
  · intro k st hst
    by_cases hk : k = key
    · subst hk
      obtain rfl := Option.some.inj (hstored.symm.trans hst)
      exact hid
    · obtain ⟨i, hi, hname⟩ := h.taken k st (hothers k st hk hst)
      exact ⟨i, Nat.lt_of_lt_of_le hi hle, hname⟩
  · intro k k' st st' hst hst' heq
    by_cases hk : k = key <;> by_cases hk' : k' = key
    · rw [hk, hk']
    · subst hk
      obtain rfl := Option.some.inj (hstored.symm.trans hst)
      exact absurd heq.symm (hown k' st' hk' (hothers k' st' hk' hst'))
    · subst hk'
      obtain rfl := Option.some.inj (hstored.symm.trans hst')
      exact absurd heq (hown k st hk (hothers k st hk hst))
    · exact h.apart k k' st st' (hothers k st hk hst) (hothers k' st' hk' hst') heq
  · intro p hp
    rcases List.mem_cons.mp hp with rfl | hp
    · exact hid
    · obtain ⟨i, hi, hname⟩ := h.past p hp
      exact ⟨i, Nat.lt_of_lt_of_le hi hle, hname⟩
  · intro k st hst p hp heq
    by_cases hk : k = key
    · subst hk
      obtain rfl := Option.some.inj (hstored.symm.trans hst)
      rcases List.mem_cons.mp hp with rfl | hp
      · exact Int64.le_refl _
      · exact Int64.le_of_lt (hlater p hp heq)
    · rcases List.mem_cons.mp hp with rfl | hp
      · exact absurd heq.symm (hown k st hk (hothers k st hk hst))
      · exact h.latest k st (hothers k st hk hst) p hp heq
  · refine List.pairwise_cons.mpr ⟨?_, h.rising⟩
    intro p hp heq
    exact hlater p hp heq.symm

lemma Apart.step (h : Apart nextId s) (hids : Function.Injective nextId)
    (hmax : 1 ≤ s.store.maxEntries) {call : Call} (hadmissible : Admissible s call) :
    Apart nextId (s.step models nextId call) := by
  cases call with
  | beginRequest key now => exact h.beginRequest hids hmax hadmissible
  | build payload model mode =>
    rcases build_cases models nextId s payload model mode with
      heq | ⟨key, timestamp, stored, -, hget, heq⟩
    · rw [heq]
      exact h
    · rw [heq]
      exact h.change hget (stored.context.build models payload model timestamp mode).2.2 rfl rfl rfl
        (Nat.le_refl _) rfl
  | completeExecution key =>
    rcases complete_cases models nextId s key with
      heq | ⟨stored, hget, heq⟩
    · rw [heq]
      exact ⟨h.bounded, h.named, h.taken, h.apart, h.past, h.latest, h.rising⟩
    · rw [heq]
      exact h.change hget { stored.context with lastExecutionId := some (nextId s.taken) } rfl rfl rfl
        (Nat.le_succ _) rfl

lemma Unique.step (h : Unique s) {call : Call} (hadmissible : Admissible s call) :
    Unique (s.step models nextId call) := by
  obtain ⟨pairs, hnames, hsub⟩ := h.named
  have hall : pairs.Sublist s.handed := by
    split at hsub
    · exact hsub.trans (List.tail_sublist _)
    · exact hsub
  cases call with
  | beginRequest key now =>
    have hstored := (SessionStore.begun nextId s.taken s.store key now).stored
    refine ⟨?_, pairs, hnames, hall⟩
    intro k timestamp hlent
    obtain ⟨rfl, rfl⟩ := Prod.mk.inj (Option.some.inj hlent)
    exact ⟨_, hstored, rfl⟩
  | build payload model mode =>
    rcases build_cases models nextId s payload model mode with
      heq | ⟨key, timestamp, stored, hlent, hget, heq⟩
    · rw [heq]
      exact h
    · obtain ⟨stored', hget', hhead⟩ := h.lent key timestamp hlent
      obtain rfl := Option.some.inj (hget.symm.trans hget')
      obtain ⟨earlier, hhanded⟩ := List.head?_eq_some_iff.mp hhead
      have hfresh : s.spent = false := hadmissible
      rw [hlent, hfresh, hhanded] at hsub
      rw [heq]
      refine ⟨?_, (stored.context.conversationId, timestamp) :: pairs, ?_, ?_⟩
      · intro k t hlent'
        obtain ⟨rfl, rfl⟩ := Prod.mk.inj (Option.some.inj (hlent.symm.trans hlent'))
        exact ⟨_, Table.get_put_self _ _ _, hhead⟩
      · exact .cons (names_build _ _ _ _ _ _) hnames
      · show List.Sublist _ (if s.lent.isSome && !true then s.handed.tail else s.handed)
        rw [Bool.not_true, Bool.and_false, hhanded]
        exact hsub.cons_cons _
  | completeExecution key =>
    rcases complete_cases models nextId s key with
      heq | ⟨stored, -, heq⟩ <;>
    · rw [heq]
      exact ⟨fun k timestamp hlent => absurd hlent (by simp), pairs, hnames, hall⟩

/-- The requests of a run have names of their own. -/
lemma Unique.nodup_built (h : Unique s) (hapart : Apart nextId s)
    (hslash : ∀ i, '/' ∉ (nextId i).toList) : s.built.Nodup := by
  obtain ⟨pairs, hnames, hsub⟩ := h.named
  have hall : pairs.Sublist s.handed := by
    split at hsub
    · exact hsub.trans (List.tail_sublist _)
    · exact hsub
  have hpairs : pairs.Nodup := by
    refine (hapart.rising.sublist hall).imp ?_
    rintro p q hlt rfl
    exact Int64.lt_irrefl (hlt rfl)
  have hplain : ∀ p ∈ pairs, '/' ∉ p.1.toList := by
    intro p hp
    obtain ⟨i, -, hid⟩ := hapart.past p (hall.subset hp)
    exact hid ▸ hslash i
  clear hall hsub
  generalize s.built = ids at hnames
  induction hnames with
  | nil => exact List.nodup_nil
  | @cons id p ids pairs hname hnames ih =>
    rw [List.nodup_cons] at hpairs ⊢
    refine ⟨fun hid => ?_, ih hpairs.2 fun q hq => hplain q (List.mem_cons_of_mem _ hq)⟩
    obtain ⟨q, hq, hname'⟩ := First.exists_of_forall₂ hnames.flip hid
    obtain rfl := hname.eq hname' (hplain p List.mem_cons_self) (hplain q (List.mem_cons_of_mem _ hq))
    exact hpairs.1 hq

/-- What was seen of a session is not forgotten. -/
structure Remembers (old stored : SessionContext) : Prop where
  claude : old.usedClaude = some true → stored.usedClaude = some true
  nonGemini : old.usedNonGeminiModel = some true → stored.usedNonGeminiModel = some true

/-- A call keeps what was seen of the sessions that stay, and the session that a request is for
stays with its context. -/
structure Keeps (s : Sessions) (call : Call) (s' : Sessions) : Prop where
  flags : ∀ k old stored, s.store.entries.get k = some old → s'.store.entries.get k = some stored →
    Remembers old.context stored.context
  session : ∀ key now, call = .beginRequest key now → ∃ stored,
    s'.store.entries.get key = some stored ∧
    ∀ old, s.store.entries.get key = some old → stored.context = old.context

lemma Remembers.refl (session : SessionContext) : Remembers session session := ⟨id, id⟩

lemma remembers_build (models : Models) (session : SessionContext) (payload : Value) (model : String)
    (timestamp : Int64) (mode : StepCountMode) :
    Remembers session (session.build models payload model timestamp mode).2.2 := by
  constructor <;>
  · intro h
    simp [SessionContext.build, h]

lemma keeps_step (models : Models) (nextId : Nat → String) (s : Sessions) (call : Call) :
    Keeps s call (s.step models nextId call) := by
  -- a session that is written back remembers when its context does
  have hput : ∀ key (before after : StoredSession), s.store.entries.get key = some before →
      Remembers before.context after.context → ∀ k old stored, s.store.entries.get k = some old →
      (s.store.entries.put key after).get k = some stored →
      Remembers old.context stored.context := by
    intro key before after hbefore hremembers k old stored hold hstored
    by_cases hk : k = key
    · subst hk
      rw [Table.get_put_self] at hstored
      obtain rfl := Option.some.inj hstored
      obtain rfl := Option.some.inj (hbefore.symm.trans hold)
      exact hremembers
    · rw [Table.get_put_of_ne hk] at hstored
      obtain rfl := Option.some.inj (hold.symm.trans hstored)
      exact .refl _
  have hsame : ∀ k old stored, s.store.entries.get k = some old →
      s.store.entries.get k = some stored → Remembers old.context stored.context := by
    intro k old stored hold hstored
    obtain rfl := Option.some.inj (hold.symm.trans hstored)
    exact .refl _
  cases call with
  | beginRequest key now =>
    obtain ⟨hstored, hothers, -, -, hsession⟩ := SessionStore.begun nextId s.taken s.store key now
    have hcontext : ∀ old, s.store.entries.get key = some old →
        (s.store.beginRequest nextId s.taken key now).1.context = old.context := by
      intro old hold
      rcases hsession with ⟨old', hold', -, heq⟩ | ⟨hnone, -, -⟩
      · obtain rfl := Option.some.inj (hold.symm.trans hold')
        rw [heq]
      · rw [hnone] at hold
        cases hold
    constructor
    · intro k old stored hold hstored'
      by_cases hk : k = key
      · subst hk
        obtain rfl := Option.some.inj (hstored.symm.trans hstored')
        rw [hcontext old hold]
        exact .refl _
      · exact hsame k old stored hold (hothers k stored hk hstored')
    · intro k now' heq
      obtain ⟨rfl, rfl⟩ := Call.beginRequest.inj heq
      exact ⟨_, hstored, hcontext⟩
  | build payload model mode =>
    refine ⟨?_, fun _ _ h => nomatch h⟩
    rcases build_cases models nextId s payload model mode with
      heq | ⟨key, timestamp, stored, -, hget, heq⟩
    · rw [heq]
      exact hsame
    · rw [heq]
      exact hput key stored _ hget (remembers_build models stored.context payload model timestamp mode)
  | completeExecution key =>
    refine ⟨?_, fun _ _ h => nomatch h⟩
    rcases complete_cases models nextId s key with
      heq | ⟨stored, hget, heq⟩
    · rw [heq]
      exact hsame
    · rw [heq]
      exact hput key stored _ hget ⟨id, id⟩

lemma maxEntries_step (models : Models) (nextId : Nat → String) (s : Sessions) (call : Call) :
    (s.step models nextId call).store.maxEntries = s.store.maxEntries := by
  cases call with
  | beginRequest key now => exact (SessionStore.begun nextId s.taken s.store key now).limits
  | build payload model mode =>
    rcases build_cases models nextId s payload model mode with
      heq | ⟨key, timestamp, stored, -, -, heq⟩ <;> rw [heq]
  | completeExecution key =>
    rcases complete_cases models nextId s key with
      heq | ⟨stored, -, heq⟩ <;> rw [heq]

/-- Ids that are never given twice and have no slash name the requests of every run apart, while the
store stays within its limit. -/
theorem requests_apart (models : Models) (nextId : Nat → String) (hids : Function.Injective nextId)
    (hslash : ∀ i, '/' ∉ (nextId i).toList) (workspaceUri : String) (ttlMs : Int64) (maxEntries : Nat)
    (hmax : 1 ≤ maxEntries) (calls : List Call)
    (hcalls : Run.Meets (step models nextId) Admissible (start workspaceUri ttlMs maxEntries) calls) :
    let s := Run.after (step models nextId) (start workspaceUri ttlMs maxEntries) calls
    s.store.entries.size ≤ maxEntries ∧
      (s.handed.Pairwise fun later earlier => later.1 = earlier.1 → earlier.2 < later.2) ∧
      s.built.Nodup ∧
      ∀ left call right, calls = left ++ call :: right →
        Keeps (Run.after (step models nextId) (start workspaceUri ttlMs maxEntries) left) call
          (Run.after (step models nextId) (start workspaceUri ttlMs maxEntries) (left ++ [call])) := by
  intro s
  obtain ⟨hlimit, hapart, hunique⟩ : s.store.maxEntries = maxEntries ∧ Apart nextId s ∧ Unique s := by
    apply hcalls.invariant (P := fun s => s.store.maxEntries = maxEntries ∧ Apart nextId s ∧ Unique s)
    · rintro s call ⟨hlimit, hapart, hunique⟩ hadmissible
      exact ⟨(maxEntries_step models nextId s call).trans hlimit,
        hapart.step hids (hlimit ▸ hmax) hadmissible, hunique.step hadmissible⟩
    · exact ⟨rfl, apart_start workspaceUri ttlMs maxEntries,
        unique_start workspaceUri ttlMs maxEntries⟩
  refine ⟨hlimit ▸ hapart.bounded, hapart.rising, hunique.nodup_built hapart hslash, ?_⟩
  intro left call right _
  rw [Run.after_append]
  exact keeps_step models nextId _ call

def numbered (i : Nat) : String := toString (i : Int)

lemma numbered_injective : Function.Injective numbered := fun i j h =>
  Int.ofNat_inj.mp (Decimal.toString_injective (m := i) (n := j) h)

lemma slash_not_mem_numbered (i : Nat) : '/' ∉ (numbered i).toList :=
  Decimal.not_mem_toString (by decide) (by decide) i

def plainModels : Models := ⟨id, fun _ => none⟩

/-- The first session is evicted by a request of an earlier time, and begins anew. -/
theorem requests_apart_of_eviction :
    let calls := [.beginRequest "k" 5, .build .null "claude-x" .parts, .beginRequest "l" 3,
      .build .null "m" .parts, .completeExecution "l", .beginRequest "k" 3, .build .null "m" .cli]
    (Run.after (step plainModels numbered) (start "file:///w" 1000 1) calls).built.Nodup := by
  intro calls
  have hcalls : Run.Meets (step plainModels numbered) Admissible (start "file:///w" 1000 1) calls := by
    decide +kernel
  exact (requests_apart plainModels numbered numbered_injective slash_not_mem_numbered "file:///w" 1000
    1 (by decide) calls hcalls).2.2.1

/-- Ids with slashes: 1, 1/1/1/1, 1/1/1, 1/1 and so on. -/
def slashed (i : Nat) : String :=
  String.ofList ('1' :: (List.replicate (Equiv.swap 1 3 i) ['/', '1']).flatten)

lemma slashed_injective : Function.Injective slashed := by
  intro i j h
  have hlength := congrArg List.length (String.ofList_inj.mp h)
  simp only [List.length_cons, List.length_flatten, List.map_replicate, List.sum_replicate_nat,
    List.length_nil] at hlength
  exact (Equiv.swap 1 3).injective (by omega)

/-- Requests share an id where ids have slashes, where the clock stands at the last timestamp and
where two of them are built on what one began on. -/
theorem request_ids_repeated :
    (Function.Injective slashed ∧
      ¬(Run.after (step plainModels slashed) (start "file:///w" 1000 256)
        [.beginRequest "k" 1, .build .null "m" .parts, .beginRequest "l" 1,
          .build .null "m" .parts]).built.Nodup) ∧
    (Function.Injective numbered ∧
      ¬(Run.after (step plainModels numbered) (start "file:///w" 1000 256)
        [.beginRequest "k" Int64.maxValue, .build .null "m" .parts,
          .beginRequest "k" Int64.maxValue, .build .null "m" .parts]).built.Nodup ∧
      ¬(Run.after (step plainModels numbered) (start "file:///w" 1000 256)
        [.beginRequest "k" 1, .build .null "m" .parts, .build .null "m" .parts]).built.Nodup) :=
  ⟨⟨slashed_injective, by decide +kernel⟩, numbered_injective, by decide +kernel, by decide +kernel⟩

end Sessions

end Antigravity
