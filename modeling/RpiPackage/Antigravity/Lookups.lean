import RpiPackage.Antigravity.Project
import RpiPackage.Antigravity.Terminal
import RpiPackage.Lib.Run
import RpiPackage.Lib.Table

/-!
# Shared lookups of projects

Callers share the lookup of a key while it is in flight, and its result for half an hour after it.
Lookups go on when their callers leave, and what they touch of the store they touch under its lock.
-/

namespace Antigravity

open Json

/-- Half an hour. -/
def cacheTtl : Int := 30 * 60 * 1000

inductive Phase where
  | started
  -- whether provisioning failed before
  | consulted (failed : Bool)
  | resolved (result : Except String Value)
  | completed (result : Except String Value) (time : Int)
  | sent (result : Except String Value) (time : Int)

structure Lookup where
  auth : Value
  key : Option String
  phase : Phase

/-- What a caller has got. -/
inductive Got where
  | unbound (value : Value)
  | refused (message : String)
  | cached (value : Value) (completed now : Int)
  | waiting (lookup : Nat)
  | joined (lookup : Nat) (result : Except String Value)
  | cancelled (lookup : Nat)

structure Caller where
  auth : Value
  got : Got

structure ProjectStore where
  cached : Table String (Value × Int)
  pending : Table String Nat
  provisionFailed : List String

/-- A store with the lookups that were started on it, the callers and the clock. -/
structure Projects where
  store : ProjectStore
  lookups : List Lookup
  callers : List Caller
  now : Int

namespace Projects

def start (now : Int) : Projects := ⟨⟨.empty, .empty, []⟩, [], [], now⟩

def answer (s : Projects) (auth : Value) (got : Got) : Projects :=
  { s with callers := s.callers ++ [⟨auth, got⟩] }

/-- A lookup is started, and is pending where it has a key. -/
def begin (s : Projects) (auth : Value) (key : Option String) : Projects :=
  let lookup := s.lookups.length
  let pending := match key with
    | some key => s.store.pending.put key lookup
    | none => s.store.pending
  let s : Projects := { s with
    store := { s.store with pending }
    lookups := s.lookups ++ [⟨auth, key, .started⟩] }
  s.answer auth (.waiting lookup)

def join (s : Projects) (auth : Value) (key : String) : Projects :=
  match s.store.pending.get key with
  | some lookup => s.answer auth (.waiting lookup)
  | none => s.begin auth (some key)

def ensure (s : Projects) (auth : Value) : Projects :=
  if !truthy (auth.index "access") then
    s.answer auth (.unbound (projectResult auth (.string "") none))
  else
    match cacheKey (auth.get "refresh") with
    | .error message => s.answer auth (.refused message)
    | .ok none => s.begin auth none
    | .ok (some key) =>
      match s.store.cached.get key with
      | some (value, completed) =>
        if s.now - completed < cacheTtl then s.answer auth (.cached value completed s.now)
        else { s with store := { s.store with cached := s.store.cached.erase key } }.join auth key
      | none => s.join auth key

def setPhase (s : Projects) (i : Nat) (l : Lookup) (phase : Phase) : Projects :=
  { s with lookups := s.lookups.set i { l with phase } }

/-- What a completed lookup leaves in the store. -/
def settle (store : ProjectStore) (key : Option String) (result : Except String Value) (now : Int) :
    ProjectStore :=
  match key with
  | none => store
  | some key =>
    let store := { store with pending := store.pending.erase key }
    match result with
    | .error _ => store
    | .ok value =>
      let next := nextKey value key
      let cached := store.cached.put next (value, now)
      { store with cached := if next ≠ key then cached.erase key else cached }

inductive Op where
  | ensure (auth : Value)
  | consult (lookup : Nat)
  | reply (lookup : Nat) (replies : Replies)
  | complete (lookup : Nat)
  | send (lookup : Nat)
  | receive (caller : Nat)
  | cancel (caller : Nat)
  | tick (now : Int)

variable (F : Type) [Doubles F]

/-- A step that a lookup or a caller cannot take changes nothing. -/
def step (s : Projects) : Op → Projects
  | .ensure auth => s.ensure auth
  | .consult i =>
    match s.lookups[i]? with
    | some ⟨auth, key, .started⟩ =>
      s.setPhase i ⟨auth, key, .started⟩
        (.consulted (key.any fun key => s.store.provisionFailed.contains key))
    | _ => s
  | .reply i replies =>
    match s.lookups[i]? with
    | some ⟨auth, key, .consulted failed⟩ =>
      let (result, fails) := resolve F failed replies auth
      let provisionFailed := if fails then key.toList ++ s.store.provisionFailed
        else s.store.provisionFailed
      { s with store := { s.store with provisionFailed } }.setPhase i ⟨auth, key, .consulted failed⟩
        (.resolved result)
    | _ => s
  | .complete i =>
    match s.lookups[i]? with
    | some ⟨auth, key, .resolved result⟩ =>
      { s with store := settle s.store key result s.now }.setPhase i ⟨auth, key, .resolved result⟩ (.completed result s.now)
    | _ => s
  | .send i =>
    match s.lookups[i]? with
    | some ⟨auth, key, .completed result time⟩ =>
      s.setPhase i ⟨auth, key, .completed result time⟩ (.sent result time)
    | _ => s
  | .receive c =>
    match s.callers[c]? with
    | some ⟨auth, .waiting i⟩ =>
      match s.lookups[i]? with
      | some ⟨_, _, .sent result _⟩ => { s with callers := s.callers.set c ⟨auth, .joined i result⟩ }
      | _ => s
    | _ => s
  | .cancel c =>
    match s.callers[c]? with
    | some ⟨auth, .waiting i⟩ => { s with callers := s.callers.set c ⟨auth, .cancelled i⟩ }
    | _ => s
  | .tick now => { s with now }

end Projects

/-! ### Lookups that go on -/

/-- The result that a lookup has come to. -/
def Lookup.result (l : Lookup) : Option (Except String Value) :=
  match l.phase with
  | .started | .consulted _ => none
  | .resolved result | .completed result _ | .sent result _ => some result

/-- The result of a completed lookup with the time of its completion. -/
def Lookup.settled (l : Lookup) : Option (Except String Value × Int) :=
  match l.phase with
  | .started | .consulted _ | .resolved _ => none
  | .completed result time | .sent result time => some (result, time)

/-- Lookups are not replaced, keep their results and are added at the end. -/
def Grows (ls ls' : List Lookup) : Prop :=
  ∀ (i : Nat) (l : Lookup), ls[i]? = some l → ∃ l' : Lookup, ls'[i]? = some l' ∧
    l'.auth = l.auth ∧ l'.key = l.key ∧
    (∀ p, l.settled = some p → l'.settled = some p) ∧
    ∀ result time, l.phase = .sent result time → l'.phase = .sent result time

variable {ls ls' : List Lookup} {l : Lookup} {i : Nat}

lemma grows_append (ls : List Lookup) (l : Lookup) : Grows ls (ls ++ [l]) := by
  intro i l' hl
  refine ⟨l', ?_, rfl, rfl, fun _ h => h, fun _ _ h => h⟩
  rw [List.getElem?_append_left (List.getElem?_eq_some_iff.mp hl).1]
  exact hl

lemma getElem?_setPhase (hl : ls[i]? = some l) (l' : Lookup) (j : Nat) :
    (ls.set i l')[j]? = if j = i then some l' else ls[j]? := by
  rw [List.getElem?_set]
  by_cases h : i = j
  · subst h
    rw [if_pos rfl, if_pos (List.getElem?_eq_some_iff.mp hl).1, if_pos rfl]
  · rw [if_neg h, if_neg (Ne.symm h)]

lemma grows_set (hl : ls[i]? = some l) (next : Phase)
    (hsettled : ∀ p, l.settled = some p → Lookup.settled { l with phase := next } = some p)
    (hsent : ∀ result time, l.phase ≠ .sent result time) :
    Grows ls (ls.set i { l with phase := next }) := by
  intro j l' hl'
  rw [getElem?_setPhase hl]
  by_cases hj : j = i
  · subst hj
    obtain rfl := Option.some.inj (hl.symm.trans hl')
    exact ⟨_, if_pos rfl, rfl, rfl, hsettled, fun result time h => absurd h (hsent result time)⟩
  · exact ⟨l', by rw [if_neg hj, hl'], rfl, rfl, fun _ h => h, fun _ _ h => h⟩

lemma Grows.mem (h : Grows ls ls') (hl : l ∈ ls) : ∃ l' ∈ ls', l'.auth = l.auth ∧ l'.key = l.key ∧
    ∀ p, l.settled = some p → l'.settled = some p := by
  obtain ⟨i, hi⟩ := List.mem_iff_getElem?.mp hl
  obtain ⟨l', hl', hauth, hkey, hsettled, -⟩ := h i l hi
  exact ⟨l', List.mem_of_getElem? hl', hauth, hkey, hsettled⟩

/-! ### What callers get -/

/-- A value is the result of a lookup, which keeps it under a key. -/
def Keeps (ls : List Lookup) (key : String) (value : Value) (time : Int) : Prop :=
  ∃ l ∈ ls, l.settled = some (.ok value, time) ∧ ∃ own, l.key = some own ∧ nextKey value own = key

/-- A caller takes part in a lookup of its key; without a key it is its own. -/
def Shares (l : Lookup) (auth : Value) : Prop :=
  cacheKey (auth.get "refresh") = .ok l.key ∧ (l.key = none → l.auth = auth)

def Fits (ls : List Lookup) (c : Caller) : Prop :=
  match c.got with
  | .unbound value => truthy (c.auth.index "access") = false ∧
    value = projectResult c.auth (.string "") none
  | .refused message => cacheKey (c.auth.get "refresh") = .error message
  | .cached value completed now => now - completed < cacheTtl ∧
    ∃ key, cacheKey (c.auth.get "refresh") = .ok (some key) ∧ Keeps ls key value completed
  | .waiting i | .cancelled i => ∃ l, ls[i]? = some l ∧ Shares l c.auth
  | .joined i result => ∃ l time, ls[i]? = some l ∧ Shares l c.auth ∧ l.phase = .sent result time

lemma Keeps.grows {key : String} {value : Value} {time : Int} (h : Keeps ls key value time)
    (hgrows : Grows ls ls') : Keeps ls' key value time := by
  obtain ⟨l, hl, hsettled, own, hkey, hnext⟩ := h
  obtain ⟨l', hl', -, hkey', hsettled'⟩ := hgrows.mem hl
  exact ⟨l', hl', hsettled' _ hsettled, own, hkey'.trans hkey, hnext⟩

lemma Shares.congr {l l' : Lookup} {auth : Value} (h : Shares l auth) (hauth : l'.auth = l.auth)
    (hkey : l'.key = l.key) : Shares l' auth := by
  rw [Shares, hauth, hkey]
  exact h

lemma Fits.grows {c : Caller} (h : Fits ls c) (hgrows : Grows ls ls') : Fits ls' c := by
  obtain ⟨auth, got⟩ := c
  cases got with
  | unbound | refused => exact h
  | cached value completed now =>
    obtain ⟨htime, key, hkey, hkeeps⟩ := h
    exact ⟨htime, key, hkey, hkeeps.grows hgrows⟩
  | waiting i | cancelled i =>
    obtain ⟨l, hl, hshares⟩ := h
    obtain ⟨l', hl', hauth, hkey, -⟩ := hgrows i l hl
    exact ⟨l', hl', hshares.congr hauth hkey⟩
  | joined i result =>
    obtain ⟨l, time, hl, hshares, hphase⟩ := h
    obtain ⟨l', hl', hauth, hkey, -, hsent⟩ := hgrows i l hl
    exact ⟨l', time, hl', hshares.congr hauth hkey, hsent result time hphase⟩

/-! ### What holds in every run -/

variable (F : Type) [Doubles F]

/-- A lookup was started with an access and under its key, and its result is one of its own. -/
def Started (l : Lookup) : Prop :=
  truthy (l.auth.index "access") = true ∧ cacheKey (l.auth.get "refresh") = .ok l.key ∧
    ∀ result, l.result = some result → ∃ failed replies, (resolve F failed replies l.auth).1 = result

structure Sound (s : Projects) : Prop where
  started : ∀ l ∈ s.lookups, Started F l
  origin : ∀ l ∈ s.lookups, ∃ c ∈ s.callers, c.auth = l.auth
  pending : ∀ key i, s.store.pending.get key = some i →
    ∃ l, s.lookups[i]? = some l ∧ l.key = some key ∧ l.settled = none
  flight : ∀ (i : Nat) (l : Lookup) (key : String), s.lookups[i]? = some l → l.key = some key →
    l.settled = none → s.store.pending.get key = some i
  cached : ∀ key value time, s.store.cached.get key = some (value, time) →
    Keeps s.lookups key value time
  callers : ∀ c ∈ s.callers, Fits s.lookups c

variable {F} {s : Projects} {auth : Value}

lemma sound_start (now : Int) : Sound F (Projects.start now) := by
  have hnone : ∀ {α : Type} (key : String) (a : α), (Table.empty : Table String α).get key ≠ some a :=
    fun key a h => absurd h (by simp [Table.get, Table.empty])
  exact ⟨fun l hl => absurd hl List.not_mem_nil, fun l hl => absurd hl List.not_mem_nil,
    fun key i h => absurd h (hnone key i), fun i l key hl => absurd hl (by simp [Projects.start]),
    fun key value time h => absurd h (hnone key (value, time)),
    fun c hc => absurd hc List.not_mem_nil⟩

lemma Sound.answer (h : Sound F s) {got : Got} (hfits : Fits s.lookups ⟨auth, got⟩) :
    Sound F (s.answer auth got) := by
  refine ⟨h.started, ?_, h.pending, h.flight, h.cached, ?_⟩
  · intro l hl
    obtain ⟨c, hc, hauth⟩ := h.origin l hl
    exact ⟨c, List.mem_append_left _ hc, hauth⟩
  · intro c hc
    rcases List.mem_append.mp hc with hc | hc
    · exact h.callers c hc
    · rw [List.mem_singleton.mp hc]
      exact hfits

/-- A lookup is started where none with its key is in flight. -/
lemma Sound.begin (h : Sound F s) {key : Option String} (haccess : truthy (auth.index "access") = true)
    (hkey : cacheKey (auth.get "refresh") = .ok key)
    (hfree : ∀ k, key = some k → s.store.pending.get k = none) : Sound F (s.begin auth key) := by
  have hlast : (s.lookups ++ [(⟨auth, key, .started⟩ : Lookup)])[s.lookups.length]? =
      some ⟨auth, key, .started⟩ := List.getElem?_concat_length
  have hold : ∀ (i : Nat) (l : Lookup), (s.lookups ++ [(⟨auth, key, .started⟩ : Lookup)])[i]? = some l →
      s.lookups[i]? = some l ∨ i = s.lookups.length ∧ l = ⟨auth, key, .started⟩ := by
    intro i l hl
    rcases Nat.lt_trichotomy i s.lookups.length with hlt | rfl | hgt
    · rw [List.getElem?_append_left hlt] at hl
      exact .inl hl
    · exact .inr ⟨rfl, (Option.some.inj (hlast.symm.trans hl)).symm⟩
    · have hbound := (List.getElem?_eq_some_iff.mp hl).1
      rw [List.length_append, List.length_singleton] at hbound
      omega
  have hgrows := grows_append s.lookups ⟨auth, key, .started⟩
  refine ⟨?_, ?_, ?_, ?_, ?_, ?_⟩
  · intro l hl
    rcases List.mem_append.mp hl with hl | hl
    · exact h.started l hl
    · rw [List.mem_singleton.mp hl]
      exact ⟨haccess, hkey, fun _ hnone => nomatch hnone⟩
  · intro l hl
    rcases List.mem_append.mp hl with hl | hl
    · obtain ⟨c, hc, hauth⟩ := h.origin l hl
      exact ⟨c, List.mem_append_left _ hc, hauth⟩
    · rw [List.mem_singleton.mp hl]
      exact ⟨_, List.mem_append_right _ (List.mem_singleton_self _), rfl⟩
  · intro k i hpending
    have hcases : (key = some k ∧ i = s.lookups.length) ∨ s.store.pending.get k = some i := by
      cases key with
      | none => exact .inr hpending
      | some own =>
        by_cases hk : k = own
        · subst hk
          rw [show (s.begin auth (some k)).store.pending = s.store.pending.put k s.lookups.length from rfl,
            Table.get_put_self] at hpending
          exact .inl ⟨rfl, (Option.some.inj hpending).symm⟩
        · rw [show (s.begin auth (some own)).store.pending = s.store.pending.put own s.lookups.length
            from rfl, Table.get_put_of_ne hk] at hpending
          exact .inr hpending
    rcases hcases with ⟨rfl, rfl⟩ | hpending
    · exact ⟨_, hlast, rfl, rfl⟩
    · obtain ⟨l, hl, hown, hsettled⟩ := h.pending k i hpending
      refine ⟨l, ?_, hown, hsettled⟩
      show (s.lookups ++ [_])[i]? = some l
      rw [List.getElem?_append_left (List.getElem?_eq_some_iff.mp hl).1]
      exact hl
  · intro i l k hl hown hsettled
    rcases hold i l hl with hl | ⟨rfl, rfl⟩
    · have hpending := h.flight i l k hl hown hsettled
      cases key with
      | none => exact hpending
      | some own =>
        have hne : k ≠ own := by
          rintro rfl
          rw [hfree k rfl] at hpending
          cases hpending
        exact (Table.get_put_of_ne hne s.store.pending s.lookups.length).trans hpending
    · obtain rfl : key = some k := hown
      exact Table.get_put_self s.store.pending k s.lookups.length
  · intro k value time hcached
    exact (h.cached k value time hcached).grows hgrows
  · intro c hc
    rcases List.mem_append.mp hc with hc | hc
    · exact (h.callers c hc).grows hgrows
    · rw [List.mem_singleton.mp hc]
      exact ⟨_, hlast, hkey, fun _ => rfl⟩

lemma Sound.join (h : Sound F s) {key : String} (haccess : truthy (auth.index "access") = true)
    (hkey : cacheKey (auth.get "refresh") = .ok (some key)) : Sound F (s.join auth key) := by
  rw [Projects.join]
  cases hpending : s.store.pending.get key with
  | some i =>
    obtain ⟨l, hl, hown, -⟩ := h.pending key i hpending
    apply h.answer
    exact ⟨l, hl, hown ▸ hkey, fun hnone => by rw [hown] at hnone; cases hnone⟩
  | none =>
    apply h.begin haccess hkey
    rintro k ⟨⟩
    exact hpending

/-- A store that forgets values is sound. -/
lemma Sound.forget (h : Sound F s) (key : String) :
    Sound F { s with store := { s.store with cached := s.store.cached.erase key } } :=
  ⟨h.started, h.origin, h.pending, h.flight, fun k value time hcached =>
    h.cached k value time (Table.get_of_get_erase hcached).2, h.callers⟩

lemma Sound.ensure (h : Sound F s) (auth : Value) : Sound F (s.ensure auth) := by
  rw [Projects.ensure]
  split
  · rename_i haccess
    apply h.answer
    exact ⟨by simpa using haccess, rfl⟩
  · rename_i haccess
    have haccess : truthy (auth.index "access") = true := by simpa using haccess
    split
    · rename_i message hkey
      exact h.answer hkey
    · rename_i hkey
      exact h.begin haccess hkey fun k hnone => nomatch hnone
    · rename_i key hkey
      split
      · rename_i value completed hcached
        split
        · rename_i htime
          exact h.answer ⟨htime, key, hkey, h.cached key value completed hcached⟩
        · exact (h.forget key).join haccess hkey
      · exact h.join haccess hkey

/-- The lookups after one of them went on. -/
lemma getElem?_set_cases {l' : Lookup} {j : Nat} (hl : ls[i]? = some l) (next : Phase)
    (hl' : (ls.set i { l with phase := next })[j]? = some l') :
    (j = i ∧ l' = { l with phase := next }) ∨ (j ≠ i ∧ ls[j]? = some l') := by
  rw [getElem?_setPhase hl] at hl'
  by_cases hj : j = i
  · rw [if_pos hj] at hl'
    exact .inl ⟨hj, (Option.some.inj hl').symm⟩
  · rw [if_neg hj] at hl'
    exact .inr ⟨hj, hl'⟩

/-- What every step of a lookup keeps. -/
lemma Sound.goesOn (h : Sound F s) (hl : s.lookups[i]? = some l) (next : Phase)
    (hresult : ∀ result, Lookup.result { l with phase := next } = some result →
      ∃ failed replies, (resolve F failed replies l.auth).1 = result) :
    (∀ l' ∈ s.lookups.set i { l with phase := next }, Started F l') ∧
      ∀ l' ∈ s.lookups.set i { l with phase := next }, ∃ c ∈ s.callers, c.auth = l'.auth := by
  have hmem := List.mem_of_getElem? hl
  constructor
  · intro l' hl'
    rcases List.mem_or_eq_of_mem_set hl' with hl' | rfl
    · exact h.started l' hl'
    · exact ⟨(h.started l hmem).1, (h.started l hmem).2.1, hresult⟩
  · intro l' hl'
    rcases List.mem_or_eq_of_mem_set hl' with hl' | rfl
    · exact h.origin l' hl'
    · exact h.origin l hmem

/-- A lookup that goes on without being completed. -/
lemma Sound.setPhase (h : Sound F s) (hl : s.lookups[i]? = some l) (next : Phase)
    (hresult : ∀ result, Lookup.result { l with phase := next } = some result →
      ∃ failed replies, (resolve F failed replies l.auth).1 = result)
    (hsettled : Lookup.settled { l with phase := next } = l.settled)
    (hsent : ∀ result time, l.phase ≠ .sent result time) (provisionFailed : List String) :
    Sound F ({ s with store := { s.store with provisionFailed } }.setPhase i l next) := by
  have hgrows : Grows s.lookups (s.lookups.set i { l with phase := next }) :=
    grows_set hl next (fun p hp => hsettled.trans hp) hsent
  obtain ⟨hstarted, horigin⟩ := h.goesOn hl next hresult
  refine ⟨hstarted, horigin, ?_, ?_, ?_, ?_⟩
  · intro key j hpending
    obtain ⟨l', hl', hkey, hnone⟩ := h.pending key j hpending
    by_cases hj : j = i
    · subst hj
      obtain rfl := Option.some.inj (hl.symm.trans hl')
      exact ⟨_, (getElem?_setPhase hl _ _).trans (if_pos rfl), hkey, hsettled.trans hnone⟩
    · exact ⟨l', (getElem?_setPhase hl _ _).trans ((if_neg hj).trans hl'), hkey, hnone⟩
  · intro j l' key hl' hkey hnone
    rcases getElem?_set_cases hl next hl' with ⟨rfl, rfl⟩ | ⟨-, hl'⟩
    · exact h.flight j l key hl hkey (hsettled.symm.trans hnone)
    · exact h.flight j l' key hl' hkey hnone
  · exact fun key value time hcached => (h.cached key value time hcached).grows hgrows
  · exact fun c hc => (h.callers c hc).grows hgrows

/-- A completed lookup is no longer pending, and its value is kept under the next key. -/
lemma Sound.complete (h : Sound F s) {key : Option String} {result : Except String Value}
    (hl : s.lookups[i]? = some ⟨auth, key, .resolved result⟩) :
    Sound F (s.step F (.complete i)) := by
  have hstep : s.step F (.complete i) =
      { s with
        store := Projects.settle s.store key result s.now
        lookups := s.lookups.set i ⟨auth, key, .completed result s.now⟩ } := by
    simp only [Projects.step, hl]
    rfl
  have hset : ∀ j l', (s.lookups.set i ⟨auth, key, .completed result s.now⟩)[j]? = some l' →
      (j = i ∧ l' = ⟨auth, key, .completed result s.now⟩) ∨ (j ≠ i ∧ s.lookups[j]? = some l') :=
    fun j l' hl' => getElem?_set_cases hl (.completed result s.now) hl'
  have hother : ∀ j l', j ≠ i → s.lookups[j]? = some l' →
      (s.lookups.set i ⟨auth, key, .completed result s.now⟩)[j]? = some l' :=
    fun j l' hj hl' => (getElem?_setPhase hl _ _).trans ((if_neg hj).trans hl')
  have hgrows : Grows s.lookups (s.lookups.set i ⟨auth, key, .completed result s.now⟩) :=
    grows_set hl (.completed result s.now) (fun p hp => nomatch hp)
      (fun result time hphase => nomatch hphase)
  obtain ⟨hstarted, horigin⟩ := h.goesOn hl (.completed result s.now)
    (h.started _ (List.mem_of_getElem? hl)).2.2
  have hnew : (⟨auth, key, .completed result s.now⟩ : Lookup) ∈
      s.lookups.set i ⟨auth, key, .completed result s.now⟩ :=
    List.mem_of_getElem? ((getElem?_setPhase hl _ i).trans (if_pos rfl))
  rw [hstep]
  refine ⟨hstarted, horigin, ?_, ?_, ?_, fun c hc => (h.callers c hc).grows hgrows⟩
  · intro k j hpending
    have hold : s.store.pending.get k = some j ∧ key ≠ some k := by
      cases key with
      | none =>
        exact ⟨hpending, fun hnone => nomatch hnone⟩
      | some own =>
        have herase : (s.store.pending.erase own).get k = some j := by
          cases result <;> exact hpending
        obtain ⟨hne, hget⟩ := Table.get_of_get_erase herase
        exact ⟨hget, fun heq => hne (Option.some.inj heq).symm⟩
    obtain ⟨l', hl', hkey, hnone⟩ := h.pending k j hold.1
    refine ⟨l', hother j l' ?_ hl', hkey, hnone⟩
    rintro rfl
    obtain rfl := Option.some.inj (hl.symm.trans hl')
    exact hold.2 hkey
  · intro j l' k hl' hkey hnone
    rcases hset j l' hl' with ⟨rfl, rfl⟩ | ⟨hj, hl'⟩
    · cases hnone
    · have hpending := h.flight j l' k hl' hkey hnone
      cases key with
      | none => exact hpending
      | some own =>
        have hne : k ≠ own := by
          rintro rfl
          have hown := h.flight i _ k hl rfl rfl
          exact hj (Option.some.inj (hpending.symm.trans hown))
        have herase : (s.store.pending.erase own).get k = some j :=
          (Table.get_erase_of_ne hne _).trans hpending
        cases result <;> exact herase
  · intro k value time hcached
    have hkeep := fun hold => (h.cached k value time hold).grows hgrows
    cases key with
    | none => exact hkeep hcached
    | some own =>
      cases result with
      | error message => exact hkeep hcached
      | ok value' =>
        have hput : (s.store.cached.put (nextKey value' own) (value', s.now)).get k =
            some (value, time) := by
          simp only [Projects.settle] at hcached
          split at hcached
          · exact (Table.get_of_get_erase hcached).2
          · exact hcached
        by_cases hk : k = nextKey value' own
        · subst hk
          rw [Table.get_put_self] at hput
          obtain ⟨rfl, rfl⟩ := Prod.mk.inj (Option.some.inj hput)
          exact ⟨_, hnew, rfl, own, rfl, rfl⟩
        · rw [Table.get_put_of_ne hk] at hput
          exact hkeep hput

lemma Sound.setCaller (h : Sound F s) {c : Nat} {old got : Got} (hc : s.callers[c]? = some ⟨auth, old⟩)
    (hfits : Fits s.lookups ⟨auth, got⟩) :
    Sound F { s with callers := s.callers.set c ⟨auth, got⟩ } := by
  refine ⟨h.started, ?_, h.pending, h.flight, h.cached, ?_⟩
  · intro l hl
    obtain ⟨caller, hcaller, hauth⟩ := h.origin l hl
    obtain ⟨j, hj⟩ := List.mem_iff_getElem?.mp hcaller
    by_cases hjc : c = j
    · subst hjc
      obtain rfl := Option.some.inj (hc.symm.trans hj)
      refine ⟨⟨auth, got⟩, List.mem_of_getElem? (i := c) ?_, hauth⟩
      rw [List.getElem?_set_self (List.getElem?_eq_some_iff.mp hc).1]
    · refine ⟨caller, List.mem_of_getElem? (i := j) ?_, hauth⟩
      rw [List.getElem?_set_ne hjc, hj]
  · intro caller hcaller
    rcases List.mem_or_eq_of_mem_set hcaller with hcaller | rfl
    · exact h.callers caller hcaller
    · exact hfits

lemma Sound.step (h : Sound F s) (op : Projects.Op) : Sound F (s.step F op) := by
  cases op with
  | ensure auth => exact h.ensure auth
  | consult i =>
    rw [Projects.step]
    split
    · rename_i auth key hl
      exact h.setPhase hl (.consulted _) (fun _ hnone => nomatch hnone) rfl
        (fun _ _ hphase => nomatch hphase) s.store.provisionFailed
    · exact h
  | reply i replies =>
    rw [Projects.step]
    split
    · rename_i auth key failed hl
      refine h.setPhase hl (.resolved _) ?_ rfl (fun _ _ hphase => nomatch hphase) _
      rintro result ⟨⟩
      exact ⟨failed, replies, rfl⟩
    · exact h
  | complete i =>
    cases hl : s.lookups[i]? with
    | none =>
      simp only [Projects.step, hl]
      exact h
    | some l =>
      obtain ⟨auth, key, phase⟩ := l
      cases phase with
      | resolved result => exact h.complete hl
      | started | consulted | completed | sent =>
        simp only [Projects.step, hl]
        exact h
  | send i =>
    rw [Projects.step]
    split
    · rename_i auth key result time hl
      refine h.setPhase hl (.sent result time) ?_ rfl (fun _ _ hphase => nomatch hphase)
        s.store.provisionFailed
      exact (h.started _ (List.mem_of_getElem? hl)).2.2
    · exact h
  | receive c =>
    rw [Projects.step]
    split
    · rename_i auth i hc
      split
      · rename_i auth' key result time hl
        obtain ⟨l, hl', hshares⟩ := h.callers _ (List.mem_of_getElem? hc)
        obtain rfl := Option.some.inj (hl.symm.trans hl')
        exact h.setCaller hc ⟨_, time, hl, hshares, rfl⟩
      · exact h
    · exact h
  | cancel c =>
    rw [Projects.step]
    split
    · rename_i auth i hc
      have hfits := h.callers _ (List.mem_of_getElem? hc)
      exact h.setCaller hc hfits
    · exact h
  | tick now => exact ⟨h.started, h.origin, h.pending, h.flight, h.cached, h.callers⟩

/-! ### Shared lookups -/

/-- What a caller got from a lookup. -/
def Caller.value (c : Caller) : Option Value :=
  match c.got with
  | .cached value _ _ | .joined _ (.ok value) => some value
  | _ => none

variable (F) in
/-- A project that could be resolved for a refresh value. -/
def Offers (refresh : Option Value) (project : Value) : Prop :=
  ∃ auth failed replies value, auth.get "refresh" = refresh ∧
    (resolve F failed replies auth).1 = .ok value ∧ value.index "effectiveProjectId" = project

/-- Nobody who looks up a project under the key of a caller has another refresh value. -/
def Alone (callers : List Caller) (c : Caller) : Prop :=
  cacheKey (c.auth.get "refresh") = .ok none ∨
    ∃ text, c.auth.get "refresh" = some (.string text) ∧ HasToken text ∧
      ∀ c' ∈ callers, truthy (c'.auth.index "access") = true →
        cacheKey (c'.auth.get "refresh") = cacheKey (c.auth.get "refresh") →
        c'.auth.get "refresh" = c.auth.get "refresh"

/-- A caller that looked up a project for another one has its key, and is alike where there is none;
refresh values without a token aside. -/
def Stands (c' c : Caller) : Prop :=
  truthy (c'.auth.index "access") = true ∧
    (cacheKey (c.auth.get "refresh") = .ok none → c'.auth = c.auth) ∧
    ∀ text, c.auth.get "refresh" = some (.string text) → HasToken text →
      cacheKey (c'.auth.get "refresh") = cacheKey (c.auth.get "refresh")

variable (F) in
structure Shared (s : Projects) : Prop where
  single : ∀ (i j : Nat) (l l' : Lookup) (key : String), s.lookups[i]? = some l →
    s.lookups[j]? = some l' → l.key = some key → l'.key = some key →
    l.settled = none → l'.settled = none → i = j
  pending : ∀ (key : String) (i : Nat), s.store.pending.get key = some i →
    ∃ l, s.lookups[i]? = some l ∧ l.settled = none
  joined : ∀ c ∈ s.callers, ∀ i result, c.got = .joined i result →
    ∃ l time, s.lookups[i]? = some l ∧ Shares l c.auth ∧ l.phase = .sent result time
  delivered : ∀ (n : Nat) (c : Caller) (i : Nat) (l : Lookup) (result : Except String Value) (time : Int),
    s.callers[n]? = some c → c.got = .waiting i → s.lookups[i]? = some l → l.phase = .sent result time →
    (s.step F (.receive n)).callers[n]? = some ⟨c.auth, .joined i result⟩
  cached : ∀ key value time, s.store.cached.get key = some (value, time) →
    ∃ l ∈ s.lookups, l.settled = some (.ok value, time)
  fresh : ∀ c ∈ s.callers, ∀ value completed now, c.got = .cached value completed now →
    now - completed < cacheTtl ∧ ∃ l ∈ s.lookups, l.settled = some (.ok value, completed)
  offered : ∀ c ∈ s.callers, ∀ value, c.value = some value → ∃ c' ∈ s.callers, Stands c' c ∧
    Offers F (c'.auth.get "refresh") (value.index "effectiveProjectId") ∧
    ∀ managed, managedProject c'.auth = some managed →
      value.index "effectiveProjectId" = .string managed
  own : ∀ c ∈ s.callers, ∀ value, c.value = some value → Alone s.callers c →
    Offers F (c.auth.get "refresh") (value.index "effectiveProjectId") ∧
    ∀ managed, managedProject c.auth = some managed →
      value.index "effectiveProjectId" = .string managed

lemma isObject_of_access (h : truthy (auth.index "access") = true) : auth.isObject = true := by
  cases auth with
  | object fields => rfl
  | null | bool | number | string | array => cases h

/-- Where a value that a caller got comes from. -/
lemma Sound.source (h : Sound F s) {c : Caller} {value : Value} (hc : c ∈ s.callers)
    (hvalue : c.value = some value) : ∃ l ∈ s.lookups, l.result = some (.ok value) ∧
      (Shares l c.auth ∨ ∃ own key, l.key = some own ∧ nextKey value own = key ∧
        cacheKey (c.auth.get "refresh") = .ok (some key)) := by
  have hfits := h.callers c hc
  obtain ⟨auth, got⟩ := c
  cases got with
  | cached value' completed now =>
    obtain rfl := Option.some.inj hvalue
    obtain ⟨-, key, hkey, l, hl, hsettled, own, hown, hnext⟩ := hfits
    refine ⟨l, hl, ?_, .inr ⟨own, key, hown, hnext, hkey⟩⟩
    obtain ⟨auth', key', phase⟩ := l
    cases phase <;> first | cases hsettled; rfl | cases hsettled
  | joined i result =>
    cases result with
    | error message => cases hvalue
    | ok value' =>
      obtain rfl := Option.some.inj hvalue
      obtain ⟨l, time, hl, hshares, hphase⟩ := hfits
      exact ⟨l, List.mem_of_getElem? hl, by rw [Lookup.result, hphase], .inl hshares⟩
  | unbound | refused | waiting | cancelled => cases hvalue

lemma Started.offers {value : Value} (h : Started F l) (hresult : l.result = some (.ok value)) :
    Offers F (l.auth.get "refresh") (value.index "effectiveProjectId") ∧
      ∀ managed, managedProject l.auth = some managed →
        value.index "effectiveProjectId" = .string managed := by
  obtain ⟨failed, replies, hresolve⟩ := h.2.2 _ hresult
  exact ⟨⟨l.auth, failed, replies, value, rfl, hresolve, rfl⟩,
    fun managed hmanaged => resolve_managed F hresolve hmanaged⟩

lemma managedProject_congr {auth' : Value} (h : auth'.get "refresh" = auth.get "refresh") :
    managedProject auth' = managedProject auth := by
  rw [managedProject, refreshText, h, managedProject, refreshText]

lemma Sound.stands (h : Sound F s) {c : Caller} {value : Value} (hl : l ∈ s.lookups)
    (hresult : l.result = some (.ok value)) (hfrom : Shares l c.auth ∨ ∃ own key, l.key = some own ∧
      nextKey value own = key ∧ cacheKey (c.auth.get "refresh") = .ok (some key))
    {c' : Caller} (hauth : c'.auth = l.auth) : Stands c' c := by
  have hstarted := h.started l hl
  obtain ⟨failed, replies, hresolve⟩ := hstarted.2.2 _ hresult
  rw [Stands, hauth]
  refine ⟨hstarted.1, ?_, ?_⟩
  · intro hnone
    rcases hfrom with ⟨hkey, hsame⟩ | ⟨own, key, -, -, hkey⟩
    · rw [hnone] at hkey
      exact hsame (Except.ok.inj hkey).symm
    · rw [hnone] at hkey
      cases hkey
  · intro text htext htoken
    rcases hfrom with ⟨hkey, -⟩ | ⟨own, key, hown, hnext, hkey⟩
    · rw [hstarted.2.1, hkey]
    · rw [hkey, hstarted.2.1, hown]
      rw [htext, htoken.cacheKey] at hkey
      have hplain := bar_not_mem_trim (bar_not_mem_token text)
      obtain rfl := Option.some.inj (Except.ok.inj hkey)
      rcases nextKey_cases F (isObject_of_access hstarted.1) (hown ▸ hstarted.2.1) hresolve with
        hsame | hbar
      · rw [← hnext, hsame]
      · rw [hnext] at hbar
        exact absurd hbar hplain

lemma Sound.shared (h : Sound F s) : Shared F s := by
  refine ⟨?_, ?_, ?_, ?_, ?_, ?_, ?_, ?_⟩
  · intro i j l l' key hl hl' hkey hkey' hnone hnone'
    have hi := h.flight i l key hl hkey hnone
    have hj := h.flight j l' key hl' hkey' hnone'
    exact Option.some.inj (hi.symm.trans hj)
  · intro key i hpending
    obtain ⟨l, hl, -, hnone⟩ := h.pending key i hpending
    exact ⟨l, hl, hnone⟩
  · intro c hc i result hgot
    have hfits := h.callers c hc
    rw [Fits, hgot] at hfits
    exact hfits
  · intro n c i l result time hc hgot hl hphase
    obtain ⟨auth, got⟩ := c
    obtain ⟨auth', key, phase⟩ := l
    obtain rfl : got = .waiting i := hgot
    obtain rfl : phase = .sent result time := hphase
    simp only [Projects.step, hc, hl]
    rw [List.getElem?_set_self (List.getElem?_eq_some_iff.mp hc).1]
  · intro key value time hcached
    obtain ⟨l, hl, hsettled, -⟩ := h.cached key value time hcached
    exact ⟨l, hl, hsettled⟩
  · intro c hc value completed now hgot
    have hfits := h.callers c hc
    rw [Fits, hgot] at hfits
    obtain ⟨htime, key, -, l, hl, hsettled, -⟩ := hfits
    exact ⟨htime, l, hl, hsettled⟩
  · intro c hc value hvalue
    obtain ⟨l, hl, hresult, hfrom⟩ := h.source hc hvalue
    obtain ⟨c', hc', hauth⟩ := h.origin l hl
    have hoffers := (h.started l hl).offers hresult
    rw [← hauth] at hoffers
    exact ⟨c', hc', h.stands hl hresult hfrom hauth, hoffers⟩
  · intro c hc value hvalue halone
    obtain ⟨l, hl, hresult, hfrom⟩ := h.source hc hvalue
    obtain ⟨c', hc', hauth⟩ := h.origin l hl
    have hoffers := (h.started l hl).offers hresult
    have hstands := h.stands hl hresult hfrom hauth
    have hsame : c'.auth.get "refresh" = c.auth.get "refresh" := by
      rcases halone with hnone | ⟨text, htext, htoken, hall⟩
      · rw [hstands.2.1 hnone]
      · exact hall c' hc' hstands.1 (hstands.2.2 text htext htoken)
    rw [← hauth, managedProject_congr hsame, hsame] at hoffers
    exact hoffers

variable (F) in
/-- In every run callers share the lookups of a key, one at a time, and what they get is the result
of one. Whose refresh value it is looked up for, the key does not tell. -/
theorem lookups_shared (now : Int) (ops : List Projects.Op) :
    Shared F (Run.after (Projects.step F) (Projects.start now) ops) :=
  (Run.invariant (fun _ op h => h.step op) (sound_start now) ops : Sound F _).shared

def tokenAuth : Value := .object [("access", .string "a"), ("refresh", .string "tok")]

def managedAuth : Value := .object [("access", .string "b"), ("refresh", .string "tok||mine")]

/-- A caller that names its managed project gets the one that another caller with its token got. -/
theorem managed_project_missed :
    (∃ value completed now, (Run.after (Projects.step Int) (Projects.start 0)
        [.ensure tokenAuth, .consult 0, .reply 0 ⟨[], fun _ _ => [], .null⟩, .complete 0,
          .ensure managedAuth]).callers[1]? = some ⟨managedAuth, .cached value completed now⟩ ∧
      value.index "effectiveProjectId" = .string "rising-fact-p41fc") ∧
    ∀ failed replies value, (resolve Int failed replies managedAuth).1 = .ok value →
      value.index "effectiveProjectId" = .string "mine" := by
  refine ⟨⟨_, _, _, rfl, rfl⟩, ?_⟩
  intro failed replies value h
  exact resolve_managed Int h (by decide +kernel)

end Antigravity
