import RpiPackage.Lib.Assoc

/-!
# Resource subscriptions and pushed updates

The subscriptions of the connections, each with the identity of its lifetime, and the reads that
wait to be delivered. Every operation here is one section under the lock of the subscriptions or
under that of the waiting reads.
-/

namespace Mcp

inductive Identity where
  | legacy (identity : String)
  | configuredStdio
  | configuredHttp
  deriving DecidableEq, Repr

/-- The key of a connection, which the source keeps as the JSON text of these three. -/
structure Key where
  scope : String
  identity : Identity
  name : String
  deriving DecidableEq, Repr

structure ResourceUpdate where
  scope : String
  key : Key
  uri : String
  text : String
  deriving DecidableEq, Repr

/-- A read that waits; its subscription is the identity of a lifetime. -/
structure QueuedResourceUpdate where
  update : ResourceUpdate
  subscription : Nat
  revision : UInt64
  deriving DecidableEq, Repr

def maxPending : Nat := 64

/-- A resource of a connection. -/
structure Mark where
  key : Key
  uri : String
  deriving DecidableEq, Repr

/-- A map of maps, kept as one map; an inner map without entries is no entry. -/
abbrev Subscriptions : Type := List (Mark × Nat)

structure Store where
  subscriptions : Subscriptions
  pending : List QueuedResourceUpdate
  -- the counter that each lifetime holds
  revisions : Nat → UInt64
  nextSubscription : Nat
  -- every read that has been enqueued, which no section looks at
  reads : List QueuedResourceUpdate

namespace Store

def default : Store := ⟨[], [], fun _ => 0, 0, []⟩

def subscription (s : Store) (key : Key) (uri : String) : Option Nat :=
  s.subscriptions.lookup ⟨key, uri⟩

def clearPendingForUri (key : Key) (uri : String) (s : Store) : Store :=
  { s with pending := s.pending.filter fun q => !(q.update.key == key && q.update.uri == uri) }

def clearPendingForKey (key : Key) (s : Store) : Store :=
  { s with pending := s.pending.filter fun q => q.update.key != key }

/-- A subscription that is there already starts a new lifetime. -/
def addSubscription (key : Key) (uri : String) (s : Store) : Nat × Store :=
  (s.nextSubscription, clearPendingForUri key uri { s with
    subscriptions := Assoc.insert s.subscriptions ⟨key, uri⟩ s.nextSubscription
    nextSubscription := s.nextSubscription + 1 })

def removeSubscription (key : Key) (uri : String) (expected : Option Nat) (s : Store) : Store :=
  if expected.isSome && s.subscription key uri != expected then s
  else clearPendingForUri key uri
    { s with subscriptions := Assoc.erase s.subscriptions ⟨key, uri⟩ }

def clearSubscriptions (key : Key) (s : Store) : Store :=
  clearPendingForKey key
    { s with subscriptions := s.subscriptions.filter fun p => p.1.key != key }

/-- Whether a restoration renews a subscription: one that the call is about is left to it. -/
def renews (key : Key) (skipUri : Option String) (mark : Mark) : Bool :=
  mark.key == key && skipUri != some mark.uri

def renewAll (key : Key) (skipUri : Option String) : Nat → Subscriptions → Subscriptions
  | _, [] => []
  | next, (mark, token) :: rest =>
    (mark, if renews key skipUri mark then next else token) :: renewAll key skipUri (next + 1) rest

/-- The first section of `restore_subscriptions`: new lifetimes, and nothing of the old ones. -/
def renewSubscriptions (key : Key) (skipUri : Option String) (s : Store) : List Nat × Store :=
  let renewed := renewAll key skipUri s.nextSubscription s.subscriptions
  ((renewed.filter fun p => renews key skipUri p.1).map Prod.snd, clearPendingForKey key { s with
    subscriptions := renewed
    nextSubscription := s.nextSubscription + s.subscriptions.length })

/-- The last section of a dispatched notification. -/
def enqueue (key : Key) (uri : String) (token : Nat) (text : String) (s : Store) : Store :=
  if s.subscription key uri != some token then s
  else if s.pending.length < maxPending then
    let read := ⟨⟨key.scope, key, uri, text⟩, token, s.revisions token + 1⟩
    { s with
      pending := s.pending ++ [read]
      revisions := fun t => if t = token then s.revisions token + 1 else s.revisions t
      reads := s.reads ++ [read] }
  else s

/-- A read is handed back only while it is the newest one of the lifetime that is registered. -/
def retries (s : Store) (q : QueuedResourceUpdate) : Bool :=
  s.subscription q.update.key q.update.uri == some q.subscription &&
    s.revisions q.subscription == q.revision

def retryLoop (s : Store) : List QueuedResourceUpdate → List QueuedResourceUpdate →
    List QueuedResourceUpdate
  | [], retry => retry
  | q :: updates, retry =>
    if maxPending ≤ s.pending.length + retry.length then retry
    else if s.retries q then retryLoop s updates (retry ++ [q])
    else retryLoop s updates retry

def restorePendingBatch (updates : List QueuedResourceUpdate) (s : Store) : Store :=
  { s with pending := retryLoop s updates [] ++ s.pending }

def takePendingBatch (scope : Option String) (s : Store) : List QueuedResourceUpdate × Store :=
  (match scope with
    | some scope => s.pending.filter fun q => q.update.scope == scope
    | none => s.pending, { s with pending := [] })

/-! ### What the sections keep -/

/-- A read belongs to the lifetime that is registered for its key and its resource. -/
def IsCurrent (s : Store) (q : QueuedResourceUpdate) : Prop :=
  s.subscription q.update.key q.update.uri = some q.subscription

/-- The reads of a lifetime. -/
def countOf (token : Nat) (reads : List QueuedResourceUpdate) : Nat :=
  reads.countP fun q => q.subscription == token

/-- No read of its lifetime has been enqueued after this one. -/
def Newest (s : Store) (q : QueuedResourceUpdate) : Prop :=
  ∃ before later, s.reads = before ++ q :: later ∧ ∀ r ∈ later, r.subscription ≠ q.subscription

/-- What holds between any two sections. -/
structure Sound (s : Store) : Prop where
  current : ∀ q ∈ s.pending, s.IsCurrent q
  bounded : s.pending.length ≤ maxPending
  issued : ∀ key uri token, s.subscription key uri = some token → token < s.nextSubscription
  enqueued : ∀ q ∈ s.pending, q ∈ s.reads
  counted : ∀ token, s.revisions token = UInt64.ofNat (countOf token s.reads)
  numbered : ∀ before q later, s.reads = before ++ q :: later →
    q.revision = UInt64.ofNat (countOf q.subscription before + 1)

/-- Subscriptions keep their lifetime, are lost, or begin a new one. -/
structure Grows (s s' : Store) : Prop where
  kept : ∀ key uri token, s'.subscription key uri = some token →
    s.subscription key uri = some token ∨ s.nextSubscription ≤ token
  next : s.nextSubscription ≤ s'.nextSubscription
  reads : s.reads ⊆ s'.reads

variable {s s' : Store} {key k : Key} {uri u : String} {token : Nat} {q : QueuedResourceUpdate}

lemma Grows.refl (s : Store) : Grows s s :=
  ⟨fun _ _ _ h => .inl h, Nat.le_refl _, List.Subset.refl _⟩

lemma Grows.trans {s'' : Store} (h : Grows s s') (h' : Grows s' s'') : Grows s s'' := by
  refine ⟨?_, Nat.le_trans h.next h'.next, List.Subset.trans h.reads h'.reads⟩
  intro key uri token hsub
  rcases h'.kept key uri token hsub with hsub | hnew
  · exact h.kept key uri token hsub
  · exact .inr (Nat.le_trans h.next hnew)

/-- Once a lifetime has ended it is never registered again. -/
lemma Grows.ended (h : Grows s s') (htoken : token < s.nextSubscription)
    (hended : s.subscription k u ≠ some token) : s'.subscription k u ≠ some token := by
  intro hsub
  rcases h.kept k u token hsub with hsub | hnew
  · exact hended hsub
  · omega

lemma sound_default : default.Sound := by
  refine ⟨?_, Nat.zero_le _, ?_, ?_, fun _ => rfl, ?_⟩
  · intro q hq
    exact absurd hq List.not_mem_nil
  · intro key uri token h
    exact absurd h (by simp [subscription, default])
  · intro q hq
    exact absurd hq List.not_mem_nil
  · intro before q later h
    exact absurd h (by simp [default])

/-- Reads are dropped of everything that has changed. -/
lemma Sound.of_filter (h : s.Sound) {p : QueuedResourceUpdate → Bool}
    (hpending : s'.pending = s.pending.filter p)
    (hcurrent : ∀ q ∈ s.pending, p q = true →
      s'.subscription q.update.key q.update.uri = s.subscription q.update.key q.update.uri)
    (hissued : ∀ key uri token, s'.subscription key uri = some token → token < s'.nextSubscription)
    (hreads : s'.reads = s.reads) (hrevisions : s'.revisions = s.revisions) : s'.Sound := by
  refine ⟨?_, ?_, hissued, ?_, ?_, ?_⟩
  · intro q hq
    rw [hpending] at hq
    obtain ⟨hmem, hp⟩ := List.mem_filter.mp hq
    exact (hcurrent q hmem hp).trans (h.current q hmem)
  · rw [hpending]
    exact Nat.le_trans (List.length_filter_le _ _) h.bounded
  · intro q hq
    rw [hpending] at hq
    rw [hreads]
    exact h.enqueued q (List.mem_filter.mp hq).1
  · rw [hreads, hrevisions]
    exact h.counted
  · rw [hreads]
    exact h.numbered

@[simp] lemma subscription_clearPendingForUri :
    (clearPendingForUri key uri s).subscription k u = s.subscription k u := rfl

@[simp] lemma subscription_clearPendingForKey :
    (clearPendingForKey key s).subscription k u = s.subscription k u := rfl

lemma subscription_addSubscription :
    (addSubscription key uri s).2.subscription k u =
      if (⟨k, u⟩ : Mark) = ⟨key, uri⟩ then some s.nextSubscription else s.subscription k u := by
  by_cases heq : (⟨k, u⟩ : Mark) = ⟨key, uri⟩
  · rw [if_pos heq]
    show (Assoc.insert s.subscriptions ⟨key, uri⟩ s.nextSubscription).lookup ⟨k, u⟩ = _
    rw [heq, Assoc.lookup_insert_self]
  · rw [if_neg heq]
    show (Assoc.insert s.subscriptions ⟨key, uri⟩ s.nextSubscription).lookup ⟨k, u⟩ = _
    rw [Assoc.lookup_insert_of_ne heq]
    rfl

lemma Sound.addSubscription (h : s.Sound) (key : Key) (uri : String) :
    (addSubscription key uri s).2.Sound := by
  refine h.of_filter rfl ?_ ?_ rfl rfl
  · intro q _ hother
    rw [subscription_addSubscription, if_neg]
    intro heq
    obtain ⟨hkey, huri⟩ := Mark.mk.inj heq
    simp [hkey, huri] at hother
  · intro k u token hsub
    show token < s.nextSubscription + 1
    rw [subscription_addSubscription] at hsub
    split at hsub
    · obtain rfl := Option.some.inj hsub
      exact Nat.lt_succ_self _
    · exact Nat.lt_succ_of_lt (h.issued k u token hsub)

lemma grows_addSubscription (key : Key) (uri : String) (s : Store) :
    Grows s (addSubscription key uri s).2 := by
  refine ⟨?_, Nat.le_succ _, List.Subset.refl _⟩
  intro k u token hsub
  rw [subscription_addSubscription] at hsub
  split at hsub
  · exact .inr (Nat.le_of_eq (Option.some.inj hsub))
  · exact .inl hsub

/-- A removal loses one subscription, if it is the expected one. -/
lemma subscription_removeSubscription {expected : Option Nat} :
    (removeSubscription key uri expected s).subscription k u =
      if (⟨k, u⟩ : Mark) = ⟨key, uri⟩ ∧ (expected = none ∨ s.subscription key uri = expected) then none
      else s.subscription k u := by
  unfold removeSubscription
  by_cases hstale : (expected.isSome && s.subscription key uri != expected) = true
  · rw [if_pos hstale, if_neg]
    rintro ⟨-, hnone | heq⟩
    · simp [hnone] at hstale
    · simp [heq] at hstale
  · rw [if_neg hstale, subscription_clearPendingForUri]
    have hexpected : expected = none ∨ s.subscription key uri = expected := by
      cases expected with
      | none => exact .inl rfl
      | some token => exact .inr (by simpa using hstale)
    show (Assoc.erase s.subscriptions ⟨key, uri⟩).lookup ⟨k, u⟩ = _
    by_cases heq : (⟨k, u⟩ : Mark) = ⟨key, uri⟩
    · rw [if_pos ⟨heq, hexpected⟩, heq, Assoc.lookup_erase_self]
    · rw [if_neg fun h => heq h.1, Assoc.lookup_erase_of_ne heq]
      rfl

lemma Sound.removeSubscription (h : s.Sound) (key : Key) (uri : String) (expected : Option Nat) :
    (removeSubscription key uri expected s).Sound := by
  by_cases hstale : (expected.isSome && s.subscription key uri != expected) = true
  · rw [Store.removeSubscription, if_pos hstale]
    exact h
  · have hsubs : ∀ k u, (⟨k, u⟩ : Mark) ≠ ⟨key, uri⟩ →
        (Store.removeSubscription key uri expected s).subscription k u = s.subscription k u := by
      intro k u hne
      rw [subscription_removeSubscription, if_neg fun h => hne h.1]
    have hissued : ∀ k u token,
        (Store.removeSubscription key uri expected s).subscription k u = some token →
          token < s.nextSubscription := by
      intro k u token hsub
      rw [subscription_removeSubscription] at hsub
      split at hsub
      · exact absurd hsub (by simp)
      · exact h.issued k u token hsub
    rw [Store.removeSubscription, if_neg hstale] at hsubs hissued ⊢
    refine h.of_filter rfl ?_ hissued rfl rfl
    intro q _ hother
    refine hsubs _ _ ?_
    intro heq
    obtain ⟨hkey, huri⟩ := Mark.mk.inj heq
    simp [hkey, huri] at hother

lemma grows_removeSubscription (key : Key) (uri : String) (expected : Option Nat) (s : Store) :
    Grows s (removeSubscription key uri expected s) := by
  have hsame : (removeSubscription key uri expected s).nextSubscription = s.nextSubscription ∧
      (removeSubscription key uri expected s).reads = s.reads := by
    unfold removeSubscription
    split <;> exact ⟨rfl, rfl⟩
  refine ⟨?_, Nat.le_of_eq hsame.1.symm, hsame.2.symm ▸ List.Subset.refl _⟩
  intro k u token hsub
  rw [subscription_removeSubscription] at hsub
  split at hsub
  · exact absurd hsub (by simp)
  · exact .inl hsub

lemma subscription_clearSubscriptions :
    (clearSubscriptions key s).subscription k u = if k = key then none else s.subscription k u := by
  show (s.subscriptions.filter fun p => p.1.key != key).lookup ⟨k, u⟩ = _
  rw [subscription]
  induction s.subscriptions with
  | nil => simp
  | cons p rest ih =>
    by_cases hp : p.1.key = key
    · rw [List.filter_cons_of_neg (by simpa using hp), ih]
      split
      · rfl
      · rename_i hne
        rw [List.lookup_cons, beq_false_of_ne]
        intro heq
        rw [← heq] at hp
        exact hne hp
    · rw [List.filter_cons_of_pos (by simpa using hp), List.lookup_cons, List.lookup_cons, ih]
      by_cases hmark : ((⟨k, u⟩ : Mark) == p.1) = true
      · have hk : k ≠ key := by
          rw [← eq_of_beq hmark] at hp
          exact hp
        rw [hmark, if_neg hk]
        simp [hk]
      · rw [Bool.eq_false_iff.mpr hmark]

lemma Sound.clearSubscriptions (h : s.Sound) (key : Key) : (clearSubscriptions key s).Sound := by
  refine h.of_filter rfl ?_ ?_ rfl rfl
  · intro q _ hother
    rw [subscription_clearSubscriptions, if_neg (bne_iff_ne.mp hother)]
  · intro k u token hsub
    rw [subscription_clearSubscriptions] at hsub
    split at hsub
    · exact absurd hsub (by simp)
    · exact h.issued k u token hsub

lemma grows_clearSubscriptions (key : Key) (s : Store) : Grows s (clearSubscriptions key s) := by
  refine ⟨?_, Nat.le_refl _, List.Subset.refl _⟩
  intro k u token hsub
  rw [subscription_clearSubscriptions] at hsub
  split at hsub
  · exact absurd hsub (by simp)
  · exact .inl hsub

/-- A renewal gives each subscription of the connection a new lifetime, and loses none. -/
lemma lookup_renewAll {skipUri : Option String} {next : Nat} {subs : Subscriptions}
    {mark : Mark} :
    (renews key skipUri mark = false ∧
      (renewAll key skipUri next subs).lookup mark = subs.lookup mark) ∨
    (renews key skipUri mark = true ∧
      ((renewAll key skipUri next subs).lookup mark = none ∧ subs.lookup mark = none ∨
        ∃ token, (renewAll key skipUri next subs).lookup mark = some token ∧
          (subs.lookup mark).isSome = true ∧ next ≤ token ∧ token < next + subs.length)) := by
  cases hrenews : renews key skipUri mark with
  | false =>
    refine .inl ⟨rfl, ?_⟩
    induction subs generalizing next with
    | nil => rfl
    | cons p rest ih =>
      rw [renewAll, List.lookup_cons, List.lookup_cons, ih]
      by_cases hmark : (mark == p.1) = true
      · rw [hmark]
        rw [eq_of_beq hmark] at hrenews
        simp [hrenews]
      · rw [Bool.eq_false_iff.mpr hmark]
  | true =>
    refine .inr ⟨rfl, ?_⟩
    induction subs generalizing next with
    | nil => exact .inl ⟨rfl, rfl⟩
    | cons p rest ih =>
      rw [renewAll, List.lookup_cons, List.lookup_cons]
      by_cases hmark : (mark == p.1) = true
      · rw [hmark]
        rw [eq_of_beq hmark] at hrenews
        refine .inr ⟨next, by simp [hrenews], rfl, Nat.le_refl _, ?_⟩
        rw [List.length_cons]
        omega
      · rw [Bool.eq_false_iff.mpr hmark]
        rcases ih with hnone | ⟨token, hsome, hold, hlow, hhigh⟩
        · exact .inl hnone
        · refine .inr ⟨token, hsome, hold, by omega, ?_⟩
          rw [List.length_cons]
          omega

lemma subscription_renewSubscriptions {skipUri : Option String} :
    (renewSubscriptions key skipUri s).2.subscription k u =
        s.subscription k u ∧ renews key skipUri ⟨k, u⟩ = false ∨
      (renews key skipUri ⟨k, u⟩ = true ∧
        ∀ token, (renewSubscriptions key skipUri s).2.subscription k u = some token →
          s.nextSubscription ≤ token ∧
            token < s.nextSubscription + s.subscriptions.length) := by
  rcases lookup_renewAll with ⟨hkept, heq⟩ | ⟨hrenews, hnew⟩
  · exact .inl ⟨heq, hkept⟩
  · refine .inr ⟨hrenews, ?_⟩
    intro token hsub
    have hlookup : (renewAll key skipUri s.nextSubscription s.subscriptions).lookup ⟨k, u⟩ =
        some token := hsub
    rcases hnew with ⟨hnone, -⟩ | ⟨token', hsome, -, hlow, hhigh⟩
    · rw [hnone] at hlookup
      exact absurd hlookup (by simp)
    · obtain rfl := Option.some.inj (hsome.symm.trans hlookup)
      exact ⟨hlow, hhigh⟩

/-- A renewal loses no subscription. -/
lemma isSome_renewSubscriptions (key : Key) (skipUri : Option String)
    (h : (s.subscription k u).isSome = true) :
    ((renewSubscriptions key skipUri s).2.subscription k u).isSome = true := by
  show ((renewAll key skipUri s.nextSubscription s.subscriptions).lookup ⟨k, u⟩).isSome = true
  have hold : (s.subscriptions.lookup ⟨k, u⟩).isSome = true := h
  rcases lookup_renewAll with
    ⟨-, heq⟩ | ⟨-, ⟨-, hnone⟩ | ⟨token, hsome, -, -, -⟩⟩
  · rw [heq]
    exact hold
  · rw [hnone] at hold
    exact absurd hold (by simp)
  · rw [hsome]
    rfl

lemma Sound.renewSubscriptions (h : s.Sound) (key : Key) (skipUri : Option String) :
    (renewSubscriptions key skipUri s).2.Sound := by
  refine h.of_filter rfl ?_ ?_ rfl rfl
  · intro q _ hother
    rcases subscription_renewSubscriptions (s := s) (k := q.update.key) (u := q.update.uri) with ⟨heq, -⟩ | ⟨hrenews, -⟩
    · exact heq
    · rw [renews, beq_false_of_ne (bne_iff_ne.mp hother)] at hrenews
      exact absurd hrenews (by simp)
  · intro k u token hsub
    show token < s.nextSubscription + s.subscriptions.length
    rcases subscription_renewSubscriptions (s := s) (k := k) (u := u) with ⟨heq, -⟩ | ⟨-, hnew⟩
    · rw [heq] at hsub
      exact Nat.lt_add_right _ (h.issued k u token hsub)
    · exact (hnew token hsub).2

lemma grows_renewSubscriptions (key : Key) (skipUri : Option String) (s : Store) :
    Grows s (renewSubscriptions key skipUri s).2 := by
  refine ⟨?_, Nat.le_add_right _ _, List.Subset.refl _⟩
  intro k u token hsub
  rcases subscription_renewSubscriptions (s := s) (k := k) (u := u) with ⟨heq, -⟩ | ⟨-, hnew⟩
  · exact .inl (heq.symm.trans hsub)
  · exact .inr (hnew token hsub).1

lemma lt_of_mem_renewAll {skipUri : Option String} {next : Nat} {subs : Subscriptions}
    {p : Mark × Nat} (hp : p ∈ renewAll key skipUri next subs)
    (hrenews : renews key skipUri p.1 = true) : p.2 < next + subs.length := by
  induction subs generalizing next with
  | nil => exact absurd hp List.not_mem_nil
  | cons q rest ih =>
    rw [List.length_cons]
    rcases List.mem_cons.mp hp with rfl | hp
    · rw [if_pos hrenews]
      omega
    · have hlt := ih hp
      omega

/-- The renewed lifetimes have been issued. -/
lemma lt_of_mem_renewSubscriptions {skipUri : Option String}
    (h : token ∈ (renewSubscriptions key skipUri s).1) :
    token < (renewSubscriptions key skipUri s).2.nextSubscription := by
  obtain ⟨p, hp, rfl⟩ := List.mem_map.mp h
  obtain ⟨hmem, hrenews⟩ := List.mem_filter.mp hp
  exact lt_of_mem_renewAll hmem hrenews

/-! ### Reads -/

/-- A read is enqueued in its own lifetime, as the newest one, or not at all. -/
inductive Enqueued (s : Store) (key : Key) (uri : String) (token : Nat) (text : String) :
    Store → Prop
  | dropped : Enqueued s key uri token text s
  | pushed (hcurrent : s.subscription key uri = some token)
      (hroom : s.pending.length < maxPending) :
      Enqueued s key uri token text { s with
        pending := s.pending ++ [⟨⟨key.scope, key, uri, text⟩, token, s.revisions token + 1⟩]
        revisions := fun t => if t = token then s.revisions token + 1 else s.revisions t
        reads := s.reads ++ [⟨⟨key.scope, key, uri, text⟩, token, s.revisions token + 1⟩] }

lemma enqueue_enqueued (key : Key) (uri : String) (token : Nat) (text : String) (s : Store) :
    Enqueued s key uri token text (enqueue key uri token text s) := by
  unfold enqueue
  split
  · exact .dropped
  · rename_i hcurrent
    split
    · rename_i hroom
      exact .pushed (by simpa using hcurrent) hroom
    · exact .dropped

lemma countOf_append (token : Nat) (reads later : List QueuedResourceUpdate) :
    countOf token (reads ++ later) = countOf token reads + countOf token later :=
  List.countP_append

lemma countOf_cons_self (q : QueuedResourceUpdate) (reads : List QueuedResourceUpdate) :
    countOf q.subscription (q :: reads) = countOf q.subscription reads + 1 :=
  List.countP_cons_of_pos (by simp)

lemma Sound.enqueue (h : s.Sound) (key : Key) (uri : String) (token : Nat) (text : String) :
    (enqueue key uri token text s).Sound := by
  have henqueued := enqueue_enqueued key uri token text s
  generalize Store.enqueue key uri token text s = s' at henqueued ⊢
  cases henqueued with
  | dropped => exact h
  | pushed hcurrent hroom =>
    refine ⟨?_, ?_, h.issued, ?_, ?_, ?_⟩
    · intro q hq
      rcases List.mem_append.mp hq with hq | hq
      · exact h.current q hq
      · rw [List.mem_singleton.mp hq]
        exact hcurrent
    · show (s.pending ++ [_]).length ≤ maxPending
      rw [List.length_append]
      exact hroom
    · intro q hq
      rcases List.mem_append.mp hq with hq | hq
      · exact List.mem_append_left _ (h.enqueued q hq)
      · exact List.mem_append_right _ hq
    · intro t
      show (if t = token then s.revisions token + 1 else s.revisions t) =
        UInt64.ofNat (countOf t (s.reads ++ [_]))
      rw [countOf_append]
      split
      · rename_i heq
        rw [heq, h.counted, countOf_cons_self ⟨_, token, _⟩, UInt64.ofNat_add]
        rfl
      · rename_i hne
        rw [h.counted]
        have hzero : countOf t [⟨⟨key.scope, key, uri, text⟩, token, s.revisions token + 1⟩] = 0 := by
          rw [countOf, List.countP_eq_zero]
          intro q hq
          rw [List.mem_singleton.mp hq]
          simpa using Ne.symm hne
        rw [hzero, Nat.add_zero]
    · intro before q later heq
      rcases List.eq_nil_or_concat later with rfl | ⟨later, last, rfl⟩
      · obtain ⟨rfl, hlast⟩ := List.append_inj' heq rfl
        obtain rfl := List.head_eq_of_cons_eq hlast
        show s.revisions token + 1 = _
        rw [h.counted, UInt64.ofNat_add]
        rfl
      · rw [List.concat_eq_append, ← List.cons_append, ← List.append_assoc] at heq
        exact h.numbered before q later (List.append_inj' heq rfl).1

lemma grows_enqueue (key : Key) (uri : String) (token : Nat) (text : String) (s : Store) :
    Grows s (enqueue key uri token text s) := by
  have henqueued := enqueue_enqueued key uri token text s
  generalize Store.enqueue key uri token text s = s' at henqueued ⊢
  cases henqueued with
  | dropped => exact Grows.refl s
  | pushed hcurrent hroom =>
    exact ⟨fun _ _ _ hsub => .inl hsub, Nat.le_refl _, List.subset_append_left _ _⟩

lemma mem_retryLoop {updates retry : List QueuedResourceUpdate} (h : q ∈ retryLoop s updates retry) :
    q ∈ retry ∨ q ∈ updates ∧ s.retries q = true := by
  induction updates generalizing retry with
  | nil => exact .inl h
  | cons q' updates ih =>
    rw [retryLoop] at h
    split at h
    · exact .inl h
    · split at h
      · rename_i hretries
        rcases ih h with hmem | ⟨hmem, hq⟩
        · rcases List.mem_append.mp hmem with hmem | hmem
          · exact .inl hmem
          · obtain rfl := List.mem_singleton.mp hmem
            exact .inr ⟨List.mem_cons_self, hretries⟩
        · exact .inr ⟨List.mem_cons_of_mem _ hmem, hq⟩
      · rcases ih h with hmem | ⟨hmem, hq⟩
        · exact .inl hmem
        · exact .inr ⟨List.mem_cons_of_mem _ hmem, hq⟩

lemma length_retryLoop_le {updates retry : List QueuedResourceUpdate}
    (h : retry.length + s.pending.length ≤ maxPending) :
    (retryLoop s updates retry).length + s.pending.length ≤ maxPending := by
  induction updates generalizing retry with
  | nil => exact h
  | cons q' updates ih =>
    rw [retryLoop]
    split
    · exact h
    · rename_i hroom
      split
      · refine ih ?_
        rw [List.length_append, List.length_singleton]
        omega
      · exact ih h

lemma retries_iff :
    s.retries q = true ↔ s.IsCurrent q ∧ s.revisions q.subscription = q.revision := by
  rw [retries, Bool.and_eq_true, beq_iff_eq, beq_iff_eq, IsCurrent]

/-- The counter of a lifetime tells its newest read from the others until it wraps. -/
lemma Sound.newest (h : s.Sound) (hmem : q ∈ s.reads)
    (hfew : countOf q.subscription s.reads < UInt64.size)
    (hrevision : s.revisions q.subscription = q.revision) : s.Newest q := by
  obtain ⟨before, later, heq⟩ := List.append_of_mem hmem
  refine ⟨before, later, heq, ?_⟩
  have hcount : countOf q.subscription s.reads =
      countOf q.subscription before + (countOf q.subscription later + 1) := by
    rw [heq, countOf_append, countOf_cons_self]
  have hofNat : UInt64.ofNat (countOf q.subscription s.reads) =
      UInt64.ofNat (countOf q.subscription before + 1) := by
    rw [← h.counted, hrevision, h.numbered before q later heq]
  have hsame := congrArg UInt64.toNat hofNat
  rw [UInt64.toNat_ofNat_of_lt' hfew, UInt64.toNat_ofNat_of_lt' (by omega)] at hsame
  have hzero : countOf q.subscription later = 0 := by omega
  intro r hr
  have hother := List.countP_eq_zero.mp hzero r hr
  simpa using hother

lemma Sound.restorePendingBatch (h : s.Sound) {updates : List QueuedResourceUpdate}
    (hupdates : updates ⊆ s.reads) : (restorePendingBatch updates s).Sound := by
  have hretried : ∀ q ∈ retryLoop s updates [], q ∈ updates ∧ s.retries q = true := by
    intro q hq
    rcases mem_retryLoop hq with hnil | hq
    · exact absurd hnil List.not_mem_nil
    · exact hq
  refine ⟨?_, ?_, h.issued, ?_, h.counted, h.numbered⟩
  · intro q hq
    rcases List.mem_append.mp hq with hq | hq
    · exact (retries_iff.mp (hretried q hq).2).1
    · exact h.current q hq
  · show (retryLoop s updates [] ++ s.pending).length ≤ maxPending
    rw [List.length_append]
    refine length_retryLoop_le ?_
    rw [List.length_nil, Nat.zero_add]
    exact h.bounded
  · intro q hq
    rcases List.mem_append.mp hq with hq | hq
    · exact hupdates (hretried q hq).1
    · exact h.enqueued q hq

lemma Sound.takePendingBatch (h : s.Sound) (scope : Option String) :
    (takePendingBatch scope s).2.Sound := by
  refine ⟨?_, Nat.zero_le _, h.issued, ?_, h.counted, h.numbered⟩
  · intro q hq
    exact absurd hq List.not_mem_nil
  · intro q hq
    exact absurd hq List.not_mem_nil

lemma mem_takePendingBatch {scope : Option String} (h : q ∈ (takePendingBatch scope s).1) :
    q ∈ s.pending := by
  cases scope with
  | none => exact h
  | some scope => exact (List.mem_filter.mp h).1

end Store

end Mcp
