import RpiPackage.Im.Book

/-!
# Chats that share a session store

What a chat can use is the id derived from its name and what its entry of the store lists. Over a
run the entries keep to the chats that own them as long as the names of the chats do not run into
each other.
-/

namespace Im

open Json

variable {b : Book} {disk : Option Value} {e : Entry}

/-- The entry of a pair as the file has it. -/
def entryAt (disk : Option Value) (pair : String × String) : Value :=
  match disk with
  | none => .null
  | some value => (value.index "chats").index (key pair.1 pair.2)

/-- The ids that a pair can use: the one derived from its chat, the listed and the selected ones. -/
def usable (disk : Option Value) (pair : String × String) : List String :=
  conversationSessionId pair.2 ::
    (listed (entryAt disk pair) ++ (chosen (entryAt disk pair)).toList)

/-- The entry that an event leaves in the file. -/
def Event.saves (disk : Option Value) : Event → Option Entry
  | command profile chat text env =>
    if env.Readable disk ∧ env.saved = .ok () then
      (Book.ofDisk disk).saves (profile, chat) (Rust.splitWhitespace text) env.stamp
    else none
  | selected _ _ _ => none

/-- Different chats can use different ids, and every pair that used the file is served from it. -/
structure Safe (s : State) : Prop where
  apart : ∀ p ∈ s.used, ∀ q ∈ s.used, p.2 ≠ q.2 → (usable s.disk p).Disjoint (usable s.disk q)
  served : ∀ value, s.disk = some value → load (.ok ()) s.disk = .ok value ∧
    ∀ p ∈ s.used, ∃ id, selection value p.1 p.2 = .ok id

/-- An event leaves the entries of the other pairs as they are. -/
def Alone (s : State) (event : Event) : Prop :=
  ∀ p ∈ s.used, p ≠ event.pair → entryAt (s.step event).disk p = entryAt s.disk p

/-- The names of the chats do not run into each other, and the file keeps to its limit: the pair's
ids are not those of another chat; where it saves, it neither shares the key of another chat nor
selects the id derived from another chat's name, and the file is short enough to be read. -/
structure Admits (s : State) (event : Event) : Prop where
  apart : ∀ p ∈ s.used, p.2 ≠ event.pair.2 →
    (usable s.disk event.pair).Disjoint (usable s.disk p)
  own : ∀ e ∈ event.saves s.disk, ∀ p ∈ s.used, p.2 ≠ event.pair.2 →
    key p.1 p.2 ≠ key event.pair.1 event.pair.2 ∧ e.selected ≠ conversationSessionId p.2
  fits : ∀ e ∈ event.saves s.disk,
    ((Book.ofDisk s.disk).put (key event.pair.1 event.pair.2) e).encode.prettySize ≤ storeLimit

instance (s : State) (event : Event) : Decidable (Admits s event) :=
  decidable_of_iff
    ((∀ p ∈ s.used, p.2 ≠ event.pair.2 →
        ∀ id ∈ usable s.disk event.pair, id ∉ usable s.disk p) ∧
      (∀ e ∈ event.saves s.disk, ∀ p ∈ s.used, p.2 ≠ event.pair.2 →
        key p.1 p.2 ≠ key event.pair.1 event.pair.2 ∧ e.selected ≠ conversationSessionId p.2) ∧
      ∀ e ∈ event.saves s.disk,
        ((Book.ofDisk s.disk).put (key event.pair.1 event.pair.2) e).encode.prettySize ≤ storeLimit)
    ⟨fun h => ⟨h.1, h.2.1, h.2.2⟩, fun h => ⟨h.apart, h.own, h.fits⟩⟩

/-- The book of a file that only the bridge wrote. -/
structure Sound (s : State) (b : Book) : Prop where
  holds : Holds s.disk b
  owned : ∀ k e, b.lookup k = some e → ∃ p ∈ s.used, key p.1 p.2 = k ∧ e.Owned p.2
  apart : ∀ p ∈ s.used, ∀ q ∈ s.used, p.2 ≠ q.2 → (usable s.disk p).Disjoint (usable s.disk q)

variable {s : State} {event : Event} {p q pair : String × String} {id : String}

lemma entryAt_of_holds (h : Holds disk b) (p : String × String) :
    entryAt disk p = ((b.lookup (key p.1 p.2)).map Entry.encode).getD .null := by
  rcases h with ⟨rfl, rfl⟩ | ⟨rfl, -⟩
  · rfl
  · exact b.index_encode (key p.1 p.2)

lemma mem_usable (h : Holds disk b) :
    id ∈ usable disk p ↔ id = conversationSessionId p.2 ∨
      ∃ e, b.lookup (key p.1 p.2) = some e ∧ (id ∈ e.sessions ∨ id = e.selected) := by
  rw [usable, entryAt_of_holds h]
  cases b.lookup (key p.1 p.2) with
  | none => simp [listed, chosen, Value.index, Value.get, Value.asArray, Value.asStr]
  | some e => simp

lemma base_mem_usable : conversationSessionId p.2 ∈ usable disk p := List.mem_cons_self

lemma profile_eq_of_key {profile profile' chat : String} (h : key profile chat = key profile' chat) :
    profile = profile' := by
  rw [key, key, String.append_left_inj, String.append_left_inj] at h
  exact h

lemma key_ne_of_chat_eq (hne : p ≠ q) (hchat : p.2 = q.2) : key p.1 p.2 ≠ key q.1 q.2 := by
  rw [hchat]
  exact fun hkey => hne (Prod.ext (profile_eq_of_key hkey) hchat)

lemma Sound.start : Sound .start [] where
  holds := .inl ⟨rfl, rfl⟩
  owned := by
    intro k e h
    cases h
  apart := by
    intro p hp
    cases hp

/-- An entry under the key of a pair whose ids are its own belongs to the chat of the pair. -/
lemma Sound.fair (h : Sound s b)
    (hapart : ∀ p ∈ s.used, p.2 ≠ pair.2 → (usable s.disk pair).Disjoint (usable s.disk p)) :
    b.Fair pair := by
  intro e he
  obtain ⟨owner, howner, hkey, howned⟩ := h.owned _ e he
  by_cases hchat : owner.2 = pair.2
  · exact hchat ▸ howned
  · have hmine : e.selected ∈ usable s.disk pair := (mem_usable h.holds).mpr (.inr ⟨e, he, .inr rfl⟩)
    have htheirs : e.selected ∈ usable s.disk owner := by
      refine (mem_usable h.holds).mpr (.inr ⟨e, ?_, .inr rfl⟩)
      rw [hkey, he]
    exact absurd htheirs (hapart owner howner hchat hmine)

lemma Sound.fair_of_used (h : Sound s b) (hp : p ∈ s.used) : b.Fair p :=
  h.fair fun q hq hchat => h.apart p hp q hq hchat.symm

lemma isId_of_mem_usable (hholds : Holds disk b) (h : b.Fair p) (hid : id ∈ usable disk p) :
    IsId p.2 id := by
  rcases (mem_usable hholds).mp hid with rfl | ⟨e, he, hmem | rfl⟩
  · exact .inl rfl
  · exact (h e he).ids id hmem
  · exact (h e he).ids _ (h e he).selected

/-- What a command works on belongs to its chat. -/
lemma Book.Fair.entry (h : b.Fair pair) : (b.entry pair).Owned pair.2 := by
  unfold Book.entry
  cases hlookup : b.lookup (key pair.1 pair.2) with
  | none => exact ⟨List.mem_cons_self, fun id hid => .inl (List.mem_singleton.mp hid)⟩
  | some e => exact h e hlookup

/-- What is saved belongs to the chat, and only the selected id can be new. -/
lemma Book.Fair.saves {words : List String} {stamp : Except String Nat} (h : b.Fair pair)
    (he : b.saves pair words stamp = some e) :
    e.Owned pair.2 ∧ ∀ id ∈ e.sessions, id ∈ (b.entry pair).sessions ∨ id = e.selected := by
  have hentry := h.entry
  unfold Book.saves at he
  dsimp only at he
  split at he
  · split at he
    · obtain rfl := Option.some.inj he
      refine ⟨⟨by simp, ?_⟩, ?_⟩
      · intro id hid
        rcases List.mem_append.mp hid with hold | hnew
        · exact hentry.ids id hold
        · exact .inr ⟨_, List.mem_singleton.mp hnew⟩
      · intro id hid
        rcases List.mem_append.mp hid with hold | hnew
        · exact .inl hold
        · exact .inr (List.mem_singleton.mp hnew)
    · cases he
  · split at he
    · obtain rfl := Option.some.inj he
      exact ⟨⟨‹_›, hentry.ids⟩, fun id hid => .inl hid⟩
    · cases he
  · cases he

lemma entry_sessions_subset (hholds : Holds disk b) :
    (b.entry pair).sessions ⊆ usable disk pair := by
  intro id hid
  refine (mem_usable hholds).mpr ?_
  unfold Book.entry at hid
  cases hlookup : b.lookup (key pair.1 pair.2) with
  | none =>
    rw [hlookup] at hid
    exact .inl (List.mem_singleton.mp hid)
  | some e =>
    rw [hlookup] at hid
    exact .inr ⟨e, rfl, .inl hid⟩

lemma ofDisk_of_holds (h : Holds disk b) : Book.ofDisk disk = b := by
  rcases h with ⟨rfl, rfl⟩ | ⟨rfl, -⟩
  · rfl
  · exact b.ofDisk_encode

/-- An event writes the book with the entry it saves. -/
lemma write_saves (hholds : Holds disk b) (h : b.Fair event.pair) :
    event.write disk = ((event.saves disk).map fun e =>
      (b.put (key event.pair.1 event.pair.2) e).encode).or disk := by
  cases event with
  | selected profile chat env => rfl
  | command profile chat text env =>
    rw [Event.write, Event.saves, Im.command, ofDisk_of_holds hholds]
    cases Rust.splitWhitespace text with
    | nil => simp [Book.saves]
    | cons word words =>
      dsimp only
      by_cases hword : word ∈ ["/new", "/sessions", "/session"]
      · rw [if_pos hword]
        show (handle disk profile chat (word :: words) env).2 = _
        rw [handle_saves hholds h]
        split
        · rfl
        · rfl
      · have hnone : b.saves (profile, chat) (word :: words) env.stamp = none := by
          unfold Book.saves
          split
          · obtain ⟨rfl, -⟩ := List.cons.inj ‹_›
            exact absurd (by simp) hword
          · obtain ⟨rfl, -⟩ := List.cons.inj ‹_›
            exact absurd (by simp) hword
          · rfl
        rw [if_neg hword, hnone]
        simp

/-- An event saves what belongs to its chat, and only the selected id can be new. -/
lemma Event.saves_owned (hholds : Holds disk b) (h : b.Fair event.pair)
    (he : event.saves disk = some e) :
    e.Owned event.pair.2 ∧
      ∀ id ∈ e.sessions, id ∈ (b.entry event.pair).sessions ∨ id = e.selected := by
  cases event with
  | selected profile chat env => cases he
  | command profile chat text env =>
    rw [Event.saves, ofDisk_of_holds hholds] at he
    split at he
    · exact h.saves he
    · cases he

namespace Sound

variable (h : Sound s b) (hadmits : Admits s event)
include h hadmits

lemma fair_pair : b.Fair event.pair := h.fair hadmits.apart

/-- A saved id is not an id of another chat. -/
lemma selected_notMem (he : event.saves s.disk = some e) (hq : q ∈ s.used)
    (hchat : q.2 ≠ event.pair.2) : e.selected ∉ usable s.disk q := by
  intro hmem
  have howned := (Event.saves_owned h.holds (h.fair_pair hadmits) he).1
  have hapart := hadmits.apart q hq hchat
  rcases isId_of_mem_usable h.holds (h.fair_of_used hq) hmem with hbase | ⟨stamp, hstamp⟩
  · exact (hadmits.own e he q hq hchat).2 hbase
  · rcases howned.ids _ howned.selected with hmine | ⟨stamp', hmine⟩
    · exact hapart (hmine ▸ base_mem_usable) hmem
    · have hbase := IsId.sessionId_inj (hstamp.symm.trans hmine)
      exact hapart base_mem_usable (hbase ▸ base_mem_usable)

/-- The entry of another pair stays as it is. -/
lemma entryAt_write (hq : q ∈ s.used) (hne : q ≠ event.pair) :
    entryAt (event.write s.disk) q = entryAt s.disk q := by
  rw [write_saves h.holds (h.fair_pair hadmits)]
  cases he : event.saves s.disk with
  | none => rfl
  | some e =>
    have hkey : key q.1 q.2 ≠ key event.pair.1 event.pair.2 := by
      by_cases hchat : q.2 = event.pair.2
      · exact key_ne_of_chat_eq hne hchat
      · exact (hadmits.own e he q hq hchat).1
    have hfits := hadmits.fits e he
    rw [ofDisk_of_holds h.holds] at hfits
    rw [Option.map_some, Option.some_or, entryAt_of_holds (.inr ⟨rfl, hfits⟩),
      Book.lookup_put_of_ne hkey, entryAt_of_holds h.holds]

/-- Afterwards the pair can use what it could use before and the id that is selected now. -/
lemma usable_write (hid : id ∈ usable (event.write s.disk) event.pair) :
    id ∈ usable s.disk event.pair ∨ ∃ e, event.saves s.disk = some e ∧ id = e.selected := by
  rw [write_saves h.holds (h.fair_pair hadmits)] at hid
  cases he : event.saves s.disk with
  | none =>
    rw [he] at hid
    exact .inl hid
  | some e =>
    have hfits := hadmits.fits e he
    rw [ofDisk_of_holds h.holds] at hfits
    rw [he, Option.map_some, Option.some_or, mem_usable (.inr ⟨rfl, hfits⟩)] at hid
    rcases hid with rfl | ⟨e', he', hmem⟩
    · exact .inl base_mem_usable
    · rw [Book.lookup_put_self] at he'
      obtain rfl := Option.some.inj he'
      have hsessions := (Event.saves_owned h.holds (h.fair_pair hadmits) he).2
      rcases hmem with hmem | hmem
      · rcases hsessions id hmem with hold | hnew
        · exact .inl (entry_sessions_subset h.holds hold)
        · exact .inr ⟨e, rfl, hnew⟩
      · exact .inr ⟨e, rfl, hmem⟩

lemma usable_write_of_ne (hq : q ∈ s.used) (hne : q ≠ event.pair) :
    usable (event.write s.disk) q = usable s.disk q := by
  rw [usable, usable, h.entryAt_write hadmits hq hne]

lemma apart_pair (hq : q ∈ s.used) (hchat : q.2 ≠ event.pair.2) :
    (usable (event.write s.disk) event.pair).Disjoint (usable (event.write s.disk) q) := by
  have hne : q ≠ event.pair := fun heq => hchat (heq ▸ rfl)
  rw [h.usable_write_of_ne hadmits hq hne]
  intro id hmine htheirs
  rcases h.usable_write hadmits hmine with hold | ⟨e, he, rfl⟩
  · exact hadmits.apart q hq hchat hold htheirs
  · exact h.selected_notMem hadmits he hq hchat htheirs

/-- A step that the condition admits keeps the book sound. -/
lemma step : ∃ b', Sound (s.step event) b' := by
  have hfair := h.fair_pair hadmits
  have hwrite := write_saves h.holds hfair
  have hapart : ∀ p ∈ event.pair :: s.used, ∀ q ∈ event.pair :: s.used, p.2 ≠ q.2 →
      (usable (event.write s.disk) p).Disjoint (usable (event.write s.disk) q) := by
    intro p hp q hq hchat
    rcases List.mem_cons.mp hp with rfl | hp
    · rcases List.mem_cons.mp hq with rfl | hq
      · exact absurd rfl hchat
      · exact h.apart_pair hadmits hq hchat.symm
    · rcases List.mem_cons.mp hq with rfl | hq
      · exact fun id htheirs hmine => h.apart_pair hadmits hp hchat hmine htheirs
      · by_cases hpair : p = event.pair
        · subst hpair
          exact h.apart_pair hadmits hq hchat.symm
        · by_cases hpair' : q = event.pair
          · subst hpair'
            exact fun id htheirs hmine => h.apart_pair hadmits hp hchat hmine htheirs
          · rw [h.usable_write_of_ne hadmits hp hpair, h.usable_write_of_ne hadmits hq hpair']
            exact h.apart p hp q hq hchat
  cases he : event.saves s.disk with
  | none =>
    rw [he] at hwrite
    refine ⟨b, ?_, ?_, hapart⟩
    · show Holds (event.write s.disk) b
      rw [hwrite]
      exact h.holds
    · intro k e hk
      obtain ⟨p, hp, howner⟩ := h.owned k e hk
      exact ⟨p, List.mem_cons_of_mem _ hp, howner⟩
  | some e =>
    have hfits := hadmits.fits e he
    rw [ofDisk_of_holds h.holds] at hfits
    rw [he] at hwrite
    refine ⟨b.put (key event.pair.1 event.pair.2) e, .inr ⟨hwrite, hfits⟩, ?_, hapart⟩
    intro k e' hk
    rw [Book.lookup_put] at hk
    split at hk
    · obtain rfl := Option.some.inj hk
      exact ⟨event.pair, List.mem_cons_self, Eq.symm ‹_›, (Event.saves_owned h.holds hfair he).1⟩
    · obtain ⟨p, hp, howner⟩ := h.owned k e' hk
      exact ⟨p, List.mem_cons_of_mem _ hp, howner⟩

lemma alone : Alone s event := fun _ hp hne => h.entryAt_write hadmits hp hne

omit hadmits in
lemma safe : Safe s where
  apart := h.apart
  served := by
    intro value hvalue
    rcases h.holds with ⟨hnone, -⟩ | ⟨hsome, hfits⟩
    · rw [hnone] at hvalue
      cases hvalue
    · obtain rfl := Option.some.inj (hvalue.symm.trans hsome)
      have hload := load_of_holds h.holds (.ok ())
      rw [hsome, if_neg (by simp)] at hload
      refine ⟨hsome ▸ hload, ?_⟩
      intro p hp
      exact ⟨_, selection_encode (h.fair_of_used hp)⟩

end Sound

/-- The clock reading a `/new` command gets. -/
def Event.stamp : Event → Option Nat
  | command _ _ text env =>
    if Rust.splitWhitespace text = ["/new"] then env.stamp.toOption else none
  | selected _ _ _ => none

def StampsRise (events : List Event) : Prop :=
  (events.filterMap Event.stamp).Pairwise (· < ·)

instance (events : List Event) : Decidable (StampsRise events) :=
  inferInstanceAs (Decidable ((events.filterMap Event.stamp).Pairwise (· < ·)))

/-- No chat meets the sessions of another, at no point of the run, and no event touches the entry
of another pair. -/
structure Separate (events : List Event) : Prop where
  safe : ∀ before after, events = before ++ after → Safe (Run.after State.step .start before)
  alone : ∀ before event after, events = before ++ event :: after →
    Alone (Run.after State.step .start before) event

end Im
