import RpiPackage.Im.Sessions
import RpiPackage.Lib.Result

/-!
# The book of a session store

The entries of the store form a book under the keys of the pairs. A command that saves replaces the
entry of its own pair, and the ids it can put there are those of its chat.
-/

namespace Im

open Json Result

structure Entry where
  selected : String
  sessions : List String
  deriving DecidableEq, Repr

/-- The entries of a store under their keys. -/
abbrev Book := List (String × Entry)

def Entry.encode (e : Entry) : Value :=
  .object [("selected", .string e.selected), ("sessions", .array (e.sessions.map .string))]

/-- The strings an entry lists. -/
def listed (entry : Value) : List String :=
  ((entry.index "sessions").asArray.getD []).filterMap Value.asStr

def chosen (entry : Value) : Option String := (entry.index "selected").asStr

namespace Book

def encode (b : Book) : Value :=
  .object [("version", .number (.posInt 1)), ("chats", .object (b.map fun p => (p.1, p.2.encode)))]

def put : Book → String → Entry → Book
  | [], k, e => [(k, e)]
  | p :: b, k, e => if p.1 = k then (k, e) :: b else p :: put b k e

/-- The entry a command of the pair works on, which is a new one where there is none. -/
def entry (b : Book) (pair : String × String) : Entry :=
  let base := conversationSessionId pair.2
  (b.lookup (key pair.1 pair.2)).getD ⟨base, [base]⟩

/-- The book that a file holds. -/
def ofDisk : Option Value → Book
  | none => []
  | some value =>
    match value.index "chats" with
    | .object chats => chats.map fun p => (p.1, ⟨(chosen p.2).getD "", listed p.2⟩)
    | _ => []

variable {b : Book} {k k' : String} {e e' : Entry}

lemma lookup_put (b : Book) (k k' : String) (e : Entry) :
    (b.put k e).lookup k' = if k' = k then some e else b.lookup k' := by
  induction b with
  | nil =>
    rw [put, List.lookup_cons]
    by_cases h : k' = k
    · simp [h]
    · simp [beq_false_of_ne h, h]
  | cons p b ih =>
    obtain ⟨name, e'⟩ := p
    rw [put]
    by_cases hname : name = k
    · subst hname
      by_cases h : k' = name
      · simp [h]
      · simp [List.lookup_cons, beq_false_of_ne h, h]
    · rw [if_neg hname, List.lookup_cons, List.lookup_cons, ih]
      by_cases h : k' = name
      · simp [h, hname]
      · simp [beq_false_of_ne h]

@[simp] lemma lookup_put_self : (b.put k e).lookup k = some e := by rw [lookup_put, if_pos rfl]

lemma lookup_put_of_ne (h : k' ≠ k) : (b.put k e).lookup k' = b.lookup k' := by
  rw [lookup_put, if_neg h]

@[simp] lemma put_put : (b.put k e).put k e' = b.put k e' := by
  induction b with
  | nil => simp [put]
  | cons p b ih =>
    by_cases h : p.1 = k
    · simp [put, h]
    · simp [put, h, ih]

lemma put_of_lookup (h : b.lookup k = some e) : b.put k e = b := by
  induction b with
  | nil => cases h
  | cons p b ih =>
    obtain ⟨name, e'⟩ := p
    by_cases hname : name = k
    · subst hname
      rw [List.lookup_cons_self, Option.some.injEq] at h
      rw [put, if_pos rfl, h]
    · rw [List.lookup_cons, beq_false_of_ne (Ne.symm hname)] at h
      rw [put, if_neg hname, ih h]

/-! ### The text of a book -/

lemma setField_encode (b : Book) (k : String) (e : Entry) :
    Value.setField (b.map fun p => (p.1, p.2.encode)) k e.encode =
      (b.put k e).map fun p => (p.1, p.2.encode) := by
  induction b with
  | nil => rfl
  | cons p b ih =>
    by_cases h : p.1 = k
    · simp [put, Value.setField, h]
    · simp [put, Value.setField, h, ih]

lemma setEntry_encode (b : Book) (k : String) (e : Entry) :
    setEntry b.encode k e.encode = (b.put k e).encode := by
  have hchats : b.encode.index "chats" = .object (b.map fun p => (p.1, p.2.encode)) := rfl
  rw [setEntry, hchats, Value.set, setField_encode]
  rfl

lemma index_encode (b : Book) (k : String) :
    (b.encode.index "chats").index k = ((b.lookup k).map Entry.encode).getD .null := by
  have hchats : b.encode.index "chats" = .object (b.map fun p => (p.1, p.2.encode)) := rfl
  rw [hchats, Value.index, Value.get_object]
  congr 1
  induction b with
  | nil => rfl
  | cons p b ih =>
    obtain ⟨name, e'⟩ := p
    rw [List.map_cons, List.lookup_cons, List.lookup_cons]
    by_cases h : k = name
    · simp [h]
    · simpa only [beq_false_of_ne h] using ih rfl

lemma index_encode_of_lookup (h : b.lookup k = some e) :
    (b.encode.index "chats").index k = e.encode := by
  rw [index_encode, h]
  rfl

end Book

@[simp] lemma Entry.isNull_encode (e : Entry) : e.encode.isNull = false := rfl

@[simp] lemma Entry.selected_encode (e : Entry) : e.encode.index "selected" = .string e.selected :=
  rfl

@[simp] lemma Entry.sessions_encode (e : Entry) :
    e.encode.index "sessions" = .array (e.sessions.map .string) := rfl

lemma any_asStr (ids : List String) (id : String) :
    (ids.map Value.string).any (fun known => known.asStr == some id) = decide (id ∈ ids) := by
  rw [Bool.eq_iff_iff]
  simp

lemma Entry.set_selected (e : Entry) (id : String) :
    e.encode.set "selected" (.string id) = (⟨id, e.sessions⟩ : Entry).encode := rfl

lemma Entry.set_sessions (e : Entry) (id : String) :
    e.encode.set "sessions" (.array (e.sessions.map .string ++ [.string id])) =
      (⟨e.selected, e.sessions ++ [id]⟩ : Entry).encode := by
  rw [encode, encode, List.map_append]
  rfl

@[simp] lemma listed_encode (e : Entry) : listed e.encode = e.sessions := by
  have hread : (Value.asStr ∘ Value.string) = some := rfl
  simp [listed, hread]

@[simp] lemma chosen_encode (e : Entry) : chosen e.encode = some e.selected := rfl

@[simp] lemma Book.ofDisk_encode (b : Book) : Book.ofDisk (some b.encode) = b := by
  have hchats : b.encode.index "chats" = .object (b.map fun p => (p.1, p.2.encode)) := rfl
  have hentry : ((fun p => (p.1, ⟨(chosen p.2).getD "", listed p.2⟩)) ∘
      fun p : String × Entry => (p.1, p.2.encode)) = id := by
    funext p
    simp
  simp only [ofDisk, hchats, List.map_map, hentry, List.map_id]

/-! ### The ids of a chat -/

/-- The id derived from a chat's name, or one that a command of the chat made from it. -/
def IsId (chat id : String) : Prop :=
  id = conversationSessionId chat ∨ ∃ stamp, id = sessionId (conversationSessionId chat) stamp

/-- The selected id is listed, and every listed id is one of the chat's. -/
structure Entry.Owned (chat : String) (e : Entry) : Prop where
  selected : e.selected ∈ e.sessions
  ids : ∀ id ∈ e.sessions, IsId chat id

def isIdChar (c : Char) : Bool := Rust.isAsciiAlphanumeric c || c == '-' || c == '_'

lemma all_conversationSessionId (chat : String) :
    (conversationSessionId chat).toList.all isIdChar = true := by
  unfold conversationSessionId
  dsimp only
  split
  · decide +kernel
  · rw [String.toList_append, List.all_append, String.toList_ofList, Bool.and_eq_true]
    refine ⟨by decide +kernel, List.all_eq_true.mpr ?_⟩
    intro c hc
    rw [String.toList_ofList] at hc
    exact (List.mem_filter.mp (List.mem_of_mem_take hc)).2

lemma toList_sessionId (base : String) (stamp : Nat) :
    (sessionId base stamp).toList = base.toList ++ '-' :: (Rust.lowerHex stamp).toList := by
  simp [sessionId]

namespace IsId

variable {chat chat' id : String}

lemma all (h : IsId chat id) : id.toList.all isIdChar = true := by
  rcases h with rfl | ⟨stamp, rfl⟩
  · exact all_conversationSessionId chat
  · rw [toList_sessionId, List.all_append, all_conversationSessionId, Bool.true_and,
      List.all_cons]
    refine Bool.and_eq_true_iff.mpr ⟨by decide, List.all_eq_true.mpr ?_⟩
    intro c hc
    rw [isIdChar, Rust.isAsciiAlphanumeric_of_mem_lowerHex hc]
    rfl

lemma startsWith (h : IsId chat id) :
    (id == conversationSessionId chat ||
      Rust.startsWith id (conversationSessionId chat ++ "-")) = true := by
  rcases h with rfl | ⟨stamp, rfl⟩
  · simp
  · have hstarts : Rust.startsWith (sessionId (conversationSessionId chat) stamp)
        (conversationSessionId chat ++ "-") = true :=
      Rust.startsWith_iff.mpr ⟨_, rfl⟩
    rw [hstarts, Bool.or_true]

lemma dash_notMem (stamp : Nat) : '-' ∉ (Rust.lowerHex stamp).toList := by
  intro h
  have := Rust.isAsciiAlphanumeric_of_mem_lowerHex h
  revert this
  decide

/-- What stands after the last dash tells where a name that ends in a stamp splits. -/
lemma split_at_last {c : Char} {xs xs' ys ys' : List Char} (h : xs ++ c :: ys = xs' ++ c :: ys')
    (hys : c ∉ ys) (hys' : c ∉ ys') : xs = xs' := by
  rcases List.append_eq_append_iff.mp h with ⟨rest, rfl, hrest⟩ | ⟨rest, rfl, hrest⟩
  · cases rest with
    | nil => simp
    | cons d rest =>
      obtain ⟨-, rfl⟩ := List.cons.inj hrest
      exact absurd (List.mem_append_right rest List.mem_cons_self) hys
  · cases rest with
    | nil => simp
    | cons d rest =>
      obtain ⟨-, rfl⟩ := List.cons.inj hrest
      exact absurd (List.mem_append_right rest List.mem_cons_self) hys'

lemma sessionId_inj {base base' : String} {stamp stamp' : Nat}
    (h : sessionId base stamp = sessionId base' stamp') : base = base' := by
  rw [← String.toList_inj, toList_sessionId, toList_sessionId] at h
  exact String.toList_inj.mp (split_at_last h (dash_notMem stamp) (dash_notMem stamp'))

end IsId

/-! ### What a command saves -/

/-- A file and the book it holds; a file that is too long cannot be read. -/
def Holds (disk : Option Value) (b : Book) : Prop :=
  disk = none ∧ b = [] ∨ disk = some b.encode ∧ b.encode.prettySize ≤ storeLimit

/-- The entry under the pair's key, if there is one, belongs to the chat. -/
def Book.Fair (b : Book) (pair : String × String) : Prop :=
  ∀ e, b.lookup (key pair.1 pair.2) = some e → e.Owned pair.2

/-- The entry that a command leaves to be saved. -/
def Book.saves (b : Book) (pair : String × String) (words : List String)
    (stamp : Except String Nat) : Option Entry :=
  let sessions := (b.entry pair).sessions
  match words with
  | ["/new"] =>
    match stamp with
    | .ok stamp =>
      let id := sessionId (conversationSessionId pair.2) stamp
      some ⟨id, sessions ++ [id]⟩
    | .error _ => none
  | ["/session", id] => if id ∈ sessions then some ⟨id, sessions⟩ else none
  | _ => none

variable {b : Book} {disk : Option Value} {profile chat : String} {e : Entry}

lemma selection_encode (h : b.Fair (profile, chat)) :
    selection b.encode profile chat = .ok ((b.lookup (key profile chat)).map Entry.selected) := by
  unfold selection
  rw [Book.index_encode]
  cases hlookup : b.lookup (key profile chat) with
  | none => rfl
  | some e =>
    have howned := h e hlookup
    have hid := howned.ids _ howned.selected
    have hall : e.selected.toList.all
        (fun c => Rust.isAsciiAlphanumeric c || c == '-' || c == '_') = true := hid.all
    simp only [Option.map_some, Option.getD_some, Entry.isNull_encode, Bool.false_eq_true, if_false,
      Entry.selected_encode, Entry.sessions_encode, Value.asStr_string, Value.asArray_array,
      hid.startsWith, hall, any_asStr, howned.selected, decide_true, Bool.not_true, Bool.or_self]

lemma load_of_holds (h : Holds disk b) (read : Except String Unit) :
    load read disk = if disk = none then .ok b.encode else read.map fun _ => b.encode := by
  rcases h with ⟨rfl, rfl⟩ | ⟨rfl, hsize⟩
  · rfl
  · have hsize' : ¬storeLimit < b.encode.prettySize := Nat.not_lt.mpr hsize
    have hversion : (b.encode.index "version").asI64 = some 1 := rfl
    have hchats : (b.encode.index "chats").isObject = true := rfl
    cases read with
    | error error => rfl
    | ok => simp [load, hsize', hversion, hchats, Except.map]

/-- The store that a command works on. -/
lemma opened_encode (b : Book) (profile chat : String) :
    (if ((b.encode.index "chats").index (key profile chat)).isNull then
      setEntry b.encode (key profile chat)
        (.object [("selected", .string (conversationSessionId chat)),
          ("sessions", .array [.string (conversationSessionId chat)])])
    else b.encode) = (b.put (key profile chat) (b.entry (profile, chat))).encode := by
  rw [Book.index_encode, Book.entry]
  cases hlookup : b.lookup (key profile chat) with
  | none => exact b.setEntry_encode (key profile chat) ⟨_, [_]⟩
  | some e =>
    rw [Option.map_some, Option.getD_some, Option.getD_some, Entry.isNull_encode, if_neg (by simp),
      Book.put_of_lookup hlookup]

lemma respond_saves (h : b.Fair (profile, chat)) (words : List String)
    (stamp : Except String Nat) :
    (respond b.encode profile chat words stamp).toOption.bind Prod.snd =
      (b.saves (profile, chat) words stamp).map fun e => (b.put (key profile chat) e).encode := by
  have hentry : ((b.put (key profile chat) (b.entry (profile, chat))).encode.index
      "chats").index (key profile chat) = (b.entry (profile, chat)).encode :=
    Book.index_encode_of_lookup Book.lookup_put_self
  unfold respond
  rw [selection_encode h]
  simp only [ok_bind, opened_encode, hentry, Entry.sessions_encode, Value.asArray_array]
  split
  · rfl
  · rfl
  · cases stamp with
    | error error => rfl
    | ok stamp =>
      simp only [ok_bind, Entry.set_selected, Entry.sessions_encode, Value.asArray_array,
        Entry.set_sessions, Book.setEntry_encode, Book.put_put]
      rfl
  · rename_i id
    rw [any_asStr, Entry.set_selected, Book.setEntry_encode, Book.put_put]
    by_cases hid : id ∈ (b.entry (profile, chat)).sessions
    · simp [Book.saves, hid, Except.toOption]
    · simp [Book.saves, hid, Except.toOption]
  · rename_i hsession hsessions hnew hselect
    unfold Book.saves
    split
    · exact absurd rfl hnew
    · exact absurd rfl (hselect _)
    · rfl

/-- The file can be read, if there is one. -/
def Env.Readable (env : Env) (disk : Option Value) : Prop := disk = none ∨ env.read = .ok ()

instance (env : Env) (disk : Option Value) : Decidable (env.Readable disk) :=
  inferInstanceAs (Decidable (disk = none ∨ env.read = .ok ()))

lemma load_of_readable (hdisk : Holds disk b) {env : Env} (hread : env.Readable disk) :
    load env.read disk = .ok b.encode := by
  rw [load_of_holds hdisk]
  split
  · rfl
  · rw [hread.resolve_left ‹_›]
    rfl

lemma load_of_not_readable (hdisk : Holds disk b) {env : Env} (hread : ¬env.Readable disk) :
    ∃ error, load env.read disk = .error error := by
  rw [Env.Readable, not_or] at hread
  rw [load_of_holds hdisk, if_neg hread.1]
  cases hfile : env.read with
  | error error => exact ⟨error, rfl⟩
  | ok => exact absurd hfile hread.2

lemma handle_saves (hdisk : Holds disk b) (h : b.Fair (profile, chat)) (words : List String)
    (env : Env) :
    (handle disk profile chat words env).2 =
      if env.Readable disk ∧ env.saved = .ok () then
        ((b.saves (profile, chat) words env.stamp).map fun e =>
          (b.put (key profile chat) e).encode).or disk
      else disk := by
  unfold handle
  by_cases hread : env.Readable disk
  · rw [load_of_readable hdisk hread, ← respond_saves h, ok_bind]
    cases hresponse : respond b.encode profile chat words env.stamp with
    | error error => simp [Except.toOption]
    | ok response =>
      obtain ⟨text, saved⟩ := response
      cases saved with
      | none => simp [Except.toOption]
      | some value =>
        cases hsaved : env.saved with
        | error error => simp
        | ok => simp [hread, Except.toOption]
  · obtain ⟨error, herror⟩ := load_of_not_readable hdisk hread
    rw [herror, error_bind, if_neg fun h => hread h.1]

end Im
