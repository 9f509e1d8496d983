import Mathlib.Data.List.Induction
import Mathlib.Data.List.Nodup
import RpiPackage.Lib.Decimal
import RpiPackage.Web.Transcript

/-!
# Which rows a list of messages makes

Rows of different messages have different ids, but for the call of a tool and its result.
-/

namespace Transcript

open Js (Value Numeric)

variable {ν : Type*} [Numeric ν]

/-! ### Native messages -/

/-- A text of the form of a UUID: 36 hexadecimal digits and dashes. -/
structure IsUuid (s : String) : Prop where
  length : s.toList.length = 36
  digits : ∀ c ∈ s.toList, c = '-' ∨ c ∈ "0123456789abcdefABCDEF".toList

lemma IsUuid.of_all {s : String} (hlength : s.toList.length = 36)
    (hall : s.toList.all (fun c => c == '-' || "0123456789abcdefABCDEF".toList.contains c) = true) :
    IsUuid s := by
  refine ⟨hlength, fun c hc => ?_⟩
  have h := List.all_eq_true.mp hall c hc
  simpa only [Bool.or_eq_true, beq_iff_eq, List.contains_iff_mem] using h

namespace Platform

variable (P : Platform ν)

def roleOf (message : Value ν) : String := P.displayOr "assistant" (message.get "role")

/-- The tool calls in the blocks of an assistant message. -/
def calls (message : Value ν) : List String :=
  if P.roleOf message = "assistant" then (blocksOf message).filterMap callIdOf else []

/-- The tool call that a message is the result of. -/
def answers (message : Value ν) : Option String :=
  if P.roleOf message = "toolResult" then some (P.answeredCall message (keyOf message 0)) else none

/-- Each message has an entry id of its own, and each tool call is in at most one block and at most
one result, which comes later. -/
structure Paired (messages : List (Value ν)) : Prop where
  isObject : ∀ m ∈ messages, m.isObject = true
  entryId : ∀ m ∈ messages, ∃ key, m.get "entryId" = .string key ∧ IsUuid key
  distinct : (messages.map fun m => (m.get "entryId").asString).Nodup
  calls : (messages.flatMap P.calls).Nodup
  answers : (messages.filterMap P.answers).Nodup
  later : ∀ before m after, messages = before ++ m :: after →
    ∀ id, P.answers m = some id → id ∉ (m :: after).flatMap P.calls

variable {P} {ms ms' : List (Value ν)}

lemma Paired.left (h : P.Paired (ms ++ ms')) : P.Paired ms := by
  refine ⟨fun m hm => h.isObject m (List.mem_append_left _ hm),
    fun m hm => h.entryId m (List.mem_append_left _ hm), ?_, ?_, ?_, ?_⟩
  · exact (List.nodup_append.mp (List.map_append ▸ h.distinct)).1
  · exact (List.nodup_append.mp (List.flatMap_append ▸ h.calls)).1
  · exact (List.nodup_append.mp (List.filterMap_append ▸ h.answers)).1
  · rintro before m after rfl id hid hmem
    refine h.later before m (after ++ ms') (by simp) id hid ?_
    rw [← List.cons_append, List.flatMap_append]
    exact List.mem_append_left _ hmem

lemma Paired.right (h : P.Paired (ms ++ ms')) : P.Paired ms' := by
  refine ⟨fun m hm => h.isObject m (List.mem_append_right _ hm),
    fun m hm => h.entryId m (List.mem_append_right _ hm), ?_, ?_, ?_, ?_⟩
  · exact (List.nodup_append.mp (List.map_append ▸ h.distinct)).2.1
  · exact (List.nodup_append.mp (List.flatMap_append ▸ h.calls)).2.1
  · exact (List.nodup_append.mp (List.filterMap_append ▸ h.answers)).2.1
  · rintro before m after rfl id hid
    exact h.later (ms ++ before) m after (by simp) id hid

lemma Paired.of_cons {m : Value ν} (h : P.Paired (m :: ms)) : P.Paired ms :=
  @Paired.right _ _ P [m] ms h

lemma Paired.keys_ne (h : P.Paired (ms ++ ms')) {m m' : Value ν} (hm : m ∈ ms) (hm' : m' ∈ ms')
    {key key' : String} (hkey : m.get "entryId" = .string key)
    (hkey' : m'.get "entryId" = .string key') : key ≠ key' := by
  rintro rfl
  have hdistinct := h.distinct
  rw [List.map_append, List.nodup_append] at hdistinct
  refine hdistinct.2.2 _ (List.mem_map_of_mem (f := fun m => (m.get "entryId").asString) hm) _
    (List.mem_map_of_mem (f := fun m => (m.get "entryId").asString) hm') ?_
  rw [hkey, hkey']

end Platform

/-! ### The ids of rows -/

/-- The ids of the rows that an entry has to itself. -/
def Own (key id : String) : Prop := id.toList.take 36 = key.toList ∨ id = "compaction-" ++ key

lemma own_append {key : String} (h : IsUuid key) (suffix : String) : Own key (key ++ suffix) := by
  left
  rw [String.toList_append, List.take_append_of_le_length (Nat.le_of_eq h.length.symm),
    List.take_of_length_le (Nat.le_of_eq h.length)]

lemma own_self {key : String} (h : IsUuid key) : Own key key :=
  .inl (List.take_of_length_le (Nat.le_of_eq h.length))

/-- No id of this form starts as a UUID does. -/
lemma not_isUuid_take {key text : String} {n : Nat} {c : Char} (h : IsUuid key)
    (hc : text.toList[n]? = some c) (hn : n < 36)
    (hnot : c ≠ '-' ∧ c ∉ "0123456789abcdefABCDEF".toList) : text.toList.take 36 ≠ key.toList := by
  intro heq
  have hmem : c ∈ key.toList := by
    rw [← heq]
    exact List.mem_of_getElem? (by rw [List.getElem?_take_of_lt hn]; exact hc)
  rcases h.digits c hmem with hdash | hdigit
  · exact hnot.1 hdash
  · exact hnot.2 hdigit

lemma Own.key_eq {key key' id : String} (hkey : IsUuid key) (hkey' : IsUuid key')
    (h : Own key id) (h' : Own key' id) : key = key' := by
  have hcompaction : ∀ k : String, ("compaction-" ++ k).toList[1]? = some 'o' := by
    intro k
    rw [String.toList_append]
    rfl
  rcases h with h | h <;> rcases h' with h' | h'
  · exact String.toList_inj.mp (h.symm.trans h')
  · exact absurd h (not_isUuid_take hkey (h' ▸ hcompaction key') (by decide) (by decide))
  · exact absurd h' (not_isUuid_take hkey' (h ▸ hcompaction key) (by decide) (by decide))
  · have heq := congrArg String.toList (h.symm.trans h')
    rw [String.toList_append, String.toList_append] at heq
    exact String.toList_inj.mp (List.append_cancel_left heq)

lemma call_inj {id id' : String} (h : "call-" ++ id = "call-" ++ id') : id = id' := by
  have heq := congrArg String.toList h
  rw [String.toList_append, String.toList_append] at heq
  exact String.toList_inj.mp (List.append_cancel_left heq)

lemma not_own_call {key : String} (h : IsUuid key) (id : String) : ¬Own key ("call-" ++ id) := by
  rintro (hown | hown)
  · refine not_isUuid_take (n := 2) (c := 'l') h ?_ (by decide) (by decide) hown
    rw [String.toList_append]
    rfl
  · have heq := congrArg (fun s => s.toList[1]?) hown
    simp [String.toList_append] at heq

/-! ### Where rows come from -/

/-- A row of these messages: a tool row of a call or of a result, another row of one entry. -/
structure Row.ComesOf (P : Platform ν) (ms : List (Value ν)) (row : Row ν) : Prop where
  entry : ∃ m ∈ ms, ∃ key, m.get "entryId" = .string key ∧ row.entryId = some key
  tool : ∀ t, row.content = .tool t → ∃ id, row.id = "call-" ++ id ∧
    (id ∈ ms.flatMap P.calls ∨ id ∈ ms.filterMap P.answers ∧ isUndefined t.result = false)
  own : (∀ t, row.content ≠ .tool t) →
    ∃ m ∈ ms, ∃ key, m.get "entryId" = .string key ∧ IsUuid key ∧ Own key row.id

variable {P : Platform ν} {ms ms' : List (Value ν)} {row row' : Row ν}

lemma Row.ComesOf.mono (h : row.ComesOf P ms) (hsub : ms ⊆ ms') : row.ComesOf P ms' := by
  refine ⟨?_, fun t ht => ?_, fun hnot => ?_⟩
  · obtain ⟨m, hm, hentry⟩ := h.entry
    exact ⟨m, hsub hm, hentry⟩
  · obtain ⟨id, hid, hcall | ⟨hanswer, hresult⟩⟩ := h.tool t ht
    · obtain ⟨m, hm, hmem⟩ := List.mem_flatMap.mp hcall
      exact ⟨id, hid, .inl (List.mem_flatMap.mpr ⟨m, hsub hm, hmem⟩)⟩
    · obtain ⟨m, hm, hmem⟩ := List.mem_filterMap.mp hanswer
      exact ⟨id, hid, .inr ⟨List.mem_filterMap.mpr ⟨m, hsub hm, hmem⟩, hresult⟩⟩
  · obtain ⟨m, hm, hown⟩ := h.own hnot
    exact ⟨m, hsub hm, hown⟩

omit [Numeric ν] in
lemma Row.isTool_iff {id : String} :
    row.isTool id = true ↔ (∃ t, row.content = .tool t) ∧ row.id = id := by
  unfold Row.isTool
  cases hcontent : row.content <;> simp

/-- A row of earlier messages and one of later ones have the same id only as a tool call and its
result. -/
lemma Row.ComesOf.eq_call (hp : P.Paired (ms ++ ms')) (h : row.ComesOf P ms)
    (h' : row'.ComesOf P ms') (hid : row.id = row'.id) :
    ∃ id, row.id = "call-" ++ id ∧ id ∈ ms.flatMap P.calls ∧ id ∈ ms'.filterMap P.answers ∧
      row.isTool row.id = true ∧ row'.isTool row.id = true := by
  by_cases htool : ∃ t, row.content = .tool t
  · obtain ⟨t, ht⟩ := htool
    obtain ⟨id, heq, hof⟩ := h.tool t ht
    by_cases htool' : ∃ t, row'.content = .tool t
    · obtain ⟨t', ht'⟩ := htool'
      obtain ⟨id', heq', hof'⟩ := h'.tool t' ht'
      obtain rfl : id = id' := call_inj (heq ▸ heq' ▸ hid)
      have hboth : row.isTool row.id = true ∧ row'.isTool row.id = true :=
        ⟨Row.isTool_iff.mpr ⟨⟨t, ht⟩, rfl⟩, Row.isTool_iff.mpr ⟨⟨t', ht'⟩, hid.symm⟩⟩
      have hcalls := hp.calls
      rw [List.flatMap_append, List.nodup_append] at hcalls
      have hanswers := hp.answers
      rw [List.filterMap_append, List.nodup_append] at hanswers
      rcases hof with hcall | ⟨hanswer, -⟩ <;> rcases hof' with hcall' | ⟨hanswer', -⟩
      · exact absurd rfl (hcalls.2.2 id hcall id hcall')
      · exact ⟨id, heq, hcall, hanswer', hboth⟩
      · -- a result before its call
        obtain ⟨m, hm, hmid⟩ := List.mem_filterMap.mp hanswer
        obtain ⟨before, after, rfl⟩ := List.append_of_mem hm
        refine absurd ?_ (hp.later before m (after ++ ms') (by simp) id hmid)
        rw [← List.cons_append, List.flatMap_append]
        exact List.mem_append_right _ hcall'
      · exact absurd rfl (hanswers.2.2 id hanswer id hanswer')
    · obtain ⟨m, hm, key, hkey, huuid, hown⟩ := h'.own (fun t ht => htool' ⟨t, ht⟩)
      rw [← hid, heq] at hown
      exact absurd hown (not_own_call huuid id)
  · obtain ⟨m, hm, key, hkey, huuid, hown⟩ := h.own (fun t ht => htool ⟨t, ht⟩)
    by_cases htool' : ∃ t, row'.content = .tool t
    · obtain ⟨t', ht'⟩ := htool'
      obtain ⟨id, heq, -⟩ := h'.tool t' ht'
      rw [hid, heq] at hown
      exact absurd hown (not_own_call huuid id)
    · obtain ⟨m', hm', key', hkey', huuid', hown'⟩ := h'.own (fun t ht => htool' ⟨t, ht⟩)
      rw [hid] at hown
      exact absurd (Own.key_eq huuid huuid' hown hown') (hp.keys_ne hm hm' hkey hkey')

/-! ### The rows of an assistant message -/

/-- What tells rows apart: the id, and whether it is a tool row. -/
def Row.shape (row : Row ν) : String × Bool :=
  (row.id, match row.content with
    | .tool _ => true
    | _ => false)

omit [Numeric ν] in
lemma Row.isTool_iff_shape {id : String} : row.isTool id = true ↔ row.shape = (id, true) := by
  unfold Row.isTool Row.shape
  cases row.content <;> simp

/-- The rows of the blocks of one message up to a point. -/
structure BlockShapes (pre : String) (done : List (Value ν)) (shapes : List (String × Bool)) :
    Prop where
  nodup : (shapes.map Prod.fst).Nodup
  of : ∀ p ∈ shapes, (∃ id ∈ done.filterMap Platform.callIdOf, p = ("call-" ++ id, true)) ∨
    ∃ i < done.length, p = (pre ++ ":b" ++ i.repr, false)
  covers : ∀ id ∈ done.filterMap Platform.callIdOf, ("call-" ++ id, true) ∈ shapes

omit [Numeric ν] in
lemma isText_unique {v : Value ν} {s t : String} (h : v.isText s = true) (hne : s ≠ t) :
    v.isText t = false := by
  rw [Value.isText_iff.mp h]
  simpa using hne

omit [Numeric ν] in
lemma callIdOf_eq_none {block : Value ν} {kind : String} (h : (block.get "type").isText kind = true)
    (hkind : kind ≠ "toolCall") : Platform.callIdOf block = none := by
  unfold Platform.callIdOf
  rw [isText_unique h hkind]
  rfl

omit [Numeric ν] in
lemma map_shape_setLast {rows : List (Row ν)} {last : String} {entryId : Option String}
    {text text' : String}
    (h : rows.getLast? = some { id := last, content := .text .assistant text, entryId }) :
    (rows.dropLast ++ [({ id := last, content := .text .assistant text', entryId } : Row ν)]).map
      Row.shape = rows.map Row.shape := by
  obtain ⟨init, rfl⟩ := List.getLast?_eq_some_iff.mp h
  rw [List.dropLast_concat, List.map_append, List.map_append]
  rfl

/-- A block adds no row or one: the row of its call, or a row with the number of the block. -/
lemma assistantBlock_shape (pre : String) (rows : List (Row ν)) (block : Value ν) (i : Nat) :
    (P.assistantBlock pre rows (block, i)).map Row.shape = rows.map Row.shape ∧
        Platform.callIdOf block = none ∨
      (P.assistantBlock pre rows (block, i)).map Row.shape =
          rows.map Row.shape ++ [(pre ++ ":b" ++ i.repr, false)] ∧ Platform.callIdOf block = none ∨
      ∃ id, Platform.callIdOf block = some id ∧
        (P.assistantBlock pre rows (block, i)).map Row.shape =
          rows.map Row.shape ++ [("call-" ++ id, true)] := by
  unfold Platform.assistantBlock
  extract_lets block' id isText text thinking
  split
  · rename_i htext
    have hnone : Platform.callIdOf block = none :=
      callIdOf_eq_none (Bool.and_eq_true_iff.mp htext).1 (by decide)
    split
    · exact .inl ⟨rfl, hnone⟩
    · split
      · rename_i last previous entryId hlast
        exact .inl ⟨map_shape_setLast hlast, hnone⟩
      · exact .inr (.inl ⟨List.map_append, hnone⟩)
  · split
    · rename_i himage
      have hnone : Platform.callIdOf block = none := by
        rcases Bool.or_eq_true_iff.mp himage with h | h <;> exact callIdOf_eq_none h (by decide)
      split
      · exact .inr (.inl ⟨List.map_append, hnone⟩)
      · exact .inl ⟨rfl, hnone⟩
    · split
      · rename_i hthinking
        have hnone : Platform.callIdOf block = none := callIdOf_eq_none hthinking (by decide)
        split
        · exact .inl ⟨rfl, hnone⟩
        · exact .inr (.inl ⟨List.map_append, hnone⟩)
      · split
        · rename_i hnone
          exact .inl ⟨rfl, hnone⟩
        · rename_i callId hcall
          exact .inr (.inr ⟨callId, hcall, List.map_append⟩)

lemma BlockShapes.append {pre : String} {done : List (Value ν)} {shapes shapes' : List (String × Bool)}
    {block : Value ν} (hpre : IsUuid pre) (h : BlockShapes pre done shapes)
    (hcalls : ((done ++ [block]).filterMap Platform.callIdOf).Nodup)
    (hstep : shapes' = shapes ∧ Platform.callIdOf block = none ∨
      shapes' = shapes ++ [(pre ++ ":b" ++ done.length.repr, false)] ∧
        Platform.callIdOf block = none ∨
      ∃ id, Platform.callIdOf block = some id ∧ shapes' = shapes ++ [("call-" ++ id, true)]) :
    BlockShapes pre (done ++ [block]) shapes' := by
  have hmore : ∀ p ∈ shapes, (∃ id ∈ (done ++ [block]).filterMap Platform.callIdOf,
      p = ("call-" ++ id, true)) ∨
      ∃ i < (done ++ [block]).length, p = (pre ++ ":b" ++ i.repr, false) := by
    intro p hp
    rcases h.of p hp with ⟨id, hid, rfl⟩ | ⟨i, hi, rfl⟩
    · exact .inl ⟨id, by rw [List.filterMap_append]; exact List.mem_append_left _ hid, rfl⟩
    · exact .inr ⟨i, by rw [List.length_append]; omega, rfl⟩
  have hids : ∀ {new : String}, (∀ p ∈ shapes, p.1 ≠ new) →
      ∀ b, ((shapes ++ [(new, b)]).map Prod.fst).Nodup := by
    intro new hnew b
    rw [List.map_append, List.nodup_append]
    refine ⟨h.nodup, by simp, fun a ha a' ha' => ?_⟩
    obtain ⟨p, hp, rfl⟩ := List.mem_map.mp ha
    rw [List.mem_singleton.mp ha']
    exact hnew p hp
  rcases hstep with ⟨rfl, hnone⟩ | ⟨rfl, hnone⟩ | ⟨id, hsome, rfl⟩
  · refine ⟨h.nodup, hmore, fun id hid => h.covers id ?_⟩
    rwa [List.filterMap_append, List.filterMap_cons_none hnone, List.filterMap_nil,
      List.append_nil] at hid
  · refine ⟨hids (fun p hp => ?_) false, fun p hp => ?_, fun id hid => ?_⟩
    · rcases h.of p hp with ⟨id, -, rfl⟩ | ⟨i, hi, rfl⟩
      · intro heq
        refine not_own_call hpre id ?_
        rw [show "call-" ++ id = _ from heq, String.append_assoc]
        exact own_append hpre _
      · intro heq
        have hlist := congrArg String.toList (show pre ++ ":b" ++ i.repr = _ from heq)
        simp only [String.toList_append] at hlist
        have hrepr := String.toList_inj.mp (List.append_cancel_left hlist)
        exact Nat.ne_of_lt hi (Decimal.repr_injective hrepr)
    · rcases List.mem_append.mp hp with hp | hp
      · exact hmore p hp
      · rw [List.mem_singleton.mp hp]
        exact .inr ⟨done.length, by simp, rfl⟩
    · rw [List.filterMap_append, List.filterMap_cons_none hnone, List.filterMap_nil,
        List.append_nil] at hid
      exact List.mem_append_left _ (h.covers id hid)
  · have hfilter : (done ++ [block]).filterMap Platform.callIdOf =
        done.filterMap Platform.callIdOf ++ [id] := by
      rw [List.filterMap_append, List.filterMap_cons_some hsome, List.filterMap_nil]
    rw [hfilter, List.nodup_append] at hcalls
    refine ⟨hids (fun p hp => ?_) true, fun p hp => ?_, fun id' hid' => ?_⟩
    · rcases h.of p hp with ⟨id', hid', rfl⟩ | ⟨i, hi, rfl⟩
      · intro heq
        exact hcalls.2.2 id' hid' id List.mem_cons_self (call_inj heq)
      · intro heq
        refine not_own_call hpre id ?_
        rw [← show pre ++ ":b" ++ i.repr = _ from heq, String.append_assoc]
        exact own_append hpre _
    · rcases List.mem_append.mp hp with hp | hp
      · exact hmore p hp
      · rw [List.mem_singleton.mp hp, hfilter]
        exact .inl ⟨id, by simp, rfl⟩
    · rw [hfilter] at hid'
      rcases List.mem_append.mp hid' with hid' | hid'
      · exact List.mem_append_left _ (h.covers id' hid')
      · rw [List.mem_singleton.mp hid']
        exact List.mem_append_right _ List.mem_cons_self

lemma rowsFromAssistant_shapes {message : Value ν} {pre : String} (hpre : IsUuid pre)
    (hcalls : ((blocksOf message).filterMap Platform.callIdOf).Nodup) :
    BlockShapes pre (blocksOf message) ((P.rowsFromAssistant message pre).map Row.shape) := by
  unfold Platform.rowsFromAssistant
  generalize blocksOf message = blocks at hcalls ⊢
  induction blocks using List.reverseRecOn with
  | nil => exact ⟨.nil, fun p hp => (by cases hp), fun id hid => (by cases hid)⟩
  | append_singleton done block ih =>
    have hdone : (done.filterMap Platform.callIdOf).Nodup := by
      rw [List.filterMap_append] at hcalls
      exact (List.nodup_append.mp hcalls).1
    rw [List.zipIdx_append, List.foldl_append]
    refine (ih hdone).append hpre hcalls ?_
    simpa using assistantBlock_shape (P := P) pre
      (done.zipIdx.foldl (P.assistantBlock pre) []) block done.length

/-! ### The rows that a message adds -/

/-- A message adds tool rows for its calls and its result, and rows of its own entry. -/
structure MessageShapes (P : Platform ν) (message : Value ν) (key : String)
    (shapes : List (String × Bool)) : Prop where
  nodup : (shapes.map Prod.fst).Nodup
  of : ∀ p ∈ shapes, (∃ id, (id ∈ P.calls message ∨ P.answers message = some id) ∧
    p = ("call-" ++ id, true)) ∨ p.2 = false ∧ Own key p.1
  covers : ∀ id ∈ P.calls message, ("call-" ++ id, true) ∈ shapes

/-- A message without calls that adds one row, or none. -/
lemma MessageShapes.of_own {message : Value ν} {key : String} (hcalls : P.calls message = [])
    {ids : List String} (hnodup : ids.Nodup) (hown : ∀ id ∈ ids, Own key id) :
    MessageShapes P message key (ids.map fun id => (id, false)) := by
  refine ⟨?_, fun p hp => ?_, fun id hid => ?_⟩
  · simpa [Function.comp_def] using hnodup
  · obtain ⟨id, hid, rfl⟩ := List.mem_map.mp hp
    exact .inr ⟨rfl, hown id hid⟩
  · rw [hcalls] at hid
    cases hid

omit [Numeric ν] in
lemma rowsFromUser_shapes {message : Value ν} {key : String} (hkey : IsUuid key) :
    ∃ ids : List String, (Platform.rowsFromUser message key).map Row.shape =
        ids.map (fun id => (id, false)) ∧ ids.Nodup ∧ ∀ id ∈ ids, Own key id := by
  set images := (imageBlocksOf message).zipIdx.map Prod.snd with himages
  have hnodup : (images.map fun i => key ++ ":image" ++ i.repr).Nodup := by
    refine List.Nodup.map (fun i j hij => ?_) ?_
    · have hlist := congrArg String.toList hij
      simp only [String.toList_append] at hlist
      exact Decimal.repr_injective (String.toList_inj.mp (List.append_cancel_left hlist))
    · rw [himages, List.zipIdx_map_snd]
      exact List.nodup_range' _
  have hown : ∀ id ∈ images.map (fun i => key ++ ":image" ++ i.repr), Own key id := by
    intro id hid
    obtain ⟨i, -, rfl⟩ := List.mem_map.mp hid
    rw [String.append_assoc]
    exact own_append hkey _
  unfold Platform.rowsFromUser
  split
  · refine ⟨_, ?_, hnodup, hown⟩
    rw [himages, List.nil_append, List.map_map, List.map_map, List.map_map]
    rfl
  · refine ⟨key :: images.map fun i => key ++ ":image" ++ i.repr, ?_, ?_, ?_⟩
    · rw [himages, List.singleton_append, List.map_cons, List.map_cons, List.map_map, List.map_map,
        List.map_map]
      rfl
    · refine List.nodup_cons.mpr ⟨fun hmem => ?_, hnodup⟩
      obtain ⟨i, -, heq⟩ := List.mem_map.mp hmem
      have hlength := congrArg (fun s => s.toList.length) heq
      simp [String.toList_append] at hlength
    · intro id hid
      rcases List.mem_cons.mp hid with rfl | hid
      · exact own_self hkey
      · exact hown id hid

lemma project_of_not_answers {message : Value ν} (h : P.answers message = none)
    (rows : List (Row ν)) (key : String) :
    P.project rows message key = (rows, (P.project [] message key).2) := by
  have hrole : P.displayOr "assistant" (message.get "role") ≠ "toolResult" := by
    intro hrole
    simp [Platform.answers, Platform.roleOf, hrole] at h
  unfold Platform.project
  dsimp only
  split
  · rfl
  · split
    · rfl
    · split <;> rfl

lemma project_of_answers {message : Value ν} {id key : String} (h : P.answers message = some id)
    (hkey : Platform.keyOf message 0 = key) (rows : List (Row ν)) :
    P.project rows message key =
      if rows.any (Row.isTool ("call-" ++ id)) then
        (First.update (Row.isTool ("call-" ++ id)) (Row.updateTool (P.foldResult message)) rows,
          [{ id := key ++ ":end", content := .boundary }])
      else (rows, [{ id := "call-" ++ id, content := .tool (P.resultRow message) },
        { id := key ++ ":end", content := .boundary }]) := by
  unfold Platform.answers at h
  split at h
  · rename_i hrole
    cases h
    have hrole' : P.displayOr "assistant" (message.get "role") = "toolResult" := hrole
    unfold Platform.project
    dsimp only
    rw [hrole', if_neg (by decide), if_neg (by decide), if_pos rfl, hkey]
  · cases h

/-- The rows that a message other than a result adds. -/
lemma messageShapes_of_not_answers {message : Value ν} {key : String} (hkey : IsUuid key)
    (h : P.answers message = none) (hcalls : (P.calls message).Nodup) :
    MessageShapes P message key ((P.project [] message key).2.map Row.shape) := by
  by_cases hassistant : P.roleOf message = "assistant"
  · have hcalls' : P.calls message = (blocksOf message).filterMap Platform.callIdOf := by
      rw [Platform.calls, if_pos hassistant]
    have hproject : (P.project [] message key).2 = P.rowsFromAssistant message key := by
      unfold Platform.project
      dsimp only
      rw [show P.displayOr "assistant" (message.get "role") = "assistant" from hassistant,
        if_neg (by decide), if_pos rfl]
    rw [hproject]
    obtain ⟨hnodup, hof, hcovers⟩ := rowsFromAssistant_shapes (P := P) hkey (hcalls' ▸ hcalls)
    refine ⟨hnodup, fun p hp => ?_, fun id hid => hcovers id (hcalls' ▸ hid)⟩
    rcases hof p hp with ⟨id, hid, rfl⟩ | ⟨i, -, rfl⟩
    · exact .inl ⟨id, .inl (hcalls' ▸ hid), rfl⟩
    · refine .inr ⟨rfl, ?_⟩
      rw [String.append_assoc]
      exact own_append hkey _
  · have hnone : P.calls message = [] := by rw [Platform.calls, if_neg hassistant]
    have hother : ∃ ids : List String, (P.project [] message key).2.map Row.shape =
        ids.map (fun id => (id, false)) ∧ ids.Nodup ∧ ∀ id ∈ ids, Own key id := by
      unfold Platform.project
      dsimp only
      split
      · exact rowsFromUser_shapes hkey
      · split
        · rename_i hrole
          exact absurd hrole hassistant
        · split
          · rename_i hrole
            simp [Platform.answers, Platform.roleOf, hrole] at h
          · split
            · exact ⟨["compaction-" ++ key], rfl, by simp, by simp [Own]⟩
            · split
              · exact ⟨[], rfl, .nil, by simp⟩
              · exact ⟨[key], rfl, by simp, by simpa using own_self hkey⟩
    obtain ⟨ids, heq, hnodup, hown⟩ := hother
    rw [heq]
    exact .of_own hnone hnodup hown

lemma calls_of_answers {message : Value ν} {id : String} (h : P.answers message = some id) :
    P.calls message = [] := by
  unfold Platform.answers at h
  split at h
  · rename_i hrole
    rw [Platform.calls, hrole, if_neg (by decide)]
  · cases h

lemma isUndefined_resultOf (message : Value ν) : isUndefined (P.resultOf message) = false := by
  unfold Platform.resultOf
  split
  · rfl
  · split
    · cases message.get "content" <;> rfl
    · rfl

/-! ### Rows of a list of messages -/

/-- The rows of a list of messages. -/
structure Projected (P : Platform ν) (ms : List (Value ν)) (rows : List (Row ν)) : Prop where
  nodup : (rows.map Row.id).Nodup
  of : ∀ row ∈ rows, row.ComesOf P ms
  covers : ∀ id, id ∈ ms.flatMap P.calls ∨ id ∈ ms.filterMap P.answers →
    ("call-" ++ id, true) ∈ rows.map Row.shape

lemma projected_nil (P : Platform ν) : Projected P [] [] :=
  ⟨.nil, fun _ h => (by cases h), fun _ h => (by simp at h)⟩

lemma shape_updateTool (f : ToolRow ν → ToolRow ν) (row : Row ν) :
    (row.updateTool f).shape = row.shape := by
  unfold Row.updateTool
  split
  · rename_i t ht
    simp [Row.shape, ht]
  · rfl

lemma entryId_updateTool (f : ToolRow ν → ToolRow ν) (row : Row ν) :
    (row.updateTool f).entryId = row.entryId := by
  unfold Row.updateTool
  split <;> rfl

lemma comesOf_foldResult {message : Value ν} (h : row.ComesOf P ms) :
    (row.updateTool (P.foldResult message)).ComesOf P ms := by
  unfold Row.updateTool
  split
  · rename_i t ht
    refine ⟨h.entry, fun t' ht' => ?_, fun hnot => absurd rfl (hnot _)⟩
    cases ht'
    obtain ⟨id, hid, hof⟩ := h.tool t ht
    exact ⟨id, hid, hof.imp_right fun hanswer => ⟨hanswer.1, isUndefined_resultOf message⟩⟩
  · exact h

/-- A message leaves the rows that are there in their places, and answers at most one of them. -/
lemma project_fst (rows : List (Row ν)) (message : Value ν) (key : String) :
    (P.project rows message key).1.map Row.shape = rows.map Row.shape ∧
      (P.project rows message key).1.map Row.entryId = rows.map Row.entryId ∧
      ((∀ row ∈ rows, row.ComesOf P ms) →
        ∀ row ∈ (P.project rows message key).1, row.ComesOf P ms) := by
  have hsame : (P.project rows message key).1 = rows ∨ ∃ id, (P.project rows message key).1 =
      First.update (Row.isTool id) (Row.updateTool (P.foldResult message)) rows := by
    unfold Platform.project
    dsimp only
    split
    · exact .inl rfl
    · split
      · exact .inl rfl
      · split
        · split
          · exact .inr ⟨_, rfl⟩
          · exact .inl rfl
        · split <;> exact .inl rfl
  rcases hsame with heq | ⟨id, heq⟩
  · rw [heq]
    exact ⟨rfl, rfl, fun h => h⟩
  · rw [heq]
    refine ⟨First.map_update fun row _ _ => shape_updateTool _ row,
      First.map_update fun row _ _ => entryId_updateTool _ row, fun h row hrow => ?_⟩
    rcases First.mem_or_of_mem_update hrow with hold | ⟨old, hold, -, rfl⟩
    · exact h row hold
    · exact comesOf_foldResult (h old hold)

lemma map_id_eq (rows : List (Row ν)) : rows.map Row.id = (rows.map Row.shape).map Prod.fst := by
  rw [List.map_map]
  rfl

/-- The rows that a message adds, under its entry id. -/
def addedRows (P : Platform ν) (rows : List (Row ν)) (message : Value ν) (key : String) :
    List (Row ν) :=
  (P.project rows message key).2.map fun row => { row with entryId := some key <|> row.entryId }

lemma addMessage_eq {message : Value ν} {key : String} (hobject : message.isObject = true)
    (hkey : message.get "entryId" = .string key) (rows : List (Row ν)) (i : Nat) :
    P.addMessage rows (message, i) =
      (P.project rows message key).1 ++ addedRows P rows message key := by
  unfold Platform.addMessage
  rw [if_pos hobject]
  have hkeyOf : Platform.keyOf message i = key := by rw [Platform.keyOf, hkey]; rfl
  dsimp only
  rw [hkeyOf, hkey]
  rfl

lemma shape_addedRows (rows : List (Row ν)) (message : Value ν) (key : String) :
    (addedRows P rows message key).map Row.shape =
      (P.project rows message key).2.map Row.shape := by
  rw [addedRows, List.map_map]
  rfl

lemma any_isTool_iff {id : String} {rows : List (Row ν)} :
    rows.any (Row.isTool id) = true ↔ (id, true) ∈ rows.map Row.shape := by
  simp only [List.any_eq_true, Row.isTool_iff_shape, List.mem_map]

/-- The rows of a message come of it, when the row of a result shows the result. -/
lemma comesOf_addedRows {message : Value ν} {key : String}
    (hkey : message.get "entryId" = .string key) (huuid : IsUuid key) {added : List (Row ν)}
    (h : MessageShapes P message key (added.map Row.shape))
    (hentry : ∀ row ∈ added, row.entryId = some key)
    (hresult : ∀ row ∈ added, ∀ t, row.content = .tool t → P.answers message ≠ none →
      isUndefined t.result = false) : ∀ row ∈ added, row.ComesOf P [message] := by
  intro row hrow
  refine ⟨⟨message, List.mem_cons_self, key, hkey, hentry row hrow⟩, fun t ht => ?_, fun hnot => ?_⟩
  · have hshape : row.shape.2 = true := by simp [Row.shape, ht]
    rcases h.of _ (List.mem_map_of_mem (f := Row.shape) hrow) with ⟨id, hid, heq⟩ | ⟨hfalse, -⟩
    · refine ⟨id, congrArg Prod.fst heq, ?_⟩
      rcases hid with hcall | hanswer
      · exact .inl (by simpa using hcall)
      · exact .inr ⟨by simp [hanswer], hresult row hrow t ht (by simp [hanswer])⟩
    · rw [hshape] at hfalse
      cases hfalse
  · rcases h.of _ (List.mem_map_of_mem (f := Row.shape) hrow) with ⟨id, -, heq⟩ | ⟨-, hown⟩
    · obtain ⟨⟨t, ht⟩, -⟩ := Row.isTool_iff.mp (Row.isTool_iff_shape.mpr heq)
      exact absurd ht (hnot t)
    · exact ⟨message, List.mem_cons_self, key, hkey, huuid, hown⟩

/-- What a message adds is its own, with a row of the call that it answers only if that is
missing. -/
lemma addedRows_spec {message : Value ν} {key : String} (hkey : message.get "entryId" = .string key)
    (huuid : IsUuid key) (hcalls : (P.calls message).Nodup) (rows : List (Row ν)) :
    MessageShapes P message key ((addedRows P rows message key).map Row.shape) ∧
      (∀ row ∈ addedRows P rows message key, row.ComesOf P [message]) ∧
      ∀ id, P.answers message = some id →
        (("call-" ++ id, true) ∈ (addedRows P rows message key).map Row.shape ↔
          ("call-" ++ id, true) ∉ rows.map Row.shape) := by
  have hentry : ∀ row ∈ addedRows P rows message key, row.entryId = some key := by
    intro row hrow
    obtain ⟨row, -, rfl⟩ := List.mem_map.mp hrow
    rfl
  cases hanswers : P.answers message with
  | none =>
    have hshapes : MessageShapes P message key ((addedRows P rows message key).map Row.shape) := by
      rw [shape_addedRows, project_of_not_answers hanswers]
      exact messageShapes_of_not_answers huuid hanswers hcalls
    refine ⟨hshapes, comesOf_addedRows hkey huuid hshapes hentry ?_, fun id h => by cases h⟩
    intro row _ t _ hsome
    exact absurd hanswers hsome
  | some id =>
    have hkeyOf : Platform.keyOf message 0 = key := by rw [Platform.keyOf, hkey]; rfl
    have hproject := project_of_answers hanswers hkeyOf rows
    have hnone := calls_of_answers hanswers
    have hend : Own key (key ++ ":end") := own_append huuid _
    have hne : "call-" ++ id ≠ key ++ ":end" := fun heq => not_own_call huuid id (heq ▸ hend)
    split at hproject
    · rename_i hany
      have hshapes : MessageShapes P message key ((addedRows P rows message key).map Row.shape) := by
        rw [shape_addedRows, hproject]
        exact .of_own hnone (List.nodup_singleton (key ++ ":end")) (by simpa using hend)
      refine ⟨hshapes, comesOf_addedRows hkey huuid hshapes hentry ?_, ?_⟩
      · intro row hrow t ht _
        rw [addedRows, hproject] at hrow
        obtain rfl := List.mem_singleton.mp hrow
        cases ht
      · rintro _ ⟨⟩
        refine ⟨fun hmem => ?_, fun hnot => absurd (any_isTool_iff.mp hany) hnot⟩
        rw [shape_addedRows, hproject] at hmem
        exact absurd (congrArg Prod.snd (List.mem_singleton.mp hmem)) (by simp [Row.shape])
    · rename_i hany
      have hmap : (addedRows P rows message key).map Row.shape =
          [("call-" ++ id, true), (key ++ ":end", false)] := by
        rw [shape_addedRows, hproject]
        rfl
      have hshapes : MessageShapes P message key ((addedRows P rows message key).map Row.shape) := by
        rw [hmap]
        refine ⟨by simpa using hne, fun p hp => ?_, fun id' hid' => by rw [hnone] at hid'; cases hid'⟩
        simp only [List.mem_cons, List.not_mem_nil, or_false] at hp
        rcases hp with rfl | rfl
        · exact .inl ⟨id, .inr hanswers, rfl⟩
        · exact .inr ⟨rfl, hend⟩
      refine ⟨hshapes, comesOf_addedRows hkey huuid hshapes hentry ?_, ?_⟩
      · intro row hrow t ht _
        rw [addedRows, hproject] at hrow
        simp only [List.map_cons, List.map_nil, List.mem_cons, List.not_mem_nil, or_false] at hrow
        rcases hrow with rfl | rfl
        · cases ht
          exact isUndefined_resultOf message
        · cases ht
      · rintro _ ⟨⟩
        rw [hmap]
        refine ⟨fun _ hmem => hany (any_isTool_iff.mpr hmem), fun _ => List.mem_cons_self⟩

end Transcript
