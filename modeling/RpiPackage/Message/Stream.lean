import RpiPackage.Message.Projection

/-!
# Compact and snapshot streams

The same reply comes out of a compact stream and of the snapshots the live projection makes of it,
as long as the deltas address the last block of their kind and no snapshot falls behind.
-/

namespace Message

open Json Result

/-! ### Blocks -/

/-- The text of the last block of a kind, if that block has one. -/
def lastText (blocks : List Value) (content : Content) : Option String :=
  (blocks.filter (isBlock content)).getLast?.bind fun block => (block.index content.name).asStr

lemma parts_ne_nil_of_lastText {blocks : List Value} {content : Content} {text : String}
    (h : lastText blocks content = some text) : parts blocks content ≠ [] := by
  obtain ⟨block, hlast, htext⟩ := Option.bind_eq_some_iff.mp h
  intro hnil
  have hnone := List.filterMap_eq_nil_iff.mp hnil block (List.mem_of_getLast? hlast)
  cases hnone.symm.trans htext

section

variable {content other : Content} {before after : List Value} {block block' : Value}

lemma filter_last (hblock : isBlock content block = true)
    (hafter : ∀ other ∈ after, isBlock content other = false) :
    (before ++ block :: after).filter (isBlock content) =
      before.filter (isBlock content) ++ [block] := by
  have hnil : after.filter (isBlock content) = [] := by
    rw [List.filter_eq_nil_iff]
    intro other hother
    simp [hafter other hother]
  rw [List.filter_append, List.filter_cons_of_pos hblock, hnil]

lemma filter_other (hblock : isBlock other block = false) (hblock' : isBlock other block' = false) :
    (before ++ block' :: after).filter (isBlock other) =
      (before ++ block :: after).filter (isBlock other) := by
  simp [hblock, hblock']

/-- A block is of one kind only. -/
lemma isBlock_ne (h : other ≠ content) (hblock : isBlock content block = true) :
    isBlock other block = false := by
  rw [isBlock, beq_iff_eq] at hblock
  rw [isBlock, hblock]
  cases content <;> cases other <;> first | rfl | exact absurd rfl h

end

/-! ### The text accumulated so far -/

/-- The text sent so far and the blocks of the current message: the blocks are not ahead, and a
delta that can extend the last one finds them level. -/
structure Level (blocks : List Value) (content : Content) (sent : String) : Prop where
  behind : ∃ rest, sent = String.join (parts blocks content) ++ rest
  level : (lastText blocks content).isSome = true → String.join (parts blocks content) = sent

/-- The current message of the live projection goes with the text sent so far. -/
def Tracks (live : LiveMessageProjection) (p : MessageProjection) : Prop :=
  ∀ message ∈ live.message, (message.index "role").asStr = some "assistant" ∧
    ∀ blocks, (message.index "content").asArray = some blocks →
      ∀ content, Level blocks content (p.sent content)

lemma tracks_none {live : LiveMessageProjection} (h : live.message = none)
    (p : MessageProjection) : Tracks live p := by
  intro message hmessage
  cases h.symm.trans hmessage

lemma Tracks.congr {live live' : LiveMessageProjection} {p p' : MessageProjection}
    (h : Tracks live p) (hmessage : live'.message = live.message)
    (hsent : ∀ content, p'.sent content = p.sent content) : Tracks live' p' := by
  intro message hcurrent
  obtain ⟨hrole, hlevel⟩ := h message (hmessage ▸ hcurrent)
  exact ⟨hrole, fun blocks hblocks content => hsent content ▸ hlevel blocks hblocks content⟩

/-! ### What a frame may be -/

/-- The content an update of the live projection belongs to. -/
def updateContent (event : Value) : Option Content :=
  match updateKind event with
  | "text_delta" => some .text
  | "thinking_delta" => some .thinking
  | _ => none

def isAssistant (event : Value) : Bool :=
  ((event.index "message").index "role").asStr == some "assistant"

/-- A frame of a native stream: deltas address the last block of their kind in the current message,
snapshots extend the content accumulated so far, or equal it. -/
structure Native (live : LiveMessageProjection) (p : MessageProjection) (event : Value) :
    Prop where
  delta : (event.index "type").asStr = some "message_update" → isAssistant event = false →
    ∀ content text, updateContent event = some content →
      (event.index "delta").asStr = some text →
        (event.index "message").isNull = true ∧
          ∃ message before block after, live.message = some message ∧
            (message.index "content").asArray = some (before ++ block :: after) ∧
            contentIndex event = some before.length ∧ isBlock content block = true ∧
            ∀ other ∈ after, isBlock content other = false
  snapshot : isMessage (event.index "type").asStr = true →
    (event.index "type").asStr ≠ some "message_start" → isAssistant event = true →
      ∀ blocks, ((event.index "message").index "content").asArray = some blocks →
        ∀ content, parts blocks content ≠ [] →
          ∃ rest, String.join (parts blocks content) = p.sent content ++ rest

/-- A frame that names the kind of its delta, and whose message has had its identity from the first
frame on. -/
structure InStep (live : LiveMessageProjection) (p : MessageProjection) (event : Value) : Prop
    extends Native live p event where
  named : (event.index "type").asStr = some "message_update" → isAssistant event = false →
    ∀ content, updateContent event = some content → deltaContent event = some content
  identity : isMessage (event.index "type").asStr = true →
    (event.index "type").asStr ≠ some "message_start" → live.message.isSome = true →
      ∀ rawId id, event.get "messageId" = some rawId → validatedMessageId rawId = .ok id →
        live.messageId = some id

/-! ### The projection of a snapshot -/

namespace MessageProjection

variable {p : MessageProjection} {blocks : List Value} {content : Content} {event : Value}

/-- A kind that the snapshot is behind in adds nothing. -/
lemma appendParts_behind (h : ∃ rest, p.sent content = String.join (parts blocks content) ++ rest) :
    p.appendParts false blocks content = .ok (p, []) := by
  obtain ⟨rest, hrest⟩ := h
  unfold appendParts
  split
  · rfl
  · have happend := appendSnapshot_delayed (String.join (parts blocks content)) rest content
    rw [← hrest] at happend
    rw [happend, ok_bind]
    simp

lemma appendParts_delta {text : String} (hparts : parts blocks content ≠ [])
    (h : String.join (parts blocks content) = p.sent content ++ text) :
    p.appendParts false blocks content =
      .ok (p.setSent content (p.sent content ++ text),
        if text = "" then [] else [update content text]) := by
  unfold appendParts
  rw [if_neg hparts, h, appendSnapshot_append, ok_bind]
  by_cases htext : text = ""
  · simp [htext]
  · simp only [htext, if_false, Bool.false_eq_true]
    rw [← repaired_setSent p content (p.sent content ++ text)]
    rfl

/-- A snapshot that extends the content sent so far brings it level. -/
lemma appendParts_level (ending : Bool)
    (h : parts blocks content ≠ [] →
      ∃ rest, String.join (parts blocks content) = p.sent content ++ rest) :
    ∃ q updates, p.appendParts ending blocks content = .ok (q, updates) ∧
      Level blocks content (q.sent content) ∧
        ∀ other, other ≠ content → q.sent other = p.sent other := by
  unfold appendParts
  by_cases hparts : parts blocks content = []
  · refine ⟨p, [], if_pos hparts, ⟨⟨p.sent content, by rw [hparts]; simp⟩, fun hlast => ?_⟩,
      fun _ _ => rfl⟩
    obtain ⟨text, htext⟩ := Option.isSome_iff_exists.mp hlast
    exact absurd hparts (parts_ne_nil_of_lastText htext)
  · obtain ⟨rest, hrest⟩ := h hparts
    rw [if_neg hparts, hrest, appendSnapshot_append, ok_bind]
    refine ⟨_, _, rfl, ?_, ?_⟩
    · rw [sent_repaired, sent_setSent, ← hrest]
      exact ⟨⟨"", by simp⟩, fun _ => rfl⟩
    · intro other hother
      rw [sent_repaired, sent_setSent_ne hother]

/-- A snapshot of the current message after a delta yields what the delta yields. -/
lemma snapshot_delta {text : String}
    (hblocks : ((event.index "message").index "content").asArray = some blocks)
    (hevent : deltaContent event = some content)
    (hblock : blocks.any (isBlock content) = true) (hparts : parts blocks content ≠ [])
    (hcontent : String.join (parts blocks content) = p.sent content ++ text)
    (hbehind : ∀ other, other ≠ content →
      ∃ rest, p.sent other = String.join (parts blocks other) ++ rest) :
    p.snapshot event false =
      (p.setSent content (p.sent content ++ text),
        .ok ((if text = "" then [] else [update content text]).map p.withIdentity)) := by
  have hcontents : p.appendContents false blocks [.thinking, .text] =
      (p.setSent content (p.sent content ++ text),
        .ok (if text = "" then [] else [update content text])) := by
    cases content with
    | thinking =>
      have htext : (p.setSent .thinking (p.sent .thinking ++ text)).appendParts false blocks .text =
          .ok (p.setSent .thinking (p.sent .thinking ++ text), []) :=
        appendParts_behind (hbehind .text (by decide))
      simp [appendContents, appendParts_delta hparts hcontent, htext]
    | text =>
      simp [appendContents, appendParts_behind (hbehind .thinking (by decide)),
        appendParts_delta hparts hcontent]
  have hfalls : fallsBack false event blocks = false := by
    simp only [fallsBack, hevent]
    simpa [isBlock] using hblock
  unfold snapshot
  simp only [hblocks, Bool.false_eq_true, if_false, hcontents, hfalls, List.append_nil]
  cases content <;> rfl

/-- A snapshot in which the last delta left the texts as they were yields nothing. -/
lemma snapshot_behind
    (hblocks : ((event.index "message").index "content").asArray = some blocks)
    (hevent : deltaText event = none)
    (hbehind : ∀ content, ∃ rest, p.sent content = String.join (parts blocks content) ++ rest) :
    p.snapshot event false = (p, .ok []) := by
  have hcontents : p.appendContents false blocks [.thinking, .text] = (p, .ok []) := by
    simp [appendContents, appendParts_behind (hbehind .thinking),
      appendParts_behind (hbehind .text)]
  have hdelta : p.delta event = (p, []) := by rw [delta, hevent]
  unfold snapshot
  simp [hblocks, hcontents, hdelta]

lemma delta_eq {text : String} (htype : (event.index "type").asStr = some "message_update")
    (hcontent : deltaContent event = some content)
    (htext : (event.index "delta").asStr = some text) :
    p.delta event =
      (p.setSent content (p.sent content ++ text),
        (if text = "" then [] else [update content text]).map p.withIdentity) := by
  have hdelta : deltaText event = if text = "" then none else some (content, text) := by
    simp [deltaText, htype, hcontent, htext]
  unfold delta
  rw [hdelta]
  by_cases hempty : text = ""
  · simp [hempty]
  · simp only [hempty, if_false]
    cases content <;> rfl

end MessageProjection

/-! ### The projection of a delta -/

lemma deltaField_of_updateContent {event : Value} {content : Content}
    (h : updateContent event = some content) :
    deltaField (updateKind event) = some (content.name, content.name) := by
  unfold updateContent at h
  split at h
  · rename_i hkind
    rw [hkind, ← Option.some.inj h]
    rfl
  · rename_i hkind
    rw [hkind, ← Option.some.inj h]
    rfl
  · cases h

lemma updateContent_of_deltaContent {event : Value} {content : Content}
    (h : deltaContent event = some content) : updateContent event = some content := by
  unfold deltaContent at h
  split at h
  · rename_i hkind
    rw [← Option.some.inj h, updateContent, updateKind, hkind]
    rfl
  · rename_i hkind
    rw [← Option.some.inj h, updateContent, updateKind, hkind]
    rfl
  · cases h

/-- The message with one block replaced. -/
def replaceBlock (message : Value) (before : List Value) (block : Value) (after : List Value) :
    Value :=
  message.set "content" (.array (before ++ block :: after))

section

variable {message : Value} {blocks before after : List Value} {block block' : Value}

lemma replaceBlock_role : ((replaceBlock message before block after).index "role") =
    message.index "role" :=
  Value.index_set_ne message (by decide) _

lemma replaceBlock_content (h : (message.index "content").asArray = some blocks) :
    ((replaceBlock message before block after).index "content").asArray =
      some (before ++ block :: after) := by
  obtain ⟨fields, rfl⟩ := Value.exists_object_of_asArray h
  rw [replaceBlock, Value.index_set_self]
  rfl

/-- A block that is replaced by one of no streamed kind, and was of none, changes no text. -/
lemma level_of_other {content : Content} {sent : String}
    (h : Level (before ++ block :: after) content sent)
    (hblock : isBlock content block = false) (hblock' : isBlock content block' = false) :
    Level (before ++ block' :: after) content sent := by
  have hfilter : (before ++ block' :: after).filter (isBlock content) =
      (before ++ block :: after).filter (isBlock content) := filter_other hblock hblock'
  have hparts : parts (before ++ block' :: after) content = parts (before ++ block :: after) content := by
    rw [parts, hfilter, parts]
  have hlast : lastText (before ++ block' :: after) content =
      lastText (before ++ block :: after) content := by
    rw [lastText, hfilter, lastText]
  exact ⟨hparts ▸ h.behind, hlast ▸ hparts ▸ h.level⟩

end

namespace LiveMessageProjection

variable {fromStr : String → Option Value} {live : LiveMessageProjection} {event : Value}
  {message block : Value} {before after : List Value} {content : Content} {text : String}

/-- A delta extends the block it addresses, if the block has a text. -/
lemma applyDelta_content (hcontent : updateContent event = some content)
    (htext : (event.index "delta").asStr = some text) (hmessage : live.message = some message)
    (hblocks : (message.index "content").asArray = some (before ++ block :: after))
    (hindex : contentIndex event = some before.length) (hblock : isBlock content block = true) :
    live.applyDelta fromStr (contentIndex event) (updateKind event) event =
      match (block.index content.name).asStr with
      | none => (live, event)
      | some old =>
        let block := block.set content.name (.string (old ++ text))
        let message := replaceBlock message before block after
        ({ live with message := some message }, event.set "message" message) := by
  have htype : (block.index "type").asStr = some content.name := by simpa [isBlock] using hblock
  have hname : content.name ≠ "toolCall" := by cases content <;> decide
  rw [hindex]
  unfold applyDelta
  simp only [deltaField_of_updateContent hcontent, htext, hmessage, hblocks,
    List.getElem?_append_right (Nat.le_refl _), Nat.sub_self,
    List.getElem?_cons_zero, htype, ne_eq, not_true_eq_false, if_false, extendBlock, if_neg hname]
  rcases (block.index content.name).asStr with _ | old
  · rfl
  · simp [replaceBlock]

/-- Everything an update that is no delta of a text can do. -/
inductive Applied (live : LiveMessageProjection) (event : Value) :
    LiveMessageProjection × Value → Prop where
  | kept : Applied live event (live, event)
  | blank (message message' : Value) (current : live.message = some message)
      (role : message'.index "role" = message.index "role")
      (content : (message'.index "content").asArray = none) :
      Applied live event ({ live with message := some message' }, event)
  | tool (message : Value) (before : List Value) (block block' : Value) (after : List Value)
      (current : live.message = some message)
      (content : (message.index "content").asArray = some (before ++ block :: after))
      (block_type : (block.index "type").asStr = some "toolCall")
      (block'_type : (block'.index "type").asStr = some "toolCall") :
      Applied live event ({ live with message := some (replaceBlock message before block' after) },
        event.set "message" (replaceBlock message before block' after))

lemma deltaField_of_other {blockType field : String} (hcontent : updateContent event = none)
    (h : deltaField (updateKind event) = some (blockType, field)) : blockType = "toolCall" := by
  unfold deltaField at h
  unfold updateContent at hcontent
  split at h
  · rename_i hkind
    rw [hkind] at hcontent
    cases hcontent
  · rename_i hkind
    rw [hkind] at hcontent
    cases hcontent
  · exact (Prod.mk.inj (Option.some.inj h)).1.symm
  · cases h

lemma applyDelta_other (hcontent : updateContent event = none) :
    Applied live event
      (live.applyDelta fromStr (contentIndex event) (updateKind event) event) := by
  unfold applyDelta
  split
  · rename_i blockType field index text message hfield hindex htext hmessage
    obtain rfl := deltaField_of_other hcontent hfield
    split
    · rename_i hblocks
      refine .blank message _ hmessage ?_ ?_
      · split
        · exact Value.index_set_ne message (by decide) _
        · rfl
      · split
        · rename_i habsent
          rcases message with _ | _ | _ | _ | _ | fields
          · rfl
          · exact hblocks
          · exact hblocks
          · exact hblocks
          · exact hblocks
          · rw [Value.index_set_self]
            rfl
        · exact hblocks
    · rename_i blocks hblocks
      split
      · exact .kept
      · rename_i block hblock
        split
        · exact .kept
        · rename_i htype
          rw [not_ne_iff] at htype
          obtain ⟨hlt, hget⟩ := List.getElem?_eq_some_iff.mp hblock
          have hsplit : blocks = blocks.take index ++ block :: blocks.drop (index + 1) := by
            rw [← hget, List.getElem_cons_drop, List.take_append_drop]
          have hset : ∀ block', blocks.set index block' =
              blocks.take index ++ block' :: blocks.drop (index + 1) := by
            intro block'
            rw [List.set_eq_take_append_cons_drop, if_pos hlt]
          simp only [extendBlock, if_true, hset]
          refine .tool message _ block _ _ hmessage (hsplit ▸ hblocks) htype ?_
          rw [extendTool_type, htype]
  · exact .kept

end LiveMessageProjection

/-! ### One frame on both sides -/

/-- A frame and its projection have the same effect on the reply. -/
structure SameEffect (p : MessageProjection) (event : Value)
    (r : LiveMessageProjection × Value) : Prop where
  same : p.event r.2 = p.event event
  tracks : ∀ updates, (p.event event).2 = .ok updates → Tracks r.1 (p.event event).1

section

variable {fromStr : String → Option Value} {live live' : LiveMessageProjection} {event : Value}
  {p p' : MessageProjection}

lemma isBlock_set {block : Value} {content : Content} (hblock : isBlock content block = true)
    (text : String) : isBlock content (block.set content.name (.string text)) = true := by
  have hname : "type" ≠ content.name := by cases content <;> decide
  rw [isBlock, Value.index_set_ne _ hname]
  exact hblock

/-- The texts of the current message when its last delta has been applied. -/
lemma join_parts_delta (before : List Value) (text : String) {after : List Value} {block : Value}
    {content : Content} {old : String} (hblock : isBlock content block = true)
    (hafter : ∀ other ∈ after, isBlock content other = false)
    (hold : (block.index content.name).asStr = some old) :
    String.join (parts (before ++ block.set content.name (.string (old ++ text)) :: after) content) =
        String.join (parts (before ++ block :: after) content) ++ text ∧
      parts (before ++ block.set content.name (.string (old ++ text)) :: after) content ≠ [] := by
  obtain ⟨fields, rfl⟩ := Value.exists_object_of_asStr hold
  have hblock' := isBlock_set hblock (old ++ text)
  have hnew : (((Value.object fields).set content.name (.string (old ++ text))).index
      content.name).asStr = some (old ++ text) := by
    rw [Value.index_set_self]
    rfl
  rw [parts, parts, filter_last hblock' hafter, filter_last hblock hafter]
  simp [List.filterMap_append, hold, hnew, String.join_append, String.append_assoc]

lemma event_update (htype : (event.index "type").asStr = some "message_update") :
    p.event event =
      match p.identify event false with
      | .error e => (p, .error e)
      | .ok p =>
        if isAssistant event then p.snapshot event false
        else ((p.delta event).1, .ok (p.delta event).2) := by
  simp only [MessageProjection.event, htype, isMessage, or_true, and_self, if_true, isAssistant]
  rfl

lemma identify_set (p : MessageProjection) (event message : Value) (start : Bool) :
    p.identify (event.set "message" message) start = p.identify event start := by
  unfold MessageProjection.identify MessageProjection.incomingId
  rw [Value.get_set_ne event (by decide)]

lemma deltaText_set (event message : Value) :
    MessageProjection.deltaText (event.set "message" message) =
      MessageProjection.deltaText event := by
  unfold MessageProjection.deltaText deltaContent
  simp only [Value.index_set_ne event (show "type" ≠ "message" by decide),
    Value.index_set_ne event (show "eventType" ≠ "message" by decide),
    Value.index_set_ne event (show "delta" ≠ "message" by decide)]

lemma deltaContent_set (event message : Value) :
    deltaContent (event.set "message" message) = deltaContent event := by
  unfold deltaContent
  rw [Value.index_set_ne event (by decide)]

lemma index_message_set {message : Value} {type : String}
    (htype : (event.index "type").asStr = some type) :
    (event.set "message" message).index "message" = message := by
  obtain ⟨fields, rfl⟩ := Value.exists_object_of_asStr htype
  exact Value.index_set_self fields "message" message

/-- A compact frame whose snapshot yields what its delta yields. -/
lemma sameEffect_of_snapshot {message : Value} {blocks : List Value}
    (htype : (event.index "type").asStr = some "message_update")
    (hassistant : isAssistant event = false) (hidentify : p.identify event false = .ok p')
    (hrole : (message.index "role").asStr = some "assistant")
    (hsnapshot : p'.snapshot (event.set "message" message) false =
      ((p'.delta event).1, .ok (p'.delta event).2))
    (hcurrent : live'.message = some message)
    (hblocks : (message.index "content").asArray = some blocks)
    (hlevel : ∀ content, Level blocks content ((p'.delta event).1.sent content)) :
    SameEffect p event (live', event.set "message" message) := by
  have htype' : ((event.set "message" message).index "type").asStr = some "message_update" := by
    rw [Value.index_set_ne event (by decide), htype]
  have hassistant' : isAssistant (event.set "message" message) = true := by
    rw [isAssistant, index_message_set htype, hrole]
    rfl
  have hevent : p.event event = ((p'.delta event).1, .ok (p'.delta event).2) := by
    rw [event_update htype, hidentify]
    simp [hassistant]
  constructor
  · rw [event_update htype', identify_set, hidentify, hevent]
    simp [hassistant', hsnapshot]
  · intro updates _ current hmem
    obtain rfl := Option.some.inj (hcurrent.symm.trans hmem)
    rw [hevent]
    refine ⟨hrole, fun blocks' hblocks' content => ?_⟩
    obtain rfl := Option.some.inj (hblocks.symm.trans hblocks')
    exact hlevel content

/-- A compact frame that is passed on as it is. -/
lemma sameEffect_of_kept (htracks : ∀ updates, (p.event event).2 = .ok updates →
    Tracks live' (p.event event).1) : SameEffect p event (live', event) :=
  ⟨rfl, htracks⟩

/-- The delta of a frame that names no streamed content is none. -/
lemma deltaText_of_other (h : updateContent event = none) :
    MessageProjection.deltaText event = none := by
  have hnone : deltaContent event = none := by
    rcases hcontent : deltaContent event with _ | content
    · rfl
    · cases (updateContent_of_deltaContent hcontent).symm.trans h
  unfold MessageProjection.deltaText
  simp [hnone]

lemma event_compact (htype : (event.index "type").asStr = some "message_update")
    (hassistant : isAssistant event = false) (hidentify : p.identify event false = .ok p') :
    p.event event = ((p'.delta event).1, .ok (p'.delta event).2) := by
  rw [event_update htype, hidentify]
  simp [hassistant]

lemma sameEffect_of_applied {r : LiveMessageProjection × Value}
    (htype : (event.index "type").asStr = some "message_update")
    (hassistant : isAssistant event = false) (hidentify : p.identify event false = .ok p')
    (htracks : Tracks live p') (hcontent : updateContent event = none)
    (h : live.Applied event r) : SameEffect p event r := by
  have hdelta : p'.delta event = (p', []) := by
    rw [MessageProjection.delta, deltaText_of_other hcontent]
  have hevent := event_compact htype hassistant hidentify
  rw [hdelta] at hevent
  cases h with
  | kept => exact sameEffect_of_kept fun _ _ => hevent ▸ htracks
  | blank message message' hcurrent hrole hnone =>
    refine sameEffect_of_kept fun _ _ current hmem => ?_
    obtain rfl := Option.some.inj hmem
    refine ⟨?_, fun blocks hblocks => by cases hnone.symm.trans hblocks⟩
    rw [hrole]
    exact (htracks message hcurrent).1
  | tool message before block block' after hcurrent hblocks hblock hblock' =>
    obtain ⟨hrole, hlevel⟩ := htracks message hcurrent
    have htool : ∀ content block, (block.index "type").asStr = some "toolCall" →
        isBlock content block = false := by
      intro content block hblock
      rw [isBlock, hblock]
      cases content <;> rfl
    have hlevel' : ∀ content, Level (before ++ block' :: after) content (p'.sent content) :=
      fun content => level_of_other (hlevel _ hblocks content) (htool content block hblock)
        (htool content block' hblock')
    have hcontent' : ((replaceBlock message before block' after).index "content").asArray =
        some (before ++ block' :: after) := replaceBlock_content hblocks
    refine sameEffect_of_snapshot htype hassistant hidentify (by rw [replaceBlock_role, hrole]) ?_
      rfl hcontent' (by rw [hdelta]; exact hlevel')
    rw [hdelta]
    refine MessageProjection.snapshot_behind ?_ ?_ fun content => (hlevel' content).behind
    · rw [index_message_set htype, hcontent']
    · rw [deltaText_set, deltaText_of_other hcontent]

/-- A delta that cannot be applied leaves the current message behind. -/
lemma level_append {blocks : List Value} {content : Content} {sent : String}
    (h : Level blocks content sent) (hlast : lastText blocks content = none) (text : String) :
    Level blocks content (sent ++ text) := by
  obtain ⟨rest, hrest⟩ := h.behind
  refine ⟨⟨rest ++ text, by rw [hrest, String.append_assoc]⟩, fun hsome => ?_⟩
  rw [hlast] at hsome
  cases hsome

lemma sameEffect_of_delta {content : Content} {text : String}
    (htype : (event.index "type").asStr = some "message_update")
    (hassistant : isAssistant event = false) (hidentify : p.identify event false = .ok p')
    (htracks : Tracks live p') (hcontent : updateContent event = some content)
    (hdeltaContent : deltaContent event = some content)
    (htext : (event.index "delta").asStr = some text) {message block : Value}
    {before after : List Value} (hcurrent : live.message = some message)
    (hblocks : (message.index "content").asArray = some (before ++ block :: after))
    (hindex : contentIndex event = some before.length) (hblock : isBlock content block = true)
    (hafter : ∀ other ∈ after, isBlock content other = false) :
    SameEffect p event
      (live.applyDelta fromStr (contentIndex event) (updateKind event) event) := by
  obtain ⟨hrole, hlevel⟩ := htracks message hcurrent
  have hdelta := p'.delta_eq htype hdeltaContent htext
  have hlast : lastText (before ++ block :: after) content = (block.index content.name).asStr := by
    rw [lastText, filter_last hblock hafter]
    simp
  rw [LiveMessageProjection.applyDelta_content hcontent htext hcurrent hblocks hindex hblock]
  rcases hold : (block.index content.name).asStr with _ | old
  · refine sameEffect_of_kept fun _ _ current hmem => ?_
    obtain rfl := Option.some.inj (hcurrent.symm.trans hmem)
    rw [event_compact htype hassistant hidentify, hdelta]
    refine ⟨hrole, fun blocks hblocks' other => ?_⟩
    obtain rfl := Option.some.inj (hblocks.symm.trans hblocks')
    by_cases hother : other = content
    · subst hother
      rw [MessageProjection.sent_setSent]
      exact level_append (hlevel _ hblocks other) (hlast.trans hold) text
    · rw [MessageProjection.sent_setSent_ne hother]
      exact hlevel _ hblocks other
  · have hsome : (lastText (before ++ block :: after) content).isSome = true := by
      rw [hlast, hold]
      rfl
    have hequal := (hlevel _ hblocks content).level hsome
    obtain ⟨hjoin, hparts⟩ := join_parts_delta before text hblock hafter hold
    rw [hequal] at hjoin
    have hblock' := isBlock_set hblock (old ++ text)
    have hlevel' : ∀ other, Level
        (before ++ block.set content.name (.string (old ++ text)) :: after) other
        ((p'.setSent content (p'.sent content ++ text)).sent other) := by
      intro other
      by_cases hother : other = content
      · subst hother
        rw [MessageProjection.sent_setSent, ← hjoin]
        exact ⟨⟨"", by simp⟩, fun _ => rfl⟩
      · rw [MessageProjection.sent_setSent_ne hother]
        exact level_of_other (hlevel _ hblocks other) (isBlock_ne hother hblock)
          (isBlock_ne hother hblock')
    have hcontent' : ((replaceBlock message before
        (block.set content.name (.string (old ++ text))) after).index "content").asArray =
          some (before ++ block.set content.name (.string (old ++ text)) :: after) :=
      replaceBlock_content hblocks
    refine sameEffect_of_snapshot htype hassistant hidentify (by rw [replaceBlock_role, hrole]) ?_
      rfl hcontent' (by rw [hdelta]; exact hlevel')
    rw [hdelta]
    refine MessageProjection.snapshot_delta ?_ ?_ ?_ hparts hjoin ?_
    · rw [index_message_set htype, hcontent']
    · rw [deltaContent_set, hdeltaContent]
    · simp [hblock']
    · intro other hother
      have hbehind := (hlevel' other).behind
      rwa [MessageProjection.sent_setSent_ne hother] at hbehind

/-! ### Snapshots and other frames -/

/-- A delta that falls back belongs to a kind the snapshot has no block of. -/
lemma level_of_fallsBack {blocks : List Value} {content : Content}
    (h : MessageProjection.fallsBack false event blocks = true)
    (hcontent : deltaContent event = some content) (sent : String) : Level blocks content sent := by
  have hnil : blocks.filter (isBlock content) = [] := by
    rw [List.filter_eq_nil_iff]
    simpa [MessageProjection.fallsBack, hcontent, isBlock] using h
  refine ⟨⟨sent, by rw [parts, hnil]; simp⟩, fun hsome => ?_⟩
  rw [lastText, hnil] at hsome
  cases hsome

lemma level_delta {blocks : List Value} (hlevel : ∀ content, Level blocks content (p.sent content))
    (h : MessageProjection.fallsBack false event blocks = true) (content : Content) :
    Level blocks content ((p.delta event).1.sent content) := by
  unfold MessageProjection.delta
  split
  · rename_i other text hdelta
    by_cases hcontent : content = other
    · subst hcontent
      refine level_of_fallsBack h ?_ _
      unfold MessageProjection.deltaText at hdelta
      split at hdelta
      · split at hdelta
        · rename_i hother _
          split at hdelta
          · cases hdelta
          · rw [hother, (Prod.mk.inj (Option.some.inj hdelta)).1]
        · cases hdelta
      · cases hdelta
    · rw [MessageProjection.sent_setSent_ne hcontent]
      exact hlevel content
  · exact hlevel content

/-- A snapshot that is not behind brings the texts level with its blocks. -/
lemma tracks_snapshot (hassistant : isAssistant event = true)
    (hcurrent : live.message = some (event.index "message"))
    (hextends : ∀ blocks, ((event.index "message").index "content").asArray = some blocks →
      ∀ content, parts blocks content ≠ [] →
        ∃ rest, String.join (parts blocks content) = p.sent content ++ rest) :
    Tracks live (p.snapshot event false).1 := by
  intro message hmem
  obtain rfl := Option.some.inj (hcurrent.symm.trans hmem)
  refine ⟨by simpa [isAssistant] using hassistant, fun blocks hblocks => ?_⟩
  obtain ⟨q, thinking, hthinking, hlevel, hothers⟩ :=
    MessageProjection.appendParts_level false (hextends blocks hblocks .thinking)
  have htext : parts blocks .text ≠ [] →
      ∃ rest, String.join (parts blocks .text) = q.sent .text ++ rest := by
    rw [hothers .text (by decide)]
    exact hextends blocks hblocks .text
  obtain ⟨q', text, htext, hlevel', hothers'⟩ := MessageProjection.appendParts_level false htext
  have hcontents : p.appendContents false blocks [.thinking, .text] =
      (q', .ok (thinking ++ (text ++ []))) := by
    simp [MessageProjection.appendContents, hthinking, htext]
  have hlevels : ∀ content, Level blocks content (q'.sent content) := by
    intro content
    cases content with
    | thinking =>
      rw [hothers' .thinking (by decide)]
      exact hlevel
    | text => exact hlevel'
  unfold MessageProjection.snapshot
  simp only [hblocks, Bool.false_eq_true, if_false, hcontents]
  by_cases hfalls : MessageProjection.fallsBack false event blocks = true
  · simp only [hfalls, if_true]
    exact level_delta hlevels hfalls
  · simp only [hfalls]
    exact hlevels

/-- A frame that is no update has no delta. -/
lemma delta_of_not_update (htype : (event.index "type").asStr ≠ some "message_update")
    (p : MessageProjection) : p.delta event = (p, []) := by
  simp [MessageProjection.delta, MessageProjection.deltaText, htype]

lemma event_quiet (htype : (event.index "type").asStr ≠ some "message_update")
    (h : isMessage (event.index "type").asStr = false ∨ isAssistant event = false)
    (p : MessageProjection) : p.event event = (p, .ok []) := by
  unfold MessageProjection.event
  rw [if_neg, delta_of_not_update htype]
  rintro ⟨hmessage, hassistant | hupdate⟩
  · rcases h with h | h
    · cases hmessage.symm.trans h
    · cases hassistant.symm.trans h
  · exact htype hupdate

lemma event_assistant (hmessage : isMessage (event.index "type").asStr = true)
    (hassistant : isAssistant event = true) (p : MessageProjection) :
    p.event event =
      match p.identify event ((event.index "type").asStr == some "message_start") with
      | .error e => (p, .error e)
      | .ok p => p.snapshot event ((event.index "type").asStr == some "message_end") := by
  unfold isAssistant at hassistant
  unfold MessageProjection.event
  dsimp only
  rw [if_pos ⟨hmessage, .inl hassistant⟩]
  rcases p.identify event ((event.index "type").asStr == some "message_start") with e | p'
  · rfl
  · exact if_pos hassistant

/-- An identity that is no valid one is refused on both sides. -/
lemma identify_error (hid : ∃ rawId e, event.get "messageId" = some rawId ∧
    validatedMessageId rawId = .error e) (p : MessageProjection) (start : Bool) :
    ∃ e, p.identify event start = .error e := by
  obtain ⟨rawId, e, hraw, herror⟩ := hid
  have hincoming : MessageProjection.incomingId event = .error e := by
    simp [MessageProjection.incomingId, hraw, herror]
  refine ⟨e, ?_⟩
  rw [MessageProjection.identify, hincoming]
  rfl

/-- A refused identity leaves everything as it is, or is an error. -/
lemma sameEffect_of_refused (htracks : Tracks live p)
    (hmessage : isMessage (event.index "type").asStr = true)
    (hid : ∃ rawId e, event.get "messageId" = some rawId ∧ validatedMessageId rawId = .error e) :
    SameEffect p event (live, event) := by
  refine sameEffect_of_kept fun updates hok => ?_
  by_cases hassistant : isAssistant event = true
  · obtain ⟨e, he⟩ := identify_error hid p ((event.index "type").asStr == some "message_start")
    rw [event_assistant hmessage hassistant, he] at hok
    cases hok
  · rw [Bool.not_eq_true] at hassistant
    by_cases htype : (event.index "type").asStr = some "message_update"
    · obtain ⟨e, he⟩ := identify_error hid p false
      rw [event_update htype, he] at hok
      cases hok
    · rw [event_quiet htype (.inr hassistant)]
      exact htracks

lemma sameEffect_of_error {r : LiveMessageProjection × Value} {e : String}
    (htype : (event.index "type").asStr = some "message_update")
    (hidentify : p.identify event false = .error e)
    (hr : r.2 = event ∨ ∃ message, r.2 = event.set "message" message) : SameEffect p event r := by
  have hevent : p.event event = (p, .error e) := by rw [event_update htype, hidentify]
  constructor
  · rcases hr with hr | ⟨message, hr⟩
    · rw [hr]
    · have htype' : ((event.set "message" message).index "type").asStr = some "message_update" := by
        rw [Value.index_set_ne event (by decide), htype]
      rw [hr, hevent, event_update htype', identify_set, hidentify]
  · intro updates hok
    rw [hevent] at hok
    cases hok

/-- The first frame of a message starts it on both sides. -/
lemma start_sameEffect (htype : (event.index "type").asStr = some "message_start")
    (p : MessageProjection) : SameEffect p event (live.messageFrame fromStr event) := by
  have hmessage : isMessage (event.index "type").asStr = true := by rw [htype]; rfl
  unfold LiveMessageProjection.messageFrame
  simp only [htype, if_true]
  rcases hlive : LiveMessageProjection.default.identify event with _ | live₁
  · exact sameEffect_of_kept fun _ _ => tracks_none rfl _
  · dsimp only
    by_cases hassistant : isAssistant event = true
    · rw [if_pos (by simpa [isAssistant] using hassistant), if_neg (by decide)]
      refine sameEffect_of_kept fun updates hok => ?_
      rw [event_assistant hmessage hassistant, htype] at hok ⊢
      rcases hidentify : p.identify event true with e | p'
      · simp [hidentify] at hok
      · simp only [beq_self_eq_true, hidentify]
        refine tracks_snapshot hassistant rfl fun blocks _ content _ => ?_
        rw [MessageProjection.sent_identify_start hidentify]
        exact ⟨_, (String.empty_append).symm⟩
    · rw [if_neg (by simpa [isAssistant] using hassistant), if_pos (.inl (by decide))]
      refine sameEffect_of_kept fun _ _ => tracks_none ?_ _
      rw [LiveMessageProjection.message_trackTool, LiveMessageProjection.message_identify hlive]
      rfl

/-- An update without a snapshot of its own. -/
lemma compact_sameEffect (htracks : Tracks live p) (hstep : InStep live p event)
    (htype : (event.index "type").asStr = some "message_update")
    (hassistant : isAssistant event = false) (hmessage : live'.message = live.message) :
    SameEffect p event (live'.applyDelta fromStr (contentIndex event) (updateKind event) event) := by
  rcases hidentify : p.identify event false with e | p'
  · exact sameEffect_of_error htype hidentify
      (LiveMessageProjection.applyDelta_event fromStr live' _ _ event)
  · have htracks' : Tracks live' p' :=
      htracks.congr hmessage (MessageProjection.sent_identify hidentify)
    rcases hcontent : updateContent event with _ | content
    · exact sameEffect_of_applied htype hassistant hidentify htracks' hcontent
        (LiveMessageProjection.applyDelta_other hcontent)
    · rcases htext : (event.index "delta").asStr with _ | text
      · have hkept : live'.applyDelta fromStr (contentIndex event) (updateKind event) event =
            (live', event) := by
          simp [LiveMessageProjection.applyDelta, htext]
        have hdelta : p'.delta event = (p', []) := by
          simp [MessageProjection.delta, MessageProjection.deltaText, htext]
        rw [hkept]
        refine sameEffect_of_kept fun _ _ => ?_
        rw [event_compact htype hassistant hidentify, hdelta]
        exact htracks'
      · obtain ⟨-, message, before, block, after, hcurrent, hblocks, hindex, hblock, hafter⟩ :=
          hstep.delta htype hassistant content text hcontent htext
        exact sameEffect_of_delta htype hassistant hidentify htracks' hcontent
          (hstep.named htype hassistant content hcontent) htext (hmessage.trans hcurrent) hblocks hindex hblock hafter

/-- An update with the message of somebody else has no delta. -/
lemma foreign_tracks (htracks : Tracks live p) (hstep : InStep live p event)
    (htype : (event.index "type").asStr = some "message_update")
    (hassistant : isAssistant event = false) (hforeign : (event.index "message").isNull = false)
    (hmessage : live'.message = live.message) : SameEffect p event (live', event) := by
  refine sameEffect_of_kept fun updates hok => ?_
  rcases hidentify : p.identify event false with e | p'
  · rw [event_update htype, hidentify] at hok
    cases hok
  · have hdeltaText : MessageProjection.deltaText event = none := by
      rcases hcontent : deltaContent event with _ | content
      · simp [MessageProjection.deltaText, hcontent]
      · rcases htext : (event.index "delta").asStr with _ | text
        · simp [MessageProjection.deltaText, htext]
        · obtain ⟨hnull, -⟩ := hstep.delta htype hassistant content text
            (updateContent_of_deltaContent hcontent) htext
          cases hforeign.symm.trans hnull
    rw [event_compact htype hassistant hidentify, MessageProjection.delta, hdeltaText]
    exact htracks.congr hmessage (MessageProjection.sent_identify hidentify)

/-- A frame of a message has the same effect on the reply as its projection. -/
lemma messageFrame_sameEffect (htracks : Tracks live p) (hstep : InStep live p event)
    (hmessage : isMessage (event.index "type").asStr = true) :
    SameEffect p event (live.messageFrame fromStr event) := by
  by_cases hstart : (event.index "type").asStr = some "message_start"
  · exact start_sameEffect hstart p
  unfold LiveMessageProjection.messageFrame
  simp only [hstart, if_false]
  rcases hlive : live.identify event with _ | live₁
  · by_cases hnone : live.message = none
    · exact sameEffect_of_kept fun _ _ => tracks_none hnone _
    · refine sameEffect_of_refused htracks hmessage
        (LiveMessageProjection.identify_eq_none hlive (hstep.identity hmessage hstart ?_))
      rw [Option.isSome_iff_ne_none]
      exact hnone
  · have hcurrent : (live₁.trackTool (contentIndex event) (updateKind event) event).message =
        live.message := by
      rw [LiveMessageProjection.message_trackTool, LiveMessageProjection.message_identify hlive]
    dsimp only
    by_cases hassistant : isAssistant event = true
    · rw [if_pos (by simpa [isAssistant] using hassistant)]
      by_cases hend : (event.index "type").asStr = some "message_end"
      · rw [if_pos hend]
        exact sameEffect_of_kept fun _ _ => tracks_none rfl _
      · rw [if_neg hend]
        refine sameEffect_of_kept fun updates hok => ?_
        rw [event_assistant hmessage hassistant, beq_false_of_ne hstart, beq_false_of_ne hend]
          at hok ⊢
        rcases hidentify : p.identify event false with e | p'
        · simp [hidentify] at hok
        · simp only
          refine tracks_snapshot hassistant rfl fun blocks hblocks content hparts => ?_
          rw [MessageProjection.sent_identify hidentify]
          exact hstep.snapshot hmessage hstart hassistant blocks hblocks content hparts
    · rw [if_neg (by simpa [isAssistant] using hassistant)]
      rw [Bool.not_eq_true] at hassistant
      by_cases htype : (event.index "type").asStr = some "message_update"
      · by_cases hforeign : (event.index "message").isNull = false
        · rw [if_pos (.inr hforeign)]
          exact foreign_tracks htracks hstep htype hassistant hforeign hcurrent
        · rw [if_neg (by simp [htype, hforeign])]
          exact compact_sameEffect htracks hstep htype hassistant hcurrent
      · rw [if_pos (.inl htype)]
        refine sameEffect_of_kept fun _ _ => ?_
        rw [event_quiet htype (.inr hassistant)]
        exact htracks.congr hcurrent fun _ => rfl

lemma project_sameEffect (htracks : Tracks live p) (hstep : InStep live p event) :
    SameEffect p event (live.project fromStr event) := by
  have hquiet : isMessage (event.index "type").asStr = false → ∀ updates,
      (p.event event).2 = .ok updates → Tracks live (p.event event).1 := by
    intro hmessage _ _
    rw [event_quiet (by rintro htype; rw [htype] at hmessage; cases hmessage) (.inl hmessage)]
    exact htracks
  unfold LiveMessageProjection.project
  split
  · exact messageFrame_sameEffect htracks hstep (by rename_i htype; rw [htype]; rfl)
  · exact messageFrame_sameEffect htracks hstep (by rename_i htype; rw [htype]; rfl)
  · exact messageFrame_sameEffect htracks hstep (by rename_i htype; rw [htype]; rfl)
  · exact sameEffect_of_kept fun _ _ => tracks_none rfl _
  · exact sameEffect_of_kept fun _ _ => tracks_none rfl _
  · exact sameEffect_of_kept fun _ _ => tracks_none rfl _
  · exact sameEffect_of_kept fun _ _ => tracks_none rfl _
  · rename_i hstart hupdate hend _ _ _ _
    refine sameEffect_of_kept (hquiet ?_)
    unfold isMessage
    split
    · exact absurd ‹_› hstart
    · exact absurd ‹_› hupdate
    · exact absurd ‹_› hend
    · rfl

end

/-! ### Streams -/

/-- The replies to the frames of a stream, up to the first frame that is refused. -/
def MessageProjection.events (p : MessageProjection) :
    List Value → MessageProjection × List (Except String (List Value))
  | [] => (p, [])
  | event :: events =>
    match p.event event with
    | (p, .error e) => (p, [.error e])
    | (p, .ok updates) => ((p.events events).1, .ok updates :: (p.events events).2)

section

variable (fromStr : String → Option Value)

def LiveMessageProjection.projectAll (live : LiveMessageProjection) : List Value → List Value
  | [] => []
  | event :: events =>
    (live.project fromStr event).2 :: (live.project fromStr event).1.projectAll events

/-- Every frame meets a condition on what precedes it. -/
def Follows (C : LiveMessageProjection → MessageProjection → Value → Prop)
    (live : LiveMessageProjection) (p : MessageProjection) : List Value → Prop
  | [] => True
  | event :: events => C live p event ∧ ∀ updates, (p.event event).2 = .ok updates →
      Follows C (live.project fromStr event).1 (p.event event).1 events

variable {fromStr}

lemma events_projectAll {live : LiveMessageProjection} {p : MessageProjection}
    (htracks : Tracks live p) {frames : List Value}
    (h : Follows fromStr InStep live p frames) :
    p.events (live.projectAll fromStr frames) = p.events frames := by
  induction frames generalizing live p with
  | nil => rfl
  | cons event frames ih =>
    obtain ⟨hstep, hrest⟩ := h
    have heffect : SameEffect p event (live.project fromStr event) :=
      project_sameEffect htracks hstep
    rw [LiveMessageProjection.projectAll, MessageProjection.events, MessageProjection.events,
      heffect.same]
    rcases hevent : p.event event with ⟨p', e | updates⟩
    · rfl
    · have hok : (p.event event).2 = .ok updates := by rw [hevent]
      have hih := ih (heffect.tracks updates hok) (hrest updates hok)
      rw [hevent] at hih
      simp only [hih]

end

/-- An assistant message that starts with an empty text. -/
def startFrame (messageId : List (String × Value)) : Value :=
  .object ([("type", .string "message_start"), ("message", .object
    [("role", .string "assistant"),
      ("content", .array [.object [("type", .string "text"), ("text", .string "")]])])] ++ messageId)

def textDelta (text : String) (messageId : List (String × Value)) : Value :=
  .object ([("type", .string "message_update"), ("eventType", .string "text_delta"),
    ("contentIndex", .number (.posInt 0)), ("delta", .string text)] ++ messageId)

lemma native_start (live : LiveMessageProjection) (p : MessageProjection)
    (messageId : List (String × Value)) : Native live p (startFrame messageId) where
  delta htype := absurd (show some "message_start" = some "message_update" from htype) (by decide)
  snapshot _ hstart := absurd rfl hstart

/-- A delta of the only block of the current message. -/
lemma native_textDelta {live : LiveMessageProjection} {message block : Value}
    (hcurrent : live.message = some message)
    (hblocks : (message.index "content").asArray = some [block])
    (hblock : isBlock .text block = true) (p : MessageProjection) (text : String)
    (messageId : List (String × Value)) (hid : messageId.lookup "message" = none) :
    Native live p (textDelta text messageId) where
  delta _ _ content _ hcontent _ := by
    obtain rfl := Option.some.inj hcontent
    refine ⟨?_, message, [], block, [], hcurrent, hblocks, rfl, hblock, by simp⟩
    simp [textDelta, Value.index, hid, List.lookup_cons, Value.isNull]
  snapshot _ _ hassistant := by
    simp [textDelta, isAssistant, Value.index, hid, List.lookup_cons, Value.get, Value.asStr] at hassistant

/-- A message whose frames all carry its identity. -/
def identified : List Value :=
  let messageId := [("messageId", Value.string "entry")]
  [startFrame messageId, textDelta "你" messageId, textDelta "好" messageId]

lemma inStep_textDelta {live : LiveMessageProjection} {p : MessageProjection} {text id : String}
    (h : Native live p (textDelta text [("messageId", .string id)]))
    (hid : live.messageId = some id) : InStep live p (textDelta text [("messageId", .string id)]) where
  toNative := h
  named _ _ content hcontent := hcontent
  identity _ _ _ rawId id' hraw hok := by
    obtain rfl := Option.some.inj hraw
    simp only [validatedMessageId, okOr_eq_ok, Value.asStr_string, Option.filter_eq_some_iff] at hok
    obtain rfl := Option.some.inj hok.1
    exact hid

/-- A message whose identity comes late: the live projection refuses the frame that brings it, and
the snapshots after it lack its delta. -/
def lateIdentity : List Value :=
  [startFrame [], textDelta "a" [("messageId", .string "entry")], textDelta "b" []]

end Message
