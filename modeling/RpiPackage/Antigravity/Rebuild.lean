import RpiPackage.Antigravity.Replay

/-!
# What is told is the message

The reader of the events and the state machine agree, after each of the machine's small steps, on
the blocks that have ended and on the one that is open.
-/

namespace Antigravity

open Json

variable {k : Kind} {r : Replay} {s : State} {nextId : Nat → String} {p : Value}

/-- What is open between two events of the machine. -/
inductive Kind where
  | idle
  | text
  | thinking
  deriving DecidableEq, Repr

def Block.isCall : Block → Bool
  | .toolCall _ => true
  | _ => false

/-- The reason of an unfinished message tells whether it has a tool call. -/
structure Reasoned (output : Output) : Prop where
  toolUse : output.stopReason = .toolUse ↔ output.content.any Block.isCall = true
  error : output.stopReason ≠ .error
  aborted : output.stopReason ≠ .aborted

/-- The reader has what the machine has. -/
inductive Mirrors : Kind → Replay → State → Prop
  | idle {s : State} {ended : List Block} (hcontent : s.output.content = ended)
      (htext : s.textIndex = none) (hthinking : s.thinkingIndex = none)
      (hreasoned : Reasoned s.output) : Mirrors .idle ⟨ended.map Block.piece, none⟩ s
  | text {s : State} {ended : List Block} {t : String} {signature : Option Value}
      (hcontent : s.output.content = ended ++ [.text t signature])
      (htext : s.textIndex = some ended.length) (hthinking : s.thinkingIndex = none)
      (hreasoned : Reasoned s.output) :
      Mirrors .text ⟨ended.map Block.piece, some (.text t)⟩ s
  | thinking {s : State} {ended : List Block} {t : String} {signature : Option Value}
      (hcontent : s.output.content = ended ++ [.thinking t signature])
      (htext : s.textIndex = none) (hthinking : s.thinkingIndex = some ended.length)
      (hreasoned : Reasoned s.output) :
      Mirrors .thinking ⟨ended.map Block.piece, some (.thinking t)⟩ s

lemma Mirrors.reasoned (h : Mirrors k r s) : Reasoned s.output := by
  cases h <;> assumption

lemma Reasoned.of_same {output output' : Output} (h : Reasoned output)
    (hcontent : output'.content = output.content) (hstop : output'.stopReason = output.stopReason) :
    Reasoned output' := by
  refine ⟨?_, ?_, ?_⟩
  · rw [hcontent, hstop]
    exact h.toolUse
  · rw [hstop]
    exact h.error
  · rw [hstop]
    exact h.aborted

/-- Only the blocks, the reason and the two indices matter. -/
lemma Mirrors.of_same {s' : State} (h : Mirrors k r s)
    (hcontent : s'.output.content = s.output.content)
    (hstop : s'.output.stopReason = s.output.stopReason) (htext : s'.textIndex = s.textIndex)
    (hthinking : s'.thinkingIndex = s.thinkingIndex) : Mirrors k r s' := by
  cases h with
  | idle hblocks htext' hthinking' hreasoned =>
    exact .idle (hcontent.trans hblocks) (htext.trans htext') (hthinking.trans hthinking')
      (hreasoned.of_same hcontent hstop)
  | text hblocks htext' hthinking' hreasoned =>
    exact .text (hcontent.trans hblocks) (htext.trans htext') (hthinking.trans hthinking')
      (hreasoned.of_same hcontent hstop)
  | thinking hblocks htext' hthinking' hreasoned =>
    exact .thinking (hcontent.trans hblocks) (htext.trans htext') (hthinking.trans hthinking')
      (hreasoned.of_same hcontent hstop)

lemma Mirrors.one_open (h : Mirrors k r s) : s.textIndex = none ∨ s.thinkingIndex = none := by
  cases h with
  | idle _ htext | thinking _ htext => exact .inl htext
  | text _ _ hthinking => exact .inr hthinking

/-- The reader has the blocks of the message, with the open one last. -/
def Replay.pieces (r : Replay) : List Piece :=
  r.ended ++ match r.current with
    | some (.text t) => [.text t]
    | some (.thinking t) => [.thinking t]
    | _ => []

lemma Mirrors.pieces (h : Mirrors k r s) : r.pieces = s.output.content.map Block.piece := by
  cases h with
  | idle hcontent => simp [Replay.pieces, hcontent]
  | text hcontent | thinking hcontent =>
    rw [hcontent]
    simp [Replay.pieces, Block.piece]

/-- The machine tells what it does, and keeps what its end is known by. -/
structure Speaks (k : Kind) (r : Replay) (reason : Option String) (spoken : Spoken) : Prop where
  mirrors : ∃ r', r.run (spoken.1.map Told.event) = some r' ∧ Mirrors k r' spoken.2
  terminalReason : spoken.2.terminalReason = reason

lemma speaks_nil (h : Mirrors k r s) : Speaks k r s.terminalReason ([], s) := ⟨⟨r, rfl, h⟩, rfl⟩

lemma Speaks.andThen {k' : Kind} {reason : Option String} {spoken : Spoken} {f : State → Spoken}
    (h : Speaks k r reason spoken)
    (hnext : ∀ r' s', Mirrors k r' s' → Speaks k' r' s'.terminalReason (f s')) :
    Speaks k' r reason (spoken.andThen f) := by
  obtain ⟨⟨r', hrun, hmirrors⟩, hterminal⟩ := h
  obtain ⟨⟨r'', hrun', hmirrors'⟩, hterminal'⟩ := hnext r' spoken.2 hmirrors
  refine ⟨⟨r'', ?_, hmirrors'⟩, hterminal'.trans hterminal⟩
  rw [Spoken.andThen, List.map_append, Replay.run_append, hrun]
  exact hrun'

/-- Blocks of the same kinds have the same calls. -/
lemma Reasoned.of_content {output : Output} {content : List Block} (h : Reasoned output)
    (hcalls : content.any Block.isCall = output.content.any Block.isCall) :
    Reasoned { output with content } :=
  ⟨by rw [hcalls]; exact h.toolUse, h.error, h.aborted⟩

namespace State

lemma closeText_speaks (h : Mirrors k r s) :
    Speaks (if k = .text then .idle else k) r s.terminalReason s.closeText := by
  cases h with
  | idle hcontent htext hthinking hreasoned =>
    rw [closeText, htext]
    exact speaks_nil (.idle hcontent htext hthinking hreasoned)
  | thinking hcontent htext hthinking hreasoned =>
    rw [closeText, htext]
    exact speaks_nil (.thinking hcontent htext hthinking hreasoned)
  | @text s ended t signature hcontent htext hthinking hreasoned =>
    have hat : s.textAt ended.length = t := by
      simp [textAt, hcontent]
    rw [closeText, htext]
    dsimp only
    rw [hat]
    refine ⟨⟨⟨s.output.content.map Block.piece, none⟩, ?_, ?_⟩, rfl⟩
    · simp [tell, Replay.next, hcontent, Block.piece]
    · exact .idle rfl rfl hthinking hreasoned

lemma closeThinking_speaks (h : Mirrors k r s) :
    Speaks (if k = .thinking then .idle else k) r s.terminalReason s.closeThinking := by
  cases h with
  | idle hcontent htext hthinking hreasoned =>
    rw [closeThinking, hthinking]
    exact speaks_nil (.idle hcontent htext hthinking hreasoned)
  | text hcontent htext hthinking hreasoned =>
    rw [closeThinking, hthinking]
    exact speaks_nil (.text hcontent htext hthinking hreasoned)
  | @thinking s ended t signature hcontent htext hthinking hreasoned =>
    have hat : s.thinkingAt ended.length = t := by
      simp [thinkingAt, hcontent]
    rw [closeThinking, hthinking]
    dsimp only
    rw [hat]
    refine ⟨⟨⟨s.output.content.map Block.piece, none⟩, ?_, ?_⟩, rfl⟩
    · simp [tell, Replay.next, hcontent, Block.piece]
    · exact .idle rfl htext rfl hreasoned

/-- Nothing stays open. -/
lemma close_speaks (h : Mirrors k r s) :
    Speaks .idle r s.terminalReason (s.closeText.andThen closeThinking) := by
  refine Speaks.andThen (closeText_speaks h) ?_
  intro r' s' h'
  have hclosed := closeThinking_speaks h'
  cases k <;> exact hclosed

lemma openText_speaks (h : Mirrors k r s) (hk : k ≠ .thinking) :
    Speaks .text r s.terminalReason (s.openText p) := by
  cases h with
  | idle hcontent htext hthinking hreasoned =>
    rw [openText, htext]
    obtain rfl := hcontent
    refine ⟨⟨⟨s.output.content.map Block.piece, some (.text "")⟩, ?_, ?_⟩, rfl⟩
    · simp [tell, Replay.next, Replay.begin]
    · exact Mirrors.text rfl rfl hthinking
        (Reasoned.of_content hreasoned (by simp [Block.isCall]))
  | text hcontent htext hthinking hreasoned =>
    rw [openText, htext]
    exact speaks_nil (.text hcontent htext hthinking hreasoned)
  | thinking => exact absurd rfl hk

lemma openThinking_speaks (h : Mirrors k r s) (hk : k ≠ .text) :
    Speaks .thinking r s.terminalReason (s.openThinking p) := by
  cases h with
  | idle hcontent htext hthinking hreasoned =>
    rw [openThinking, hthinking]
    obtain rfl := hcontent
    refine ⟨⟨⟨s.output.content.map Block.piece, some (.thinking "")⟩, ?_, ?_⟩, rfl⟩
    · simp [tell, Replay.next, Replay.begin]
    · exact Mirrors.thinking rfl htext rfl
        (Reasoned.of_content hreasoned (by simp [Block.isCall]))
  | thinking hcontent htext hthinking hreasoned =>
    rw [openThinking, hthinking]
    exact speaks_nil (.thinking hcontent htext hthinking hreasoned)
  | text => exact absurd rfl hk

/-- The block at an index that is the last is changed alone. -/
lemma modify_last (ended : List Block) (block : Block) (f : Block → Block) :
    (ended ++ [block]).modify ended.length f = ended ++ [f block] := by
  induction ended with
  | nil => rfl
  | cons b ended ih =>
    rw [List.cons_append, List.length_cons, List.modify_succ_cons, ih]
    rfl

lemma addText_speaks {text : String} (h : Mirrors .text r s) :
    Speaks .text r s.terminalReason (s.addText p text) := by
  cases h with
  | @text s ended t signature hcontent htext hthinking hreasoned =>
    rw [addText, htext]
    dsimp only
    generalize hadded : (if truthy (p.index "thoughtSignature") then _ else _ : List Block) = content
    have hcontent' : ∃ signature', content = ended ++ [.text (t ++ text) signature'] := by
      rw [hcontent, modify_last, modify_last] at hadded
      split at hadded
      · exact ⟨_, hadded.symm⟩
      · exact ⟨_, hadded.symm⟩
    obtain ⟨signature', rfl⟩ := hcontent'
    refine ⟨⟨⟨ended.map Block.piece, some (.text (t ++ text))⟩, ?_, ?_⟩, rfl⟩
    · simp [tell, Replay.next]
    · exact Mirrors.text rfl htext hthinking
        (Reasoned.of_content hreasoned (by simp [hcontent, Block.isCall]))

lemma addThinking_speaks {text : String} (h : Mirrors .thinking r s) :
    Speaks .thinking r s.terminalReason (s.addThinking p text) := by
  cases h with
  | @thinking s ended t signature hcontent htext hthinking hreasoned =>
    rw [addThinking, hthinking]
    dsimp only
    generalize hadded : (if truthy (p.index "thoughtSignature") then _ else _ : List Block) = content
    have hcontent' : ∃ signature', content = ended ++ [.thinking (t ++ text) signature'] := by
      rw [hcontent, modify_last, modify_last] at hadded
      split at hadded
      · exact ⟨_, hadded.symm⟩
      · exact ⟨_, hadded.symm⟩
    obtain ⟨signature', rfl⟩ := hcontent'
    refine ⟨⟨⟨ended.map Block.piece, some (.thinking (t ++ text))⟩, ?_, ?_⟩, rfl⟩
    · simp [tell, Replay.next]
    · exact Mirrors.thinking rfl htext hthinking
        (Reasoned.of_content hreasoned (by simp [hcontent, Block.isCall]))

lemma callTool_speaks {tool : ToolCall} (h : Mirrors .idle r s) :
    Speaks .idle r s.terminalReason (s.callTool tool) := by
  cases h with
  | idle hcontent htext hthinking hreasoned =>
    obtain rfl := hcontent
    have hmirrors : Mirrors .idle _ (s.callTool tool).2 := .idle rfl htext hthinking
        ⟨by simp [callTool, Spoken.andThen, tell, setContent, Block.isCall],
          by simp [callTool, Spoken.andThen, tell, setContent],
          by simp [callTool, Spoken.andThen, tell, setContent]⟩
    refine ⟨⟨_, ?_, hmirrors⟩, rfl⟩
    simp [callTool, Spoken.andThen, tell, setContent, Replay.next, Replay.begin, Block.piece]

/-- A signature adds nothing that is read. -/
lemma keepSignature_speaks {signature : Value} (h : Mirrors k r s) :
    Speaks k r s.terminalReason ([], s.keepSignature signature) := by
  unfold keepSignature
  split
  · rename_i index hindex
    refine ⟨⟨r, rfl, ?_⟩, rfl⟩
    cases h with
    | idle _ htext | thinking _ htext => rw [htext] at hindex; cases hindex
    | text hcontent htext hthinking hreasoned =>
      obtain rfl := Option.some.inj (htext.symm.trans hindex)
      dsimp only
      rw [hcontent, modify_last]
      exact Mirrors.text rfl htext hthinking
        (Reasoned.of_content hreasoned (by simp [hcontent, Block.isCall, signText]))
  · exact ⟨⟨r, rfl, h.of_same rfl rfl rfl rfl⟩, rfl⟩

/-- A part leaves one kind of block open, or none. -/
lemma part_speaks (h : Mirrors k r s) : ∃ k', Speaks k' r s.terminalReason (s.part nextId p) := by
  unfold part
  split
  · exact ⟨k, keepSignature_speaks h⟩
  · have hpending : ∃ signature, (if truthy (p.index "thought") && !truthy (p.index "text") &&
        truthy (p.index "thoughtSignature") then
          { s with pendingSignature := some (p.index "thoughtSignature") }
        else s) = { s with pendingSignature := signature } := by
      split
      · exact ⟨_, rfl⟩
      · exact ⟨s.pendingSignature, rfl⟩
    obtain ⟨signature, hsignature⟩ := hpending
    rw [hsignature]
    dsimp only
    have hmirrors : Mirrors k r { s with pendingSignature := signature } := h.of_same rfl rfl rfl rfl
    split
    · refine ⟨.idle, Speaks.andThen ?_ fun r' s' h' => callTool_speaks h'⟩
      have hcleared : Mirrors k r { s with pendingSignature := none } := h.of_same rfl rfl rfl rfl
      exact close_speaks hcleared
    · split
      · exact ⟨k, speaks_nil hmirrors⟩
      · split
        · have hopen : Speaks .thinking r s.terminalReason _ :=
            (closeText_speaks hmirrors).andThen fun r' s' h' =>
              openThinking_speaks (p := p) h' (by cases k <;> decide)
          exact ⟨.thinking, hopen.andThen fun r' s' h' => addThinking_speaks h'⟩
        · have hopen : Speaks .text r s.terminalReason _ :=
            (closeThinking_speaks hmirrors).andThen fun r' s' h' =>
              openText_speaks (p := p) h' (by cases k <;> decide)
          exact ⟨.text, hopen.andThen fun r' s' h' => addText_speaks h'⟩

lemma parts_speaks (h : Mirrors k r s) (ps : List Value) :
    ∃ k', Speaks k' r s.terminalReason ((s.parts nextId ps).told, (s.parts nextId ps).state) := by
  induction ps generalizing k r s with
  | nil => exact ⟨k, speaks_nil h⟩
  | cons p ps ih =>
    unfold parts
    split
    · exact ⟨k, speaks_nil h⟩
    · obtain ⟨k', ⟨r', hrun, hmirrors⟩, hterminal⟩ := part_speaks (p := p) h
      obtain ⟨k'', ⟨r'', hrun', hmirrors'⟩, hterminal'⟩ := ih hmirrors
      refine ⟨k'', ⟨r'', ?_, hmirrors'⟩, hterminal'.trans hterminal⟩
      rw [List.map_append, Replay.run_append, hrun]
      exact hrun'

variable (F : Type) [Doubles F]

/-- Nothing is open after the end of the candidate. -/
lemma settle_speaks {c : Value} (h : Mirrors k r s) :
    ∃ r', r.run ((s.settle F c).1.map Told.event) = some r' ∧ Mirrors .idle r' (s.settle F c).2 := by
  obtain ⟨⟨r', hrun, hmirrors⟩, -⟩ := close_speaks h
  refine ⟨r', hrun, ?_⟩
  unfold settle
  generalize s.closeText.andThen closeThinking = spoken at hmirrors
  cases hmirrors with
  | idle hcontent htext hthinking hreasoned =>
    refine .idle hcontent htext hthinking ⟨?_, ?_, ?_⟩
    · dsimp only
      rw [← hreasoned.toolUse]
      split
      · simp [*]
      · split <;> simp [*]
    · dsimp only
      split_ifs <;> decide
    · dsimp only
      split_ifs <;> decide

/-- The reader has what the machine has, and nothing is open once the candidate has ended. -/
structure Reads (r : Replay) (s : State) : Prop where
  mirrors : ∃ k, Mirrors k r s ∧ (s.terminalReason.isSome → k = .idle)

/-- A chunk fails without a trace, only changes the counts, or is read. -/
inductive Chunked (nextId : Nat → String) (s : State) (c : Value) : Telling Flow → Prop
  | failed (stop : Stop) : Chunked nextId s c ⟨[], s, .error stop⟩
  | counted {usage : Usage} {flow : Flow} (hterminal : s.terminalReason.isSome) :
      Chunked nextId s c ⟨[], s.setUsage usage, .ok flow⟩
  | read {usage : Usage} (hterminal : s.terminalReason = none) :
      Chunked nextId s c (afterParts F c ((s.setUsage usage).parts nextId (partsOf c)))

lemma chunk_chunked (nextId : Nat → String) (s : State) (c : Value) :
    Chunked F nextId s c (s.chunk F nextId c) := by
  unfold chunk
  split
  · exact .failed _
  · split
    · exact .failed _
    · split
      · exact .failed _
      · dsimp only
        split
        · rename_i hterminal
          exact .counted hterminal
        · rename_i hterminal
          exact .read (Option.not_isSome_iff_eq_none.mp hterminal)

lemma chunk_reads {c : Value} (h : Reads r s) :
    ∃ r', r.run ((s.chunk F nextId c).told.map Told.event) = some r' ∧
      Reads r' (s.chunk F nextId c).state := by
  obtain ⟨k, hmirrors, hidle⟩ := h
  have hchunked := chunk_chunked F nextId s c
  generalize s.chunk F nextId c = told at hchunked ⊢
  cases hchunked with
  | failed => exact ⟨r, rfl, k, hmirrors, hidle⟩
  | counted => exact ⟨r, rfl, k, hmirrors.of_same rfl rfl rfl rfl, hidle⟩
  | @read usage hterminal =>
    have husage : Mirrors k r (s.setUsage usage) := hmirrors.of_same rfl rfl rfl rfl
    obtain ⟨k', ⟨r', hrun, hmirrors'⟩, hterminal'⟩ :=
      parts_speaks husage (partsOf c)
    generalize parts nextId _ (partsOf c) = told at hrun hmirrors' hterminal'
    have hopen : told.state.terminalReason.isSome → k' = .idle := by
      intro hsome
      rw [show told.state.terminalReason = none from hterminal'.trans hterminal] at hsome
      cases hsome
    unfold afterParts
    split
    · exact ⟨r', hrun, k', hmirrors', hopen⟩
    · split
      · obtain ⟨r'', hrun', hsettled⟩ := settle_speaks F (c := c) hmirrors'
        refine ⟨r'', ?_, .idle, hsettled, fun _ => rfl⟩
        dsimp only
        rw [List.map_append, Replay.run_append, hrun]
        exact hrun'
      · exact ⟨r', hrun, k', hmirrors', hopen⟩

lemma feed_reads (h : Reads r s) (chunks : List Value) :
    ∃ r', r.run ((s.feed F nextId chunks).told.map Told.event) = some r' ∧
      Reads r' (s.feed F nextId chunks).state := by
  induction chunks generalizing r s with
  | nil => exact ⟨r, rfl, h⟩
  | cons c cs ih =>
    obtain ⟨r', hrun, hreads⟩ := chunk_reads F (c := c) h
    unfold feed
    dsimp only
    split
    · exact ⟨r', hrun, hreads⟩
    · obtain ⟨r'', hrun', hreads'⟩ := ih hreads
      refine ⟨r'', ?_, hreads'⟩
      rw [List.map_append, Replay.run_append, hrun]
      exact hrun'

/-- Once the candidate has ended, no chunk tells anything. -/
lemma chunk_quiet {c : Value} (h : s.terminalReason.isSome) :
    (s.chunk F nextId c).told = [] ∧ (s.chunk F nextId c).state.terminalReason.isSome := by
  have hchunked := chunk_chunked F nextId s c
  generalize s.chunk F nextId c = told at hchunked ⊢
  cases hchunked with
  | failed => exact ⟨rfl, h⟩
  | counted => exact ⟨rfl, h⟩
  | read hterminal => rw [hterminal] at h; cases h

lemma feed_quiet (h : s.terminalReason.isSome) (chunks : List Value) :
    (s.feed F nextId chunks).told = [] := by
  induction chunks generalizing s with
  | nil => rfl
  | cons c cs ih =>
    obtain ⟨htold, hterminal⟩ := chunk_quiet F (c := c) h
    unfold feed
    dsimp only
    split
    · exact htold
    · dsimp only
      rw [htold, ih hterminal]
      rfl

/-- A chunk with a reason to finish ends the candidate, unless it fails. -/
lemma chunk_terminal {c : Value} {flow : Flow} (hfinish : truthy (finishReason c) = true)
    (h : (s.chunk F nextId c).result = .ok flow) :
    (s.chunk F nextId c).state.terminalReason.isSome := by
  have hchunked := chunk_chunked F nextId s c
  generalize s.chunk F nextId c = told at hchunked h ⊢
  cases hchunked with
  | failed => cases h
  | counted hterminal => exact hterminal
  | read =>
    unfold afterParts at h ⊢
    split at h
    · cases h
    · rw [if_pos hfinish]
      rfl

/-- After a chunk with a reason to finish, nothing is told. -/
lemma feed_quiet_after (s : State) (before : List Value) {c : Value} (later : List Value)
    (hfinish : truthy (finishReason c) = true) :
    (s.feed F nextId (before ++ c :: later)).told = (s.feed F nextId (before ++ [c])).told := by
  induction before generalizing s with
  | nil =>
    rw [List.nil_append, List.nil_append]
    unfold feed
    dsimp only
    cases hresult : (s.chunk F nextId c).result with
    | error stop => rfl
    | ok flow =>
      have hterminal := chunk_terminal F hfinish hresult
      dsimp only
      rw [feed_quiet F hterminal, feed_quiet F hterminal]
  | cons b before ih =>
    rw [List.cons_append, List.cons_append]
    unfold feed
    dsimp only
    cases hresult : (s.chunk F nextId b).result with
    | error stop => rfl
    | ok flow =>
      dsimp only
      rw [ih]

/-- A message is done when its candidate has ended. -/
lemma finish_done {cancelled : Bool} {reason : StopReason} {message : Output}
    (h : (s.finish cancelled).told.map Told.event = [.done reason message]) :
    s.terminalReason.isSome ∧ reason = s.output.stopReason ∧ message = s.output := by
  unfold finish at h
  split at h
  · cases h
  · split at h
    · cases h
    · rename_i hterminal
      split at h
      · cases h
      · obtain ⟨rfl, rfl⟩ := Event.done.inj (List.head_eq_of_cons_eq h)
        exact ⟨by rw [hterminal]; rfl, rfl, rfl⟩

/-- What is to be expected of a message that is done. -/
structure Rebuilt (nextId : Nat → String) (s : State) (chunks : List Value) (reason : StopReason)
    (message : Output) : Prop where
  -- each block of the message has been started once, in order, and been ended once
  starts : ((s.feed F nextId chunks).told.map Told.event).filterMap Event.startIndex =
    List.range message.content.length
  ends : ((s.feed F nextId chunks).told.map Told.event).filterMap Event.endIndex =
    List.range message.content.length
  content : Replay.new.run ((s.feed F nextId chunks).told.map Told.event) =
    some ⟨message.content.map Block.piece, none⟩
  reason : reason = message.stopReason
  toolUse : message.stopReason = .toolUse ↔ message.content.any Block.isCall = true
  quiet : ∀ before c later, chunks = before ++ c :: later → truthy (finishReason c) = true →
    (s.feed F nextId chunks).told = (s.feed F nextId (before ++ [c])).told

/-- What is to be expected of the events that some chunks tell. -/
structure Rebuilds (nextId : Nat → String) (s : State) (chunks : List Value) : Prop where
  -- at any moment, what has been told so far can be read
  moments : ∀ before later, (s.feed F nextId chunks).told.map Told.event = before ++ later →
    ∃ r, Replay.new.run before = some r ∧
      before.filterMap Event.startIndex = List.range r.started ∧
      before.filterMap Event.endIndex = List.range r.ended.length
  one : (s.feed F nextId chunks).state.textIndex = none ∨
    (s.feed F nextId chunks).state.thinkingIndex = none
  blocks : ∃ r, Replay.new.run ((s.feed F nextId chunks).told.map Told.event) = some r ∧
    r.pieces = (s.feed F nextId chunks).state.output.content.map Block.piece
  done : ∀ cancelled reason message, (s.feed F nextId chunks).result = .ok () →
    ((s.feed F nextId chunks).state.finish cancelled).told.map Told.event =
      [.done reason message] →
    Rebuilt F nextId s chunks reason message

lemma reads_new (model : Value) (timestamp : Int) : Reads .new (new model timestamp) :=
  ⟨.idle, Mirrors.idle (s := new model timestamp) rfl rfl rfl
    ⟨by simp [new], by simp [new], by simp [new]⟩, fun _ => rfl⟩

/-- The events of the chunks are those of the message. -/
theorem rebuilds_new (nextId : Nat → String) (model : Value) (timestamp : Int)
    (chunks : List Value) : Rebuilds F nextId (new model timestamp) chunks := by
  obtain ⟨r, hrun, k, hmirrors, hidle⟩ :=
    feed_reads F (reads_new model timestamp) chunks
  refine ⟨?_, hmirrors.one_open, ⟨r, hrun, hmirrors.pieces⟩, ?_⟩
  · intro before later heq
    rw [heq] at hrun
    obtain ⟨m, hm⟩ := Replay.run_isSome_left hrun
    obtain ⟨hstarted, hended⟩ := Replay.run_indices hm
    exact ⟨m, hm, hstarted.symm, hended.symm⟩
  · intro cancelled reason message hok hdone
    obtain ⟨hterminal, rfl, rfl⟩ := finish_done hdone
    obtain rfl := hidle hterminal
    obtain ⟨hstarted, hended⟩ := Replay.run_indices hrun
    generalize hfed : (new model timestamp).feed F nextId chunks = fed at *
    have hreasoned := hmirrors.reasoned
    cases hmirrors with
    | idle hcontent =>
      obtain rfl := hcontent
      refine ⟨?_, ?_, ?_, rfl, hreasoned.toolUse, ?_⟩
      · rw [hfed]
        simpa [Replay.started, Replay.new] using hstarted.symm
      · rw [hfed]
        simpa [Replay.new] using hended.symm
      · rw [hfed]
        exact hrun
      · rintro before c later rfl hfinish
        exact feed_quiet_after F _ before later hfinish

end State

end Antigravity
