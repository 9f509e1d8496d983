import RpiPackage.Codemode.Books
import RpiPackage.Codemode.ToolResult

/-!
# Output budgets

The counters of the output are those of the blocks in it: the inline blocks fit an array of one
mebibyte, and all blocks fit the array that the host takes, with room for the block that explains an
error. So the guard that would drop a selection never does.
-/

namespace Codemode

open Json Relation Result Bridge

/-- The blocks of a part of the output, where the host holds some of them. -/
def partBlocks (content : String → Value → List Value) (references : Table Nat Reference) :
    OutputPart → List Value
  | .inline blocks => blocks
  | .reference token indices =>
    match references.get token with
    | some reference => content reference.id indices
    | none => []

def fullContent (content : String → Value → List Value) (b : Books) : List Value :=
  b.parts.flatMap (partBlocks content b.references)

/-- The host measures the blocks of a retained result as they are. -/
def Truthful (host : Host) (content : String → Value → List Value) : Prop :=
  ∀ step id indices reply, host.reply step (measureRequest id indices) = .ok reply →
    (∀ n, asNat (reply.index "contentBlocks") = some n → n = (content id indices).length) ∧
      ∀ n, asNat (reply.index "encodedBytes") = some n → n = blockBytes (content id indices)

/-- The inline blocks are counted and fit. -/
structure Books.Inlined (b : Books) : Prop where
  bytes : b.emittedBytes = blockBytes b.emitted
  count : b.emitted.length ≤ b.blocks
  within : b.blocks ≤ maxBlocks
  fits : blockBytes b.emitted + (b.emitted.length - 1) + 2 ≤ maxJson

/-- A result is retained under the token of a call that is over, and stays while it is emitted. -/
structure Books.Owned (b : Books) : Prop where
  started : ∀ call ∈ b.pending, call.token ≤ b.started
  retained : ∀ token reference, b.references.get token = some reference → token ≤ b.started
  distinct : (b.pending.map Call.token).Nodup
  apart : ∀ call ∈ b.pending, b.references.get call.token = none
  emitted : ∀ token, b.parts.any (isEmitted token) = true → b.references.get token ≠ none

/-- All blocks are counted and fit. -/
structure Books.Counted (content : String → Value → List Value) (b : Books) : Prop where
  owned : b.Owned
  blocks : b.blocks = (fullContent content b).length
  bytes : b.bytes = blockBytes (fullContent content b)
  fits : b.bytes + (b.blocks - 1) + 2 ≤ memory - outputDiagnosticReserve

section

variable {host : Host} {content : String → Value → List Value} {b b' : Books}

@[simp] lemma blockBytes_append (xs ys : List Value) :
    blockBytes (xs ++ ys) = blockBytes xs + blockBytes ys := by
  simp [blockBytes]

/-! ### Inline blocks -/

lemma Books.Inlined.edit (h : b.Inlined) (hedit : Edit host b b') : b'.Inlined := by
  cases hedit with
  | begun | called | dropped | retained | released => exact ⟨h.bytes, h.count, h.within, h.fits⟩
  | emitted selected hcount hsize hadmits =>
    refine ⟨?_, ?_, hadmits.1, ?_⟩
    · show b.emittedBytes + blockBytes selected = blockBytes (b.emitted ++ selected)
      rw [blockBytes_append, h.bytes]
    · show (b.emitted ++ selected).length ≤ b.blocks + selected.length
      rw [List.length_append]
      exact Nat.add_le_add_right h.count _
    · show blockBytes (b.emitted ++ selected) + ((b.emitted ++ selected).length - 1) + 2 ≤ maxJson
      rw [blockBytes_append, List.length_append, ← h.bytes]
      exact hsize
  | referenced token reference indices count bytes step reply hget hreply hmeasured hadmits =>
    exact ⟨h.bytes, h.count.trans (Nat.le_add_right _ _), hadmits.1, h.fits⟩

lemma Books.Inlined.edits (h : b.Inlined) (hedits : Edits host b b') : b'.Inlined := by
  induction hedits with
  | refl => exact h
  | tail _ hedit ih => exact ih.edit hedit

/-! ### Tokens -/

lemma token_ne_of_eraseIdx {calls : List Call} {index : Nat} {call c : Call}
    (hdistinct : (calls.map Call.token).Nodup) (hcall : calls[index]? = some call)
    (hc : c ∈ calls.eraseIdx index) : c.token ≠ call.token := by
  obtain ⟨i, hne, hi⟩ := List.mem_eraseIdx_iff_getElem?.mp hc
  intro heq
  have htokens : (calls.map Call.token)[i]? = (calls.map Call.token)[index]? := by
    rw [List.getElem?_map, List.getElem?_map, hi, hcall, Option.map_some, Option.map_some, heq]
  have hlt : i < (calls.map Call.token).length := by
    rw [List.length_map]
    exact (List.getElem?_eq_some_iff.mp hi).1
  exact hne ((List.getElem?_inj hlt hdistinct).mp htokens)

lemma Books.Owned.edit (h : b.Owned) (hedit : Edit host b b') : b'.Owned := by
  cases hedit with
  | begun =>
    exact ⟨fun call hcall => (h.started call hcall).trans (Nat.le_succ _),
      fun token r hget => (h.retained token r hget).trans (Nat.le_succ _), h.distinct, h.apart,
      h.emitted⟩
  | called id name =>
    refine ⟨?_, fun token r hget => (h.retained token r hget).trans (Nat.le_succ _), ?_, ?_,
      h.emitted⟩
    · intro call hcall
      rcases List.mem_append.mp hcall with hcall | hcall
      · exact (h.started call hcall).trans (Nat.le_succ _)
      · rw [List.mem_singleton.mp hcall]
    · show ((b.pending ++ [(⟨id, b.started + 1, name⟩ : Call)]).map Call.token).Nodup
      rw [List.map_append, List.nodup_append]
      refine ⟨h.distinct, List.nodup_singleton _, ?_⟩
      intro token htoken other hother
      obtain ⟨call, hcall, rfl⟩ := List.mem_map.mp htoken
      rw [List.map_singleton, List.mem_singleton] at hother
      have hle := h.started call hcall
      rw [hother]
      exact Nat.ne_of_lt (Nat.lt_succ_of_le hle)
    · intro call hcall
      rcases List.mem_append.mp hcall with hcall | hcall
      · exact h.apart call hcall
      · rw [List.mem_singleton.mp hcall]
        by_contra hne
        obtain ⟨r, hget⟩ := Option.ne_none_iff_exists'.mp hne
        have hle := h.retained _ r hget
        exact absurd hle (Nat.not_succ_le_self _)
  | dropped index call hcall =>
    have hsub := List.eraseIdx_sublist b.pending index
    exact ⟨fun c hc => h.started c (hsub.mem hc), h.retained, h.distinct.sublist (hsub.map _),
      fun c hc => h.apart c (hsub.mem hc), h.emitted⟩
  | retained index call reference hcall hsize =>
    have hsub := List.eraseIdx_sublist b.pending index
    have hmem := List.mem_of_getElem? hcall
    refine ⟨fun c hc => h.started c (hsub.mem hc), ?_, h.distinct.sublist (hsub.map _), ?_, ?_⟩
    · intro token r hget
      by_cases htoken : token = call.token
      · rw [htoken]
        exact h.started call hmem
      · exact h.retained token r ((Table.get_put_of_ne htoken _ _).symm.trans hget)
    · intro c hc
      have hne : c.token ≠ call.token := token_ne_of_eraseIdx h.distinct hcall hc
      exact (Table.get_put_of_ne hne _ _).trans (h.apart c (hsub.mem hc))
    · intro token htoken
      by_cases heq : token = call.token
      · rw [heq]
        exact Option.ne_none_iff_exists'.mpr ⟨reference, Table.get_put_self _ _ _⟩
      · rw [show (b.references.put call.token reference).get token = _ from
          Table.get_put_of_ne heq _ _]
        exact h.emitted token htoken
  | released token hfree =>
    refine ⟨h.started, ?_, h.distinct, ?_, ?_⟩
    · intro other r hget
      exact h.retained other r (Table.get_of_get_erase hget).2
    · intro call hcall
      by_cases heq : call.token = token
      · rw [heq]
        exact Table.get_erase_self _ _
      · exact (Table.get_erase_of_ne heq _).trans (h.apart call hcall)
    · intro other hother
      have hne : other ≠ token := by
        rintro rfl
        exact absurd hother (by rw [hfree]; exact Bool.false_ne_true)
      rw [show (b.references.erase token).get other = _ from Table.get_erase_of_ne hne _]
      exact h.emitted other hother
  | emitted selected hcount hsize hadmits =>
    refine ⟨h.started, h.retained, h.distinct, h.apart, ?_⟩
    intro token htoken
    refine h.emitted token ?_
    simpa [isEmitted] using htoken
  | referenced token reference indices count bytes step reply hget hreply hmeasured hadmits =>
    refine ⟨h.started, h.retained, h.distinct, h.apart, ?_⟩
    intro other hother
    have hcases : b.parts.any (isEmitted other) = true ∨ token = other := by
      simpa [isEmitted] using hother
    rcases hcases with hother | rfl
    · exact h.emitted other hother
    · exact Option.ne_none_iff_exists'.mpr ⟨reference, hget⟩

/-! ### All blocks -/

/-- An edit leaves the results alone whose blocks are emitted. -/
lemma fullContent_eq {references : Table Nat Reference}
    (hsame : ∀ token, b.parts.any (isEmitted token) = true →
      references.get token = b.references.get token) :
    b.parts.flatMap (partBlocks content references) = fullContent content b := by
  unfold fullContent
  apply List.flatMap_congr
  intro part hpart
  cases part with
  | inline blocks => rfl
  | reference token indices =>
    have hemitted : b.parts.any (isEmitted token) = true :=
      List.any_eq_true.mpr ⟨_, hpart, by simp [isEmitted]⟩
    rw [partBlocks, partBlocks, hsame token hemitted]

lemma measured_eq_ok {reference : Reference} {count bytes : Nat} {reply : Value}
    (h : measured reference count reply = .ok bytes) :
    asNat (reply.index "contentBlocks") = some count ∧
      asNat (reply.index "encodedBytes") = some bytes := by
  unfold measured at h
  rw [check_bind_eq_ok, failIf_eq_ok, bind_eq_ok] at h
  obtain ⟨hchecks, bytes', hbytes, h⟩ := h
  rw [check_bind_eq_ok, pure_eq_ok, Except.ok.injEq] at h
  obtain ⟨-, rfl⟩ := h
  simp only [not_or, not_not] at hchecks
  exact ⟨hchecks.2.2.1, (Option.mem_filter_iff.mp (okOr_eq_ok.mp hbytes)).1⟩

lemma Books.Counted.edit (htruthful : Truthful host content) (h : b.Counted content)
    (hedit : Edit host b b') : b'.Counted content := by
  have howned := h.owned.edit hedit
  cases hedit with
  | begun | called | dropped => exact ⟨howned, h.blocks, h.bytes, h.fits⟩
  | retained index call reference hcall hsize =>
    have hfull : fullContent content { b with
        pending := b.pending.eraseIdx index
        references := b.references.put call.token reference } = fullContent content b := by
      refine fullContent_eq fun token htoken => Table.get_put_of_ne ?_ _ _
      rintro rfl
      exact h.owned.emitted _ htoken (h.owned.apart call (List.mem_of_getElem? hcall))
    exact ⟨howned, by rw [hfull]; exact h.blocks, by rw [hfull]; exact h.bytes, h.fits⟩
  | released token hfree =>
    have hfull : fullContent content { b with references := b.references.erase token } =
        fullContent content b := by
      refine fullContent_eq fun other hother => Table.get_erase_of_ne ?_ _
      rintro rfl
      exact absurd hother (by rw [hfree]; exact Bool.false_ne_true)
    exact ⟨howned, by rw [hfull]; exact h.blocks, by rw [hfull]; exact h.bytes, h.fits⟩
  | emitted selected hcount hsize hadmits =>
    refine ⟨howned, ?_, ?_, hadmits.2⟩
    · show b.blocks + selected.length = _
      rw [h.blocks]
      simp [fullContent, partBlocks]
    · show b.bytes + blockBytes selected = _
      rw [h.bytes]
      simp [fullContent, partBlocks]
  | referenced token reference indices count bytes step reply hget hreply hmeasured hadmits =>
    obtain ⟨hblocks, hbytes⟩ := htruthful step reference.id indices reply hreply
    obtain ⟨hcount, hencoded⟩ := measured_eq_ok hmeasured
    refine ⟨howned, ?_, ?_, hadmits.2⟩
    · show b.blocks + count = _
      rw [h.blocks, hblocks count hcount]
      simp [fullContent, partBlocks, hget]
    · show b.bytes + bytes = _
      rw [h.bytes, hbytes bytes hencoded]
      simp [fullContent, partBlocks, hget]

lemma Books.Counted.edits (htruthful : Truthful host content) (h : b.Counted content)
    (hedits : Edits host b b') : b'.Counted content := by
  induction hedits with
  | refl => exact h
  | tail _ hedit ih => exact ih.edit htruthful hedit

/-! ### The end of an invocation -/

/-- The text of an error is short, even if each of its characters has to be escaped. -/
lemma size_errorBlock (reason : String) : (errorBlock reason).compactSize ≤ 3300 := by
  have hbounded : (bounded reason 512).utf8ByteSize ≤ 512 := by
    rw [utf8ByteSize_eq_sum, bounded, String.toList_ofList]
    exact sum_takeBytes_le 512 reason.toList
  have htext := quoteSize_le ("codemode error: " ++ bounded reason 512)
  rw [String.utf8ByteSize_append] at htext
  have hkeys : quoteSize "type" = 6 ∧ quoteSize "text" = 6 ∧
      "codemode error: ".utf8ByteSize = 16 := by
    decide +kernel
  unfold errorBlock
  rw [Value.compactSize_object]
  simp only [List.map_cons, List.map_nil, List.sum_cons, List.sum_nil, Value.fieldSize, framing,
    List.length_cons, List.length_nil, Value.compactSize_string]
  omega

lemma size_with_error (h : b.Counted content) (reason : String) :
    (Value.array (fullContent content b ++ [errorBlock reason])).compactSize ≤ memory := by
  have herror := size_errorBlock reason
  have hfits := h.fits
  rw [h.bytes, h.blocks] at hfits
  rw [Value.compactSize_array]
  show blockBytes (fullContent content b ++ [errorBlock reason]) + _ ≤ _
  rw [blockBytes_append, List.length_append, List.length_singleton]
  have hsingle : blockBytes [errorBlock reason] = (errorBlock reason).compactSize := by
    simp [blockBytes]
  rw [hsingle]
  unfold framing
  unfold memory outputDiagnosticReserve at *
  omega

lemma not_overBudget {selected : List Value} (hcount : selected.length ≤ maxBlocks)
    (hsize : blockBytes selected + (selected.length - 1) + 2 ≤ maxJson) :
    overBudget selected = false := by
  unfold overBudget
  rw [Bool.or_eq_false_iff]
  refine ⟨decide_eq_false (not_lt.mpr hcount), decide_eq_false (not_lt.mpr ?_)⟩
  rw [Value.compactSize_array]
  exact hsize

/-- What a promoted result adds fits behind what was emitted. -/
lemma promoteResult_spec {s : Bridge} {emitted : List Value}
    (hin : ({ s.books with emitted } : Books).Inlined) (o : Outcome) (hasSelection : Bool) :
    overBudget (s.promoteResult o emitted hasSelection).1.selected = false ∧
      ∃ selected, Edits host { s.books with emitted }
        { (s.promoteResult o emitted hasSelection).2.books with
          emitted := emitted ++ selected
          emittedBytes := s.books.emittedBytes + blockBytes selected } := by
  have hkept : overBudget emitted = false :=
    not_overBudget (hin.count.trans hin.within) hin.fits
  have hsame : ∀ s' : Bridge, s'.books = s.books → ∃ selected,
      Edits host { s.books with emitted } { s'.books with
        emitted := emitted ++ selected
        emittedBytes := s.books.emittedBytes + blockBytes selected } := by
    intro s' hs'
    refine ⟨[], edits_of_eq ?_⟩
    rw [hs', List.append_nil]
    rfl
  unfold promoteResult
  split
  · exact ⟨hkept, hsame _ rfl⟩
  · exact ⟨hkept, hsame _ rfl⟩
  next blocks result _ =>
  dsimp only
  by_cases hinline : maxJson < s.emittedBytes + blockBytes blocks +
      (emitted.length + blocks.length - 1) + 2
  · rw [if_pos hinline]
    exact ⟨hkept, hsame _ rfl⟩
  rw [if_neg hinline]
  unfold outputBudget
  by_cases hbudget : 128 ≤ s.outputParts.length ∨ maxBlocks < s.outputBlocks + blocks.length ∨
      memory - outputDiagnosticReserve <
        s.outputBytes + blockBytes blocks + (s.outputBlocks + blocks.length - 1) + 2
  · rw [if_pos hbudget]
    exact ⟨hkept, hsame _ rfl⟩
  rw [if_neg hbudget]
  rw [not_or, not_or, not_lt, not_lt] at hbudget
  rw [not_lt] at hinline
  have hcount : emitted.length + blocks.length ≤ maxBlocks :=
    (Nat.add_le_add_right hin.count _).trans hbudget.2.1
  refine ⟨not_overBudget ?_ ?_, blocks,
    .single (.emitted blocks hcount hinline ⟨hbudget.2.1, hbudget.2.2⟩)⟩
  · rw [List.length_append]
    exact hcount
  · rw [blockBytes_append, List.length_append, ← show s.emittedBytes = blockBytes emitted from hin.bytes]
    exact hinline

lemma edits_drop (b : Books) : Edits host b { b with pending := [] } := by
  have hdrop : ∀ (calls : List Call) (b : Books), b.pending = calls →
      Edits host b { b with pending := [] } := by
    intro calls
    induction calls with
    | nil =>
      intro b hb
      refine edits_of_eq ?_
      rw [← hb]
    | cons call calls ih =>
      intro b hb
      have hfirst : b.pending[0]? = some call := by rw [hb]; rfl
      refine .head (.dropped 0 call hfirst) (ih _ ?_)
      rw [hb]
      rfl
  exact hdrop b.pending b rfl

lemma books_catalogFrom {s : Bridge} {offset : Nat} {catalog : List Value} :
    (s.catalogFrom host offset catalog).2.books = s.books := by
  have hlist : ∀ {s s' : Bridge} {offset : Nat} {r : Except String (List Value × Option Nat)},
      s.listPage host offset 32 = (r, s') → s'.books = s.books := by
    intro s s' offset r h
    unfold listPage at h
    split at h
    · next e s₁ haction =>
      rw [← (Prod.mk.inj h).2]
      exact books_of_action haction
    · next page s₁ haction =>
      rw [← (Prod.mk.inj h).2]
      exact books_of_action haction
  fun_induction catalogFrom host s offset catalog with
  | case1 s offset catalog e s₁ hcheck => exact books_of_check hcheck
  | case2 s offset catalog s₁ hcheck e s₂ hpage =>
    exact (hlist hpage).trans (books_of_check hcheck)
  | case3 s offset catalog s₁ hcheck tools next s₂ hpage hbudget =>
    exact (hlist hpage).trans (books_of_check hcheck)
  | case4 s offset catalog s₁ hcheck tools s₂ hbudget next hpage hrange _ ih =>
    exact ih.trans ((hlist hpage).trans (books_of_check hcheck))
  | case5 s offset catalog s₁ hcheck tools s₂ hbudget hpage =>
    exact (hlist hpage).trans (books_of_check hcheck)

lemma books_loadCatalog {s : Bridge} : (s.loadCatalog host).2.books = s.books := by
  unfold loadCatalog
  exact books_andThen books_catalogFrom fun _ _ h => h

end

/-- The bridge after a program has loaded the catalog and done some operations. -/
def program (fromStr : String → Option Value) (host : Host) (ops : List Op) : Bridge :=
  ops.foldl (step fromStr host) (new.loadCatalog host).2

/-- What is selected at the end of a program whose run has come to some result. -/
def selectedBy (fromStr : String → Option Value) (host : Host) (ops : List Op)
    (run : Except String Value) : Selection × Bridge :=
  let (o, s) := ((program fromStr host ops).cleanup host).outcome host run
  s.selection o

section

variable {fromStr : String → Option Value} {host : Host} {content : String → Value → List Value}

lemma edits_program (ops : List Op) :
    Edits host Bridge.new.books (program fromStr host ops).books := by
  refine ReflTransGen.trans (edits_of_eq ?_) (edits_after ops)
  exact books_loadCatalog

lemma inlined_new : Bridge.new.books.Inlined :=
  ⟨rfl, Nat.le_refl _, Nat.zero_le _, by decide⟩

lemma counted_new : Bridge.new.books.Counted content := by
  refine ⟨⟨?_, ?_, List.nodup_nil, ?_, ?_⟩, rfl, rfl, by decide⟩
  · intro call hcall
    cases hcall
  · intro token r hget
    cases hget
  · intro call hcall
    cases hcall
  · intro token htoken
    cases htoken

lemma edits_outcome (ops : List Op) (run : Except String Value) :
    Edits host Bridge.new.books
      (((program fromStr host ops).cleanup host).outcome host run).2.books := by
  rw [books_outcome, books_cleanup]
  exact (edits_program ops).trans (edits_drop _)

/-- A selection only edits the books, apart from the blocks that are taken out. -/
lemma selection_spec {s : Bridge} (hin : s.books.Inlined) (o : Outcome) :
    overBudget (s.selection o).1.selected = false ∧
      ∃ emitted emittedBytes, Edits host s.books
        { (s.selection o).2.books with emitted, emittedBytes } := by
  have hrest : ∀ s' : Bridge, s'.books = { s.books with emitted := [] } → ∀ o : Outcome,
      ∀ hasSelection : Bool,
        overBudget (s'.promoteResult o s.emitted hasSelection).1.selected = false ∧
          ∃ emitted emittedBytes, Edits host s.books
            { (s'.promoteResult o s.emitted hasSelection).2.books with emitted, emittedBytes } := by
    intro s' hs' o hasSelection
    have hbooks : ({ s'.books with emitted := s.emitted } : Books) = s.books := by
      rw [hs']
      rfl
    have hspec := @promoteResult_spec host s' s.emitted (by rw [hbooks]; exact hin) o hasSelection
    rw [hbooks] at hspec
    obtain ⟨hbudget, selected, hedits⟩ := hspec
    exact ⟨hbudget, _, _, hedits⟩
  have hkept : overBudget s.emitted = false :=
    not_overBudget (hin.count.trans hin.within) hin.fits
  unfold selection
  by_cases hcompleted : o.status = .completed
  · rw [if_pos hcompleted]
    dsimp only
    split
    · exact hrest _ rfl _ _
    · exact ⟨hkept, s.emitted, s.emittedBytes, edits_of_eq rfl⟩
  · rw [if_neg hcompleted]
    dsimp only
    split
    · exact hrest _ rfl _ _
    · exact ⟨hkept, s.emitted, s.emittedBytes, edits_of_eq rfl⟩

/-- The end of a program only edits the books, apart from the blocks that are taken out. -/
lemma selectedBy_spec (ops : List Op) (run : Except String Value) :
    overBudget (selectedBy fromStr host ops run).1.selected = false ∧
      ∃ emitted emittedBytes, Edits host Bridge.new.books
        { (selectedBy fromStr host ops run).2.books with emitted, emittedBytes } := by
  have hedits := @edits_outcome fromStr host ops run
  unfold selectedBy
  generalize ((program fromStr host ops).cleanup host).outcome host run = r at hedits ⊢
  obtain ⟨o, s⟩ := r
  obtain ⟨hbudget, emitted, emittedBytes, hselection⟩ :=
    @selection_spec host s (inlined_new.edits hedits) o
  exact ⟨hbudget, emitted, emittedBytes, hedits.trans hselection⟩

end

/-! ### Summaries -/

/-- A summary that leaves its result with the host. -/
def HandsOver (value : Value) : Prop := (takeReference value).1 ≠ none

lemma toolResultValue_of_handsOver {value : Value} (h : HandsOver value) :
    ∃ reference, value.get "nativeResultReference" = some reference ∧
      toolResultValue value =
        envelope (isTrue (value.index "isError")) ("resultReference", reference) := by
  obtain ⟨result, hresult⟩ := Option.ne_none_iff_exists'.mp h
  have hvalue : toolResultValue value = result := by
    unfold toolResultValue
    split
    · next result' _ htake =>
      rw [htake] at hresult
      exact Option.some.inj hresult
    · next htake =>
      rw [htake] at hresult
      cases hresult
  rw [hvalue]
  have hget := @removeField_fst value "nativeResultReference"
  have hisError := @get_removeField value "nativeResultReference" "isError" (by decide)
  unfold takeReference at hresult
  split at hresult
  · split at hresult
    · next reference rest hremove =>
      rw [hremove] at hget hisError
      refine ⟨reference, hget.symm, ?_⟩
      dsimp only at hresult hisError
      unfold handedOver at hresult
      rw [Option.ite_none_right_eq_some] at hresult
      rw [← Option.some.inj hresult.2, Value.index, hisError, Value.index]
    · cases hresult
  · cases hresult

/-- The output of a program is within its budgets, whatever the program and the host do, and a
summary that hands no result over becomes a short text that keeps the termination. -/
theorem output_budgets (fromStr : String → Option Value) (host : Host) (ops : List Op)
    (run : Except String Value) :
    (selectedBy fromStr host ops run).1.selected.length ≤ maxBlocks ∧
      (Value.array (selectedBy fromStr host ops run).1.selected).compactSize ≤ maxJson ∧
      guarded (selectedBy fromStr host ops run).1 = (selectedBy fromStr host ops run).1 ∧
      (∀ content, Truthful host content → ∀ reason,
        (Value.array (fullContent content (selectedBy fromStr host ops run).2.books ++
          [errorBlock reason])).compactSize ≤ memory) ∧
      ∀ summary : Document,
        (HandsOver summary.value →
          ∃ reference, summary.value.get "nativeResultReference" = some reference ∧
            toolResultValue summary.value =
              envelope (isTrue (summary.value.index "isError")) ("resultReference", reference)) ∧
        (¬HandsOver summary.value →
          (fieldOrNull summary.value "durationMs").compactSize ≤ maxJson / 4 →
            (toolResult summary.value).utf8ByteSize ≤ maxJson ∧
              ((toolResultValue summary.value).index "result").index "terminate" =
                terminates summary.value) := by
  obtain ⟨hbudget, emitted, emittedBytes, hedits⟩ := @selectedBy_spec fromStr host ops run
  have hwithin := hbudget
  unfold overBudget at hwithin
  rw [Bool.or_eq_false_iff, decide_eq_false_iff_not, decide_eq_false_iff_not, not_lt, not_lt]
    at hwithin
  refine ⟨hwithin.1, hwithin.2, ?_, ?_, ?_⟩
  · unfold guarded
    rw [hbudget]
    rfl
  · intro content htruthful reason
    exact size_with_error ((counted_new.edits htruthful hedits)) reason
  · intro summary
    refine ⟨toolResultValue_of_handsOver, ?_⟩
    intro hover hduration
    exact toolResultValue_spec summary.plain hduration (not_not.mp hover)

/-- A summary that leaves a result of the given name with the host. -/
def retainedSummary (id : String) : Value :=
  .object [("status", .string "completed"), ("terminate", .bool true),
    ("nativeResultReference", .object [("version", natValue 1), ("id", .string id)])]

/-- A summary that says at length how long it took. -/
def slowSummary (duration : String) : Value :=
  .object [("status", .string "completed"), ("durationMs", .string duration)]

/-- A text of so many letters. -/
def letters (n : Nat) : String := String.ofList (List.replicate n 'a')

lemma quoteSize_letters (n : Nat) : quoteSize (letters n) = n + 2 := by
  have hletter : escapeSize 'a' = 1 := by decide
  rw [quoteSize_eq, letters, String.toList_ofList, List.map_replicate, hletter, List.sum_replicate]
  simp

lemma letters_succ_ne_empty (n : Nat) : letters (n + 1) ≠ "" := by
  intro heq
  have hlist := congrArg String.toList heq
  rw [letters, String.toList_ofList] at hlist
  cases hlist

lemma toolResultValue_retainedSummary {id : String} (h : id ≠ "") :
    toolResultValue (retainedSummary id) =
      envelope false ("resultReference", .object [("version", natValue 1), ("id", .string id)]) := by
  have htake : (takeReference (retainedSummary id)).1 =
      some (envelope false
        ("resultReference", .object [("version", natValue 1), ("id", .string id)])) := by
    show handedOver _ _ = _
    exact if_pos ⟨by rfl, by show decide (id ≠ "") = true; exact decide_eq_true h⟩
  unfold toolResultValue
  split
  · next result _ hresult =>
    rw [hresult] at htake
    exact Option.some.inj htake
  · next hresult =>
    rw [hresult] at htake
    cases htake

lemma size_retainedSummary (n : Nat) :
    n < (toolResultValue (retainedSummary (letters (n + 1)))).compactSize := by
  have hid : n < (Value.string (letters (n + 1))).compactSize := by
    rw [Value.compactSize_string, quoteSize_letters]
    omega
  rw [toolResultValue_retainedSummary (letters_succ_ne_empty n)]
  have hget : (Value.object [("version", natValue 1), ("id", .string (letters (n + 1)))]).get "id" =
      some (.string (letters (n + 1))) := rfl
  have henvelope : (envelope false ("resultReference",
      .object [("version", natValue 1), ("id", .string (letters (n + 1)))])).get "resultReference" =
        some (.object [("version", natValue 1), ("id", .string (letters (n + 1)))]) := rfl
  exact hid.trans_le ((Value.compactSize_get_le hget).trans (Value.compactSize_get_le henvelope))

lemma size_slowSummary (n : Nat) : n < (toolResultValue (slowSummary (letters n))).compactSize := by
  have hletters : n < (Value.string (letters n)).compactSize := by
    rw [Value.compactSize_string, quoteSize_letters]
    omega
  have hdetails : ∀ (content details : Value) (isError terminate : Bool),
      details.get "durationMs" = some (.string (letters n)) →
        n < (envelope isError ("result", nativeResult content details terminate)).compactSize := by
    intro content details isError terminate hget
    have hresult : (nativeResult content details terminate).get "details" = some details := rfl
    have henvelope : (envelope isError ("result", nativeResult content details terminate)).get
        "result" = some (nativeResult content details terminate) := rfl
    exact hletters.trans_le ((Value.compactSize_get_le hget).trans
      ((Value.compactSize_get_le hresult).trans (Value.compactSize_get_le henvelope)))
  show n < (if (encoded (slowSummary (letters n))).1.compactSize ≤ maxJson then
      (encoded (slowSummary (letters n))).1
    else compacted (encoded (slowSummary (letters n))).2.1
      (encoded (slowSummary (letters n))).2.2).compactSize
  split
  · exact hdetails _ (slowSummary (letters n)) _ _ rfl
  · unfold compacted
    apply hdetails
    split <;> rfl

/-- A result that is handed over may be long and says nothing of the termination, and so may be the
time that a summary names. -/
theorem toolResult_of_long_summaries :
    (maxJson < (toolResultValue (retainedSummary (letters (maxJson + 1)))).compactSize ∧
      ((toolResultValue (retainedSummary (letters (maxJson + 1)))).index "result").index
        "terminate" ≠ terminates (retainedSummary (letters (maxJson + 1)))) ∧
      maxJson < (toolResultValue (slowSummary (letters maxJson))).compactSize := by
  refine ⟨⟨size_retainedSummary maxJson, ?_⟩, size_slowSummary maxJson⟩
  rw [toolResultValue_retainedSummary (letters_succ_ne_empty maxJson)]
  intro h
  cases h

end Codemode
