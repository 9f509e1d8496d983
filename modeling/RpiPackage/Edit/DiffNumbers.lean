import RpiPackage.Edit.Diff
import RpiPackage.Lib.Numbered

/-!
# The numbers of the display diff

As long as no block that is followed by a change, and no change, ends in a blank line, the counters
of the diff are the numbers of the lines. A printed number can only be too small, so the last
deleted line is printed with its own number only when no block before it has lost a line.
-/

namespace Edit

/-! ### Numbered lines -/

/-- A printed line carries the text of the line with its number. -/
def DiffLine.Numbered (old new : List Text) : DiffLine → Prop
  | .removed n line | .context n line => 0 < n ∧ old[n - 1]? = some line
  | .added n line => 0 < n ∧ new[n - 1]? = some line
  | .skipped => True

/-- What the display diff promises for a list of operations. -/
structure NumbersLines (old new : List Text) (ops : List DiffOp) (out : List DiffLine)
    (firstChangedLine : Option Nat) : Prop where
  numbered : ∀ line ∈ out, line.Numbered old new
  deleted : ∀ op ∈ ops, op.isRemoved = true → ∀ i line, op.oldStart ≤ i → i < op.oldEnd →
    old[i]? = some line → .removed (i + 1) line ∈ out
  inserted : ∀ op ∈ ops, op.isAdded = true → ∀ i line, op.newStart ≤ i → i < op.newEnd →
    new[i]? = some line → .added (i + 1) line ∈ out
  first : firstChangedLine = (ops.find? (·.isChange)).map (·.newStart + 1)

def endsBlank (lines : List Text) : Bool := lines.getLast? = some []

/-- A change, or a block before a change, ends in a blank line. -/
def losesBlank (old new : List Text) : List DiffOp → Bool
  | [] => false
  | op :: ops =>
    (if op.isChange then endsBlank (op.oldLines old) || endsBlank (op.newLines new)
      else endsBlank (op.oldLines old) && ops.any (·.isChange)) || losesBlank old new ops

section

variable {old new : List Text} {lines : List Text} {n k : Nat}

lemma mem_numbered {print : Nat → Text → DiffLine} {line : DiffLine} :
    line ∈ numbered print n lines ↔
      ∃ i text, lines[i]? = some text ∧ line = print (n + i) text := by
  unfold numbered
  rw [List.mem_map]
  constructor
  · rintro ⟨⟨text, m⟩, hmem, rfl⟩
    rw [List.mem_zipIdx_iff_le_and_getElem?_sub] at hmem
    exact ⟨m - n, text, hmem.2, by rw [Nat.add_sub_cancel' hmem.1]⟩
  · rintro ⟨i, text, hget, rfl⟩
    refine ⟨⟨text, n + i⟩, ?_, rfl⟩
    rw [List.mem_zipIdx_iff_le_and_getElem?_sub]
    exact ⟨Nat.le_add_right n i, by rwa [Nat.add_sub_cancel_left]⟩

/-- The lines stand in a text from a position on. -/
def Stands (all : List Text) (k : Nat) (lines : List Text) : Prop := lines <+: all.drop k

lemma Stands.getElem? {all : List Text} (h : Stands all k lines) {i : Nat} {text : Text}
    (hget : lines[i]? = some text) : all[k + i]? = some text := by
  obtain ⟨rest, hrest⟩ := h
  rw [← List.getElem?_drop, ← hrest,
    List.getElem?_append_left (List.getElem?_eq_some_iff.mp hget).1]
  exact hget

lemma stands_lineSlice (all : List Text) (first last : Nat) :
    Stands all first (lineSlice all first last) := by
  unfold Stands lineSlice
  rw [List.drop_take]
  exact List.take_prefix _ _

lemma stands_popEmpty {all : List Text} (h : Stands all k lines) :
    Stands all k (popEmpty lines) := by
  unfold popEmpty
  split
  · exact (List.dropLast_prefix lines).trans h
  · exact h

lemma length_lineSlice {all : List Text} {first last : Nat} (h : last ≤ all.length) :
    (lineSlice all first last).length = last - first := by
  unfold lineSlice
  rw [List.length_drop, List.length_take, Nat.min_eq_left h]

lemma popEmpty_of_not_endsBlank (h : endsBlank lines = false) : popEmpty lines = lines := by
  unfold popEmpty
  unfold endsBlank at h
  rw [if_neg (by simpa using h)]

/-- A line that stands at the position of a counter has the number of the counter. -/
lemma Stands.numbered {all : List Text} (h : Stands all k lines) {i : Nat} {text : Text}
    (hget : lines[i]? = some text) : 0 < k + 1 + i ∧ all[k + 1 + i - 1]? = some text := by
  refine ⟨by omega, ?_⟩
  rw [show k + 1 + i - 1 = k + i by omega]
  exact h.getElem? hget

end

/-! ### Blocks -/

namespace DiffState

variable {old new : List Text} {raw : List Text} {s : DiffState} {op : DiffOp} {c i j : Nat}
  {next : Bool}

/-- What is printed between two states. -/
def Prints (P : DiffLine → Prop) (s s' : DiffState) : Prop :=
  ∃ lines, s'.out = s.out ++ lines ∧ ∀ line ∈ lines, P line

variable {P : DiffLine → Prop}

lemma prints_refl (s : DiffState) : Prints P s s :=
  ⟨[], (List.append_nil _).symm, fun _ h => absurd h List.not_mem_nil⟩

lemma Prints.trans {s₁ s₂ s₃ : DiffState} (h₁ : Prints P s₁ s₂) (h₂ : Prints P s₂ s₃) :
    Prints P s₁ s₃ := by
  obtain ⟨lines₁, hout₁, hlines₁⟩ := h₁
  obtain ⟨lines₂, hout₂, hlines₂⟩ := h₂
  refine ⟨lines₁ ++ lines₂, by rw [hout₂, hout₁, List.append_assoc], fun line hline => ?_⟩
  rcases List.mem_append.mp hline with h | h
  · exact hlines₁ line h
  · exact hlines₂ line h

lemma Prints.mem {s s' : DiffState} (h : Prints P s s') {line : DiffLine} (hline : line ∈ s.out) :
    line ∈ s'.out := by
  obtain ⟨lines, hout, -⟩ := h
  rw [hout]
  exact List.mem_append_left _ hline

lemma Prints.of_mem {s s' : DiffState} (h : Prints P s s') {line : DiffLine}
    (hline : line ∈ s'.out) : line ∈ s.out ∨ P line := by
  obtain ⟨lines, hout, hlines⟩ := h
  rw [hout, List.mem_append] at hline
  exact hline.imp_right (hlines line)

lemma prints_context
    (h : ∀ k text, raw[k]? = some text → P (.context (s.oldLineNum + k) text)) :
    Prints P s (s.context raw) := by
  refine ⟨numbered .context s.oldLineNum raw, rfl, fun line hline => ?_⟩
  obtain ⟨k, text, hget, rfl⟩ := mem_numbered.mp hline
  exact h k text hget

lemma prints_skip (hskip : P .skipped) (s : DiffState) (n : Nat) : Prints P s (s.skip n) := by
  refine ⟨[.skipped], rfl, fun line hline => ?_⟩
  rw [List.mem_singleton.mp hline]
  exact hskip

lemma prints_skipAny (hskip : P .skipped) (s : DiffState) (n : Nat) :
    Prints P s (s.skipAny n) := by
  unfold skipAny
  split
  · exact prints_skip hskip s n
  · exact prints_refl s

@[simp] lemma skipAny_oldLineNum (s : DiffState) (n : Nat) :
    (s.skipAny n).oldLineNum = s.oldLineNum + n := by
  unfold skipAny
  split
  · rfl
  · omega

@[simp] lemma skipAny_newLineNum (s : DiffState) (n : Nat) :
    (s.skipAny n).newLineNum = s.newLineNum + n := by
  unfold skipAny
  split
  · rfl
  · omega

@[simp] lemma skipAny_firstChangedLine (s : DiffState) (n : Nat) :
    (s.skipAny n).firstChangedLine = s.firstChangedLine := by
  unfold skipAny
  split <;> rfl

/-- A block of common lines moves both counters, and leaves the first change alone. -/
lemma keep_counters (s : DiffState) (raw : List Text) (c : Nat) (next : Bool) :
    (s.keep raw c next).oldLineNum = s.oldLineNum + raw.length ∧
      (s.keep raw c next).newLineNum = s.newLineNum + raw.length ∧
      (s.keep raw c next).firstChangedLine = s.firstChangedLine ∧
      (s.keep raw c next).lastWasChange = false := by
  unfold keep
  split
  · split
    · exact ⟨rfl, rfl, rfl, rfl⟩
    · simp only [context, skip, advance, List.length_take, List.length_drop]
      refine ⟨by omega, by omega, trivial, trivial⟩
  · split
    · split
      · simp [context]
      · simp only [context, skipAny_oldLineNum, skipAny_newLineNum, skipAny_firstChangedLine,
          List.length_take]
        refine ⟨by omega, by omega, trivial, trivial⟩
    · split
      · simp only [context, skipAny_oldLineNum, skipAny_newLineNum, skipAny_firstChangedLine,
          List.length_drop]
        refine ⟨by omega, by omega, trivial, trivial⟩
      · exact ⟨rfl, rfl, rfl, rfl⟩

/-- Common lines are printed as context, with the number of the counter at their position. -/
lemma prints_keep (hskip : P .skipped)
    (h : ∀ k text, raw[k]? = some text → P (.context (s.oldLineNum + k) text)) (c : Nat)
    (next : Bool) : Prints P s (s.keep raw c next) := by
  have htake (k : Nat) (text : Text) (hget : (raw.take c)[k]? = some text) :
      P (.context (s.oldLineNum + k) text) := by
    rw [List.getElem?_take] at hget
    split at hget
    · exact h k text hget
    · cases hget
  have hdrop (d k : Nat) (text : Text) (hget : (raw.drop d)[k]? = some text) :
      P (.context (s.oldLineNum + d + k) text) := by
    rw [List.getElem?_drop] at hget
    rw [Nat.add_assoc]
    exact h (d + k) text hget
  suffices hprints : ∀ s' : DiffState, Prints P s s' →
      Prints P s { s' with lastWasChange := false } by
    unfold keep
    apply hprints
    split
    · split
      · exact prints_context h
      next hlong =>
        refine (prints_context htake).trans ((prints_skip hskip _ _).trans
          (prints_context fun k text hget => ?_))
        have hnum := hdrop (raw.length - c) k text hget
        simp only [context, skip, advance, List.length_take, List.length_drop]
        rwa [show s.oldLineNum + min c raw.length +
          (raw.length - min c raw.length - (raw.length - (raw.length - c))) + k =
            s.oldLineNum + (raw.length - c) + k by omega]
    · split
      · refine Prints.trans (prints_context ?_) (prints_skipAny hskip _ _)
        split
        · exact h
        · exact htake
      · split
        · refine (prints_skipAny hskip _ _).trans (prints_context fun k text hget => ?_)
          rw [skipAny_oldLineNum]
          exact hdrop (raw.length - c) k text hget
        · exact prints_refl s
  exact fun s' h => h

end DiffState

/-! ### Operations that fit their texts -/

/-- What an operation says about the lines of the texts themselves. -/
structure DiffOp.Fits (old new : List Text) (op : DiffOp) : Prop where
  same : op.isChange = false → op.oldLines old = op.newLines new
  noOld : op.isChange = true → op.isRemoved = false → op.oldLines old = []
  noNew : op.isChange = true → op.isAdded = false → op.newLines new = []
  oldLength : (op.oldLines old).length = op.oldEnd - op.oldStart
  newLength : (op.newLines new).length = op.newEnd - op.newStart
  oldLe : op.oldStart ≤ op.oldEnd
  newLe : op.newStart ≤ op.newEnd

lemma Turns.le {old new : List Text} {i j : Nat} {ops : List DiffOp} (h : Turns old new i j ops) :
    i ≤ old.length ∧ j ≤ new.length := by
  induction h with
  | nil => exact ⟨Nat.le_refl _, Nat.le_refl _⟩
  | cons hold hnew _ _ ih => exact ⟨hold.trans ih.1, hnew.trans ih.2⟩

/-- The lines of a range are the compared ones without their newlines. -/
lemma lineSlice_splitLines {text : Text} {first last : Nat} (h : last ≤ (fromLines text).length) :
    lineSlice (splitLines text) first last =
      (lineSlice (fromLines text) first last).map withoutNewline := by
  unfold lineSlice
  rw [List.map_drop, List.map_take]
  congr 1
  apply List.ext_getElem?
  intro i
  rcases Nat.lt_or_ge i last with hlt | hge
  · rw [List.getElem?_take_of_lt hlt, List.getElem?_take_of_lt hlt,
      getElem?_splitLines (hlt.trans_le h), List.getElem?_map]
  · rw [List.getElem?_take_eq_none hge, List.getElem?_take_eq_none hge]

lemma lineSlice_self (lines : List Text) (first : Nat) : lineSlice lines first first = [] := by
  unfold lineSlice
  rw [List.drop_eq_nil_iff, List.length_take]
  exact Nat.min_le_left _ _

section

variable {oldContent newContent : Text} {op : DiffOp} {ops : List DiffOp} {i j : Nat}

lemma DiffOp.Sound.fits (h : op.Sound (fromLines oldContent) (fromLines newContent))
    (hold : op.oldStart ≤ op.oldEnd) (hnew : op.newStart ≤ op.newEnd)
    (hlen : op.oldEnd ≤ (fromLines oldContent).length ∧
      op.newEnd ≤ (fromLines newContent).length) :
    op.Fits (splitLines oldContent) (splitLines newContent) where
  same := by
    intro hchange
    unfold DiffOp.oldLines DiffOp.newLines
    rw [lineSlice_splitLines hlen.1, lineSlice_splitLines hlen.2]
    congr 1
    unfold DiffOp.Sound at h
    cases htag : op.tag with
    | equal => rwa [htag] at h
    | _ => simp [DiffOp.isChange, DiffOp.isAdded, DiffOp.isRemoved, htag] at hchange
  noOld := by
    intro hchange hremoved
    unfold DiffOp.Sound at h
    cases htag : op.tag with
    | insert =>
      rw [htag] at h
      unfold DiffOp.oldLines
      rw [show op.oldEnd = op.oldStart from h, lineSlice_self]
    | _ => simp [DiffOp.isChange, DiffOp.isAdded, DiffOp.isRemoved, htag] at hchange hremoved
  noNew := by
    intro hchange hadded
    unfold DiffOp.Sound at h
    cases htag : op.tag with
    | delete =>
      rw [htag] at h
      unfold DiffOp.newLines
      rw [show op.newEnd = op.newStart from h, lineSlice_self]
    | _ => simp [DiffOp.isChange, DiffOp.isAdded, DiffOp.isRemoved, htag] at hchange hadded
  oldLength := length_lineSlice (hlen.1.trans (length_fromLines_le _))
  newLength := length_lineSlice (hlen.2.trans (length_fromLines_le _))
  oldLe := hold
  newLe := hnew

end

namespace DiffState

variable {old new : List Text} {s : DiffState} {op : DiffOp} {ops : List DiffOp} {c i j : Nat}
  {next : Bool}

/-- An operation moves both counters by the lines that are left of its block. -/
lemma step_counters (h : op.Fits old new) (s : DiffState) (c : Nat) (next : Bool) :
    (s.step old new c next op).oldLineNum = s.oldLineNum + (popEmpty (op.oldLines old)).length ∧
      (s.step old new c next op).newLineNum =
        s.newLineNum + (popEmpty (op.newLines new)).length ∧
      (s.step old new c next op).firstChangedLine =
        (if op.isChange then s.firstChangedLine.or (some s.newLineNum) else s.firstChangedLine) ∧
      (s.step old new c next op).lastWasChange = op.isChange := by
  unfold step
  cases hchange : op.isChange with
  | false =>
    obtain ⟨hold, hnew, hfirst, hlast⟩ := keep_counters s (popEmpty (op.oldLines old)) c next
    rw [if_neg (by simp), if_neg (by simp), ← h.same hchange]
    exact ⟨hold, hnew, hfirst, hlast⟩
  | true =>
    rw [if_pos rfl, if_pos rfl]
    have hold := h.noOld hchange
    have hnew := h.noNew hchange
    unfold change
    cases hremoved : op.isRemoved with
    | true =>
      cases hadded : op.isAdded with
      | true => exact ⟨rfl, rfl, rfl, rfl⟩
      | false =>
        rw [hnew hadded]
        exact ⟨rfl, rfl, rfl, rfl⟩
    | false =>
      rw [hold hremoved]
      cases hadded : op.isAdded with
      | true => exact ⟨rfl, rfl, rfl, rfl⟩
      | false =>
        rw [hnew hadded]
        exact ⟨rfl, rfl, rfl, rfl⟩

lemma change_out (s : DiffState) (old new : List Text) (op : DiffOp) :
    (s.change old new op).out =
      s.out ++ ((if op.isRemoved then numbered .removed s.oldLineNum (popEmpty (op.oldLines old))
        else []) ++
        if op.isAdded then numbered .added s.newLineNum (popEmpty (op.newLines new)) else []) := by
  unfold change
  cases op.isRemoved <;> cases op.isAdded <;> simp [add, remove]

/-- What an operation prints, by the kind of the line. -/
lemma prints_step (hskip : P .skipped)
    (hremoved : op.isRemoved = true → ∀ k text, (popEmpty (op.oldLines old))[k]? = some text →
      P (.removed (s.oldLineNum + k) text))
    (hadded : op.isAdded = true → ∀ k text, (popEmpty (op.newLines new))[k]? = some text →
      P (.added (s.newLineNum + k) text))
    (hcontext : ∀ k text, (popEmpty (op.oldLines old))[k]? = some text →
      P (.context (s.oldLineNum + k) text)) :
    Prints P s (s.step old new c next op) := by
  unfold step
  split
  · refine ⟨_, change_out s old new op, fun line hline => ?_⟩
    rcases List.mem_append.mp hline with hline | hline
    · split at hline
      next hop =>
        obtain ⟨k, text, hget, rfl⟩ := mem_numbered.mp hline
        exact hremoved hop k text hget
      next => cases hline
    · split at hline
      next hop =>
        obtain ⟨k, text, hget, rfl⟩ := mem_numbered.mp hline
        exact hadded hop k text hget
      next => cases hline
  · exact prints_keep hskip hcontext c next

lemma prints_step_numbered (hold : s.oldLineNum = op.oldStart + 1)
    (hnew : s.newLineNum = op.newStart + 1) :
    Prints (DiffLine.Numbered old new) s (s.step old new c next op) := by
  have holdGet (k : Nat) (text : Text) (hget : (popEmpty (op.oldLines old))[k]? = some text) :
      0 < s.oldLineNum + k ∧ old[s.oldLineNum + k - 1]? = some text := by
    rw [hold]
    exact (stands_popEmpty (stands_lineSlice old op.oldStart op.oldEnd)).numbered hget
  have hnewGet (k : Nat) (text : Text) (hget : (popEmpty (op.newLines new))[k]? = some text) :
      0 < s.newLineNum + k ∧ new[s.newLineNum + k - 1]? = some text := by
    rw [hnew]
    exact (stands_popEmpty (stands_lineSlice new op.newStart op.newEnd)).numbered hget
  exact prints_step trivial (fun _ => holdGet) (fun _ => hnewGet) holdGet

/-- A line of a range is printed with its number. -/
lemma mem_numbered_lineSlice {all : List Text} {first last i : Nat} {line : Text}
    (hblank : endsBlank (lineSlice all first last) = false) (hi : first ≤ i) (hlt : i < last)
    (hget : all[i]? = some line) (print : Nat → Text → DiffLine) :
    print (i + 1) line ∈ numbered print (first + 1) (popEmpty (lineSlice all first last)) := by
  rw [popEmpty_of_not_endsBlank hblank, mem_numbered]
  refine ⟨i - first, line, ?_, by rw [show first + 1 + (i - first) = i + 1 by omega]⟩
  unfold lineSlice
  rw [List.getElem?_drop, Nat.add_sub_cancel' hi, List.getElem?_take_of_lt hlt]
  exact hget

lemma step_deleted (hremoved : op.isRemoved = true) (hs : s.oldLineNum = op.oldStart + 1)
    (hblank : endsBlank (op.oldLines old) = false) {line : Text} (hi : op.oldStart ≤ i)
    (hlt : i < op.oldEnd) (hget : old[i]? = some line) :
    .removed (i + 1) line ∈ (s.step old new c next op).out := by
  have hmem := mem_numbered_lineSlice hblank hi hlt hget .removed
  unfold step
  rw [if_pos (by simp [DiffOp.isChange, hremoved]), change_out, hs, if_pos hremoved]
  exact List.mem_append_right _ (List.mem_append_left _ hmem)

lemma step_inserted (hadded : op.isAdded = true) (hs : s.newLineNum = op.newStart + 1)
    (hblank : endsBlank (op.newLines new) = false) {line : Text} (hi : op.newStart ≤ i)
    (hlt : i < op.newEnd) (hget : new[i]? = some line) :
    .added (i + 1) line ∈ (s.step old new c next op).out := by
  have hmem := mem_numbered_lineSlice hblank hi hlt hget .added
  unfold step
  rw [if_pos (by simp [DiffOp.isChange, hadded]), change_out, hs, if_pos hadded]
  exact List.mem_append_right _ (List.mem_append_right _ hmem)

/-! ### The whole list -/

/-- Nothing is printed when no change is left and none has just been printed. -/
lemma loop_of_no_change (h : ops.any (·.isChange) = false) (hlast : s.lastWasChange = false) :
    (loop old new c ops s).out = s.out ∧
      (loop old new c ops s).firstChangedLine = s.firstChangedLine := by
  induction ops generalizing s with
  | nil => exact ⟨rfl, rfl⟩
  | cons op ops ih =>
    rw [List.any_cons, Bool.or_eq_false_iff] at h
    have hnext : ops.head?.any (·.isChange) = false := by
      cases ops with
      | nil => rfl
      | cons op' ops => exact (Bool.or_eq_false_iff.mp h.2).1
    have hstep : s.step old new c false op =
        { s.advance (popEmpty (op.oldLines old)).length with lastWasChange := false } := by
      unfold step keep
      rw [if_neg (by simp [h.1]), hlast]
      rfl
    unfold loop
    rw [hnext, hstep]
    exact ih h.2 rfl

/-- What is shown between two states for some operations. -/
structure Shows (old new : List Text) (ops : List DiffOp) (s s' : DiffState) : Prop where
  prints : Prints (DiffLine.Numbered old new) s s'
  deleted : ∀ op ∈ ops, op.isRemoved = true → ∀ i line, op.oldStart ≤ i → i < op.oldEnd →
    old[i]? = some line → .removed (i + 1) line ∈ s'.out
  inserted : ∀ op ∈ ops, op.isAdded = true → ∀ i line, op.newStart ≤ i → i < op.newEnd →
    new[i]? = some line → .added (i + 1) line ∈ s'.out
  first : s'.firstChangedLine =
    s.firstChangedLine.or ((ops.find? (·.isChange)).map (·.newStart + 1))

lemma endsBlank_of_losesBlank (h : losesBlank old new (op :: ops) = false)
    (hchange : op.isChange = true) :
    endsBlank (op.oldLines old) = false ∧ endsBlank (op.newLines new) = false ∧
      losesBlank old new ops = false := by
  unfold losesBlank at h
  rw [if_pos hchange, Bool.or_eq_false_iff, Bool.or_eq_false_iff] at h
  exact ⟨h.1.1, h.1.2, h.2⟩

/-- One operation, and the operations after it. -/
lemma Shows.cons {s s₁ s' : DiffState} (hstep : Shows old new [op] s s₁)
    (h : Shows old new ops s₁ s') : Shows old new (op :: ops) s s' where
  prints := hstep.prints.trans h.prints
  deleted := by
    intro o ho hremoved i line hi hlt hget
    rcases List.mem_cons.mp ho with rfl | ho
    · exact h.prints.mem (hstep.deleted o (List.mem_singleton_self o) hremoved i line hi hlt hget)
    · exact h.deleted o ho hremoved i line hi hlt hget
  inserted := by
    intro o ho hadded i line hi hlt hget
    rcases List.mem_cons.mp ho with rfl | ho
    · exact h.prints.mem (hstep.inserted o (List.mem_singleton_self o) hadded i line hi hlt hget)
    · exact h.inserted o ho hadded i line hi hlt hget
  first := by
    rw [h.first, hstep.first, Option.or_assoc]
    congr 1
    cases hchange : op.isChange <;> simp [List.find?_cons, hchange]

/-- An operation that starts at the counters and does not end in a blank line. -/
lemma shows_step (hfits : op.Fits old new) (hold : s.oldLineNum = op.oldStart + 1)
    (hnew : s.newLineNum = op.newStart + 1)
    (hblank : op.isChange = true →
      endsBlank (op.oldLines old) = false ∧ endsBlank (op.newLines new) = false) :
    Shows old new [op] s (s.step old new c next op) where
  prints := prints_step_numbered hold hnew
  deleted := by
    intro o ho hremoved i line hi hlt hget
    obtain rfl := List.mem_singleton.mp ho
    exact step_deleted hremoved hold (hblank (by simp [DiffOp.isChange, hremoved])).1 hi hlt hget
  inserted := by
    intro o ho hadded i line hi hlt hget
    obtain rfl := List.mem_singleton.mp ho
    exact step_inserted hadded hnew (hblank (by simp [DiffOp.isChange, hadded])).2 hi hlt hget
  first := by
    rw [(step_counters hfits s c next).2.2.1, hnew]
    cases hchange : op.isChange <;> simp [hchange]

/-- The operations after the last change. -/
lemma shows_of_no_change (h : ops.any (·.isChange) = false) (hlast : s.lastWasChange = false) :
    Shows old new ops s (loop old new c ops s) := by
  obtain ⟨hout, hfirst⟩ : (loop old new c ops s).out = s.out ∧
      (loop old new c ops s).firstChangedLine = s.firstChangedLine := loop_of_no_change h hlast
  have hnone : ∀ op ∈ ops, op.isChange = false := by
    intro op hop
    simpa using (List.any_eq_false.mp h) op hop
  refine ⟨⟨[], by rw [hout, List.append_nil], fun _ hline => by cases hline⟩, ?_, ?_, ?_⟩
  · intro op hop hremoved
    have hchange := hnone op hop
    simp [DiffOp.isChange, hremoved] at hchange
  · intro op hop hadded
    have hchange := hnone op hop
    simp [DiffOp.isChange, hadded] at hchange
  · rw [hfirst, List.find?_eq_none.mpr (by simpa using hnone)]
    exact (Option.or_none).symm

/-- Without a lost blank line every printed number is right and every change is printed. -/
lemma shows_loop {oldContent newContent : Text}
    (h : Turns (fromLines oldContent) (fromLines newContent) i j ops)
    (hblank : losesBlank (splitLines oldContent) (splitLines newContent) ops = false)
    (hold : s.oldLineNum = i + 1) (hnew : s.newLineNum = j + 1) :
    Shows (splitLines oldContent) (splitLines newContent) ops s
      (loop (splitLines oldContent) (splitLines newContent) c ops s) := by
  induction h generalizing s with
  | nil =>
    exact ⟨prints_refl s, fun _ hop => absurd hop List.not_mem_nil,
      fun _ hop => absurd hop List.not_mem_nil, Option.or_none.symm⟩
  | @cons op ops holdLe hnewLe hsound hturns ih =>
    have hfits := hsound.fits holdLe hnewLe hturns.le
    obtain ⟨holdNum, hnewNum, -, hlast⟩ := step_counters hfits s c (ops.head?.any (·.isChange))
    have hnumbers (hend : endsBlank (op.oldLines (splitLines oldContent)) = false)
        (hend' : endsBlank (op.newLines (splitLines newContent)) = false) :
        (s.step (splitLines oldContent) (splitLines newContent) c
            (ops.head?.any (·.isChange)) op).oldLineNum = op.oldEnd + 1 ∧
          (s.step (splitLines oldContent) (splitLines newContent) c
            (ops.head?.any (·.isChange)) op).newLineNum = op.newEnd + 1 := by
      rw [holdNum, hnewNum, popEmpty_of_not_endsBlank hend, popEmpty_of_not_endsBlank hend',
        hfits.oldLength, hfits.newLength]
      omega
    cases hchange : op.isChange with
    | true =>
      obtain ⟨hend, hend', hrest⟩ := endsBlank_of_losesBlank hblank hchange
      obtain ⟨holdNext, hnewNext⟩ := hnumbers hend hend'
      exact (shows_step hfits hold hnew fun _ => ⟨hend, hend'⟩).cons (ih hrest holdNext hnewNext)
    | false =>
      have hstep : Shows _ _ [op] s (s.step (splitLines oldContent) (splitLines newContent) c
          (ops.head?.any (·.isChange)) op) :=
        shows_step hfits hold hnew fun h => by rw [hchange] at h; cases h
      unfold losesBlank at hblank
      rw [hchange, if_neg (by simp), Bool.or_eq_false_iff, Bool.and_eq_false_iff] at hblank
      cases hany : ops.any (·.isChange) with
      | true =>
        have hend := hblank.1.resolve_right (by simp [hany])
        obtain ⟨holdNext, hnewNext⟩ := hnumbers hend (hfits.same hchange ▸ hend)
        exact hstep.cons (ih hblank.2 holdNext hnewNext)
      | false => exact hstep.cons (shows_of_no_change hany (hlast.trans hchange))

end DiffState

/-! ### Lost lines -/

open Numbered

def DiffOp.oldCount (old : List Text) (op : DiffOp) : Nat := (op.oldLines old).length

def DiffOp.newCount (new : List Text) (op : DiffOp) : Nat := (op.newLines new).length

/-- What is left of a block of old or new lines. -/
def DiffOp.oldLeft (old : List Text) (op : DiffOp) : Nat := (popEmpty (op.oldLines old)).length

def DiffOp.newLeft (new : List Text) (op : DiffOp) : Nat := (popEmpty (op.newLines new)).length

section

variable {old new : List Text} {op : DiffOp} {ops : List DiffOp} {i j m c : Nat} {line : Text}
  {s : DiffState}

lemma length_popEmpty_le (lines : List Text) : (popEmpty lines).length ≤ lines.length := by
  unfold popEmpty
  split
  · rw [List.length_dropLast]
    exact Nat.sub_le _ _
  · exact Nat.le_refl _

lemma length_popEmpty_lt {lines : List Text} (h : endsBlank lines = true) :
    (popEmpty lines).length < lines.length := by
  unfold endsBlank at h
  have hne : lines ≠ [] := by
    rintro rfl
    simp at h
  have hpos := List.length_pos_iff.mpr hne
  unfold popEmpty
  rw [if_pos (by simpa using h), List.length_dropLast]
  omega

/-- A printed number is one of the counter while the block is printed. -/
def InBlock (old new : List Text) (s : DiffState) (op : DiffOp) : DiffLine → Prop
  | .removed m _ => op.isRemoved = true ∧ s.oldLineNum ≤ m ∧ m < s.oldLineNum + op.oldLeft old
  | .added m _ => op.isAdded = true ∧ s.newLineNum ≤ m ∧ m < s.newLineNum + op.newLeft new
  | _ => True

lemma prints_inBlock (s : DiffState) (op : DiffOp) (c : Nat) (next : Bool) :
    DiffState.Prints (InBlock old new s op) s (s.step old new c next op) := by
  apply DiffState.prints_step trivial
  · intro hremoved k text hget
    have hlt := (List.getElem?_eq_some_iff.mp hget).1
    exact ⟨hremoved, Nat.le_add_right _ _, Nat.add_lt_add_left hlt _⟩
  · intro hadded k text hget
    have hlt := (List.getElem?_eq_some_iff.mp hget).1
    exact ⟨hadded, Nat.le_add_right _ _, Nat.add_lt_add_left hlt _⟩
  · exact fun _ _ _ => trivial

/-- The numbers of the counters while some operations are printed. -/
def InBlocks (old new : List Text) (s : DiffState) (ops : List DiffOp) : DiffLine → Prop
  | .removed m _ => m ∈ numbersFrom (·.oldLeft old) (·.isRemoved) s.oldLineNum ops
  | .added m _ => m ∈ numbersFrom (·.newLeft new) (·.isAdded) s.newLineNum ops
  | _ => True

lemma inBlocks_of_mem_loop (hfits : ∀ op ∈ ops, op.Fits old new) {line : DiffLine}
    (h : line ∈ (DiffState.loop old new c ops s).out) :
    line ∈ s.out ∨ InBlocks old new s ops line := by
  induction ops generalizing s with
  | nil => exact .inl h
  | cons op ops ih =>
    obtain ⟨hold, hnew, -, -⟩ :=
      DiffState.step_counters (hfits op List.mem_cons_self) s c (ops.head?.any (·.isChange))
    rcases ih (fun o ho => hfits o (List.mem_cons_of_mem op ho)) h with hstep | hrest
    · apply ((prints_inBlock s op c _).of_mem hstep).imp_right
      intro hblock
      cases line with
      | removed m text => exact mem_numbersFrom_cons.mpr (.inl hblock)
      | added m text => exact mem_numbersFrom_cons.mpr (.inl hblock)
      | _ => trivial
    · right
      cases line with
      | removed m text =>
        apply mem_numbersFrom_cons.mpr
        right
        unfold InBlocks at hrest
        rwa [hold] at hrest
      | added m text =>
        apply mem_numbersFrom_cons.mpr
        right
        unfold InBlocks at hrest
        rwa [hnew] at hrest
      | _ => trivial

variable {oldContent newContent : Text}

lemma Turns.fits (h : Turns (fromLines oldContent) (fromLines newContent) i j ops) :
    ∀ op ∈ ops, op.Fits (splitLines oldContent) (splitLines newContent) := by
  induction h with
  | nil => exact fun op hop => absurd hop List.not_mem_nil
  | cons hold hnew hsound hturns ih =>
    intro o ho
    rcases List.mem_cons.mp ho with rfl | ho
    · exact hsound.fits hold hnew hturns.le
    · exact ih o ho

/-- The numbers of the deleted and of the inserted lines. -/
lemma Turns.numbers (h : Turns (fromLines oldContent) (fromLines newContent) i j ops) :
    (∀ m ∈ numbersFrom (·.oldCount (splitLines oldContent)) (·.isRemoved) (i + 1) ops,
      ∃ op ∈ ops, op.isRemoved = true ∧ op.oldStart < m ∧ m ≤ op.oldEnd ∧
        m ≤ (splitLines oldContent).length) ∧
    ∀ m ∈ numbersFrom (·.newCount (splitLines newContent)) (·.isAdded) (j + 1) ops,
      ∃ op ∈ ops, op.isAdded = true ∧ op.newStart < m ∧ m ≤ op.newEnd ∧
        m ≤ (splitLines newContent).length := by
  induction h with
  | nil => exact ⟨fun m hm => absurd hm List.not_mem_nil, fun m hm => absurd hm List.not_mem_nil⟩
  | @cons op ops hold hnew hsound hturns ih =>
    have hfits := hsound.fits hold hnew hturns.le
    have holdLe := hturns.le.1.trans (length_fromLines_le oldContent)
    have hnewLe := hturns.le.2.trans (length_fromLines_le newContent)
    constructor
    · intro m hm
      rw [mem_numbersFrom_cons, DiffOp.oldCount, hfits.oldLength] at hm
      rcases hm with ⟨hremoved, hle, hlt⟩ | hm
      · exact ⟨op, List.mem_cons_self, hremoved, by omega, by omega, by omega⟩
      · rw [show op.oldStart + 1 + (op.oldEnd - op.oldStart) = op.oldEnd + 1 by omega] at hm
        obtain ⟨o, ho, hrest⟩ := ih.1 m hm
        exact ⟨o, List.mem_cons_of_mem op ho, hrest⟩
    · intro m hm
      rw [mem_numbersFrom_cons, DiffOp.newCount, hfits.newLength] at hm
      rcases hm with ⟨hadded, hle, hlt⟩ | hm
      · exact ⟨op, List.mem_cons_self, hadded, by omega, by omega, by omega⟩
      · rw [show op.newStart + 1 + (op.newEnd - op.newStart) = op.newEnd + 1 by omega] at hm
        obtain ⟨o, ho, hrest⟩ := ih.2 m hm
        exact ⟨o, List.mem_cons_of_mem op ho, hrest⟩

/-- When every change is printed, no block loses a line before the last deleted line and none
before the last inserted line. -/
lemma NumbersLines.left_eq (h : Turns (fromLines oldContent) (fromLines newContent) 0 0 ops)
    (hnumbers : NumbersLines (splitLines oldContent) (splitLines newContent) ops
      (diffState oldContent newContent c ops).out
      (diffState oldContent newContent c ops).firstChangedLine)
    {before after : List DiffOp} (hops : ops = before ++ op :: after) :
    ((∃ o ∈ op :: after, o.isRemoved = true ∧ 0 < o.oldCount (splitLines oldContent)) →
      op.oldLeft (splitLines oldContent) = op.oldCount (splitLines oldContent)) ∧
    ((∃ o ∈ op :: after, o.isAdded = true ∧ 0 < o.newCount (splitLines newContent)) →
      op.newLeft (splitLines newContent) = op.newCount (splitLines newContent)) := by
  have hleft {line : DiffLine} (hline : line ∈ (diffState oldContent newContent c ops).out) :
      InBlocks (splitLines oldContent) (splitLines newContent) .start ops line :=
    (inBlocks_of_mem_loop h.fits hline).resolve_left List.not_mem_nil
  obtain ⟨hdeleted, hinserted⟩ := h.numbers
  constructor
  · have hall : ∀ m ∈ numbersFrom (·.oldCount (splitLines oldContent)) (·.isRemoved) 1 ops,
        m ∈ numbersFrom (·.oldLeft (splitLines oldContent)) (·.isRemoved) 1 ops := by
      intro m hm
      obtain ⟨o, ho, hremoved, hlt, hle, hlen⟩ := hdeleted m hm
      have hmem := hnumbers.deleted o ho hremoved (m - 1) _ (by omega) (by omega)
        (List.getElem?_eq_getElem (by omega))
      rw [show m - 1 + 1 = m by omega] at hmem
      exact hleft hmem
    rw [hops] at hall
    exact count_eq_of_split (fun o => length_popEmpty_le _) (Nat.le_refl 1) hall
  · have hall : ∀ m ∈ numbersFrom (·.newCount (splitLines newContent)) (·.isAdded) 1 ops,
        m ∈ numbersFrom (·.newLeft (splitLines newContent)) (·.isAdded) 1 ops := by
      intro m hm
      obtain ⟨o, ho, hadded, hlt, hle, hlen⟩ := hinserted m hm
      have hmem := hnumbers.inserted o ho hadded (m - 1) _ (by omega) (by omega)
        (List.getElem?_eq_getElem (by omega))
      rw [show m - 1 + 1 = m by omega] at hmem
      exact hleft hmem
    rw [hops] at hall
    exact count_eq_of_split (fun o => length_popEmpty_le _) (Nat.le_refl 1) hall

/-- A block that loses a blank line. -/
lemma exists_of_losesBlank (h : losesBlank old new ops = true) :
    ∃ before op after, ops = before ++ op :: after ∧
      ((op.isChange = true ∧ (endsBlank (op.oldLines old) = true ∨
          endsBlank (op.newLines new) = true)) ∨
        (op.isChange = false ∧ endsBlank (op.oldLines old) = true ∧
          ∃ o ∈ after, o.isChange = true)) := by
  induction ops with
  | nil => cases h
  | cons op ops ih =>
    unfold losesBlank at h
    rw [Bool.or_eq_true] at h
    rcases h with hop | hrest
    · refine ⟨[], op, ops, rfl, ?_⟩
      cases hchange : op.isChange with
      | true =>
        rw [hchange, if_pos rfl, Bool.or_eq_true] at hop
        exact .inl ⟨rfl, hop⟩
      | false =>
        rw [hchange, if_neg (by simp), Bool.and_eq_true, List.any_eq_true] at hop
        exact .inr ⟨rfl, hop⟩
    · obtain ⟨before, o, after, rfl, ho⟩ := ih hrest
      exact ⟨op :: before, o, after, rfl, ho⟩

/-- The changes are not empty. -/
def Changes (ops : List DiffOp) : Prop :=
  ∀ op ∈ ops, op.isChange = true → op.oldStart < op.oldEnd ∨ op.newStart < op.newEnd

lemma DiffOp.Fits.isRemoved (h : op.Fits old new) (hchange : op.isChange = true)
    (hcount : 0 < op.oldCount old) : op.isRemoved = true := by
  by_contra hremoved
  rw [DiffOp.oldCount, h.noOld hchange (by simpa using hremoved)] at hcount
  exact absurd hcount (Nat.lt_irrefl 0)

lemma DiffOp.Fits.isAdded (h : op.Fits old new) (hchange : op.isChange = true)
    (hcount : 0 < op.newCount new) : op.isAdded = true := by
  by_contra hadded
  rw [DiffOp.newCount, h.noNew hchange (by simpa using hadded)] at hcount
  exact absurd hcount (Nat.lt_irrefl 0)

lemma NumbersLines.losesBlank_eq (h : Turns (fromLines oldContent) (fromLines newContent) 0 0 ops)
    (hchanges : Changes ops)
    (hnumbers : NumbersLines (splitLines oldContent) (splitLines newContent) ops
      (diffState oldContent newContent c ops).out
      (diffState oldContent newContent c ops).firstChangedLine) :
    losesBlank (splitLines oldContent) (splitLines newContent) ops = false := by
  by_contra hloses
  obtain ⟨before, op, after, hops, hop⟩ := exists_of_losesBlank (by simpa using hloses)
  obtain ⟨hold, hnew⟩ := NumbersLines.left_eq h hnumbers hops
  have hmem : ∀ o ∈ op :: after, o ∈ ops := by
    intro o ho
    rw [hops]
    exact List.mem_append_right _ ho
  have hfits := h.fits op (hmem op List.mem_cons_self)
  have holdLt (hblank : endsBlank (op.oldLines (splitLines oldContent)) = true) :
      op.oldLeft (splitLines oldContent) < op.oldCount (splitLines oldContent) :=
    length_popEmpty_lt hblank
  have hnewLt (hblank : endsBlank (op.newLines (splitLines newContent)) = true) :
      op.newLeft (splitLines newContent) < op.newCount (splitLines newContent) :=
    length_popEmpty_lt hblank
  rcases hop with ⟨hchange, hblank | hblank⟩ | ⟨hchange, hblank, o, ho, hochange⟩
  · have hlt := holdLt hblank
    have heq := hold ⟨op, List.mem_cons_self, hfits.isRemoved hchange (by omega), by omega⟩
    omega
  · have hlt := hnewLt hblank
    have heq := hnew ⟨op, List.mem_cons_self, hfits.isAdded hchange (by omega), by omega⟩
    omega
  · have hofits := h.fits o (hmem o (List.mem_cons_of_mem op ho))
    have holt := holdLt hblank
    have hnlt := hnewLt (hfits.same hchange ▸ hblank)
    rcases hchanges o (hmem o (List.mem_cons_of_mem op ho)) hochange with hlt | hlt
    · have hpos : 0 < o.oldCount (splitLines oldContent) := by
        rw [DiffOp.oldCount, hofits.oldLength]
        omega
      have heq := hold ⟨o, List.mem_cons_of_mem op ho, hofits.isRemoved hochange hpos, hpos⟩
      omega
    · have hpos : 0 < o.newCount (splitLines newContent) := by
        rw [DiffOp.newCount, hofits.newLength]
        omega
      have heq := hnew ⟨o, List.mem_cons_of_mem op ho, hofits.isAdded hochange hpos, hpos⟩
      omega

end

end Edit
