import RpiPackage.Web.Rows

/-!
# Paging the transcript

The pages of a transcript, put before each other from the newest to the oldest, give the rows of
the whole exactly when no tool call is parted from its result.
-/

namespace Transcript

open Js (Value Numeric)

variable {ν : Type*} [Numeric ν] {P : Platform ν} {ms ms' : List (Value ν)} {row row' : Row ν}
  {rows older current : List (Row ν)}

/-! ### One page -/

lemma nodup_id_append {left right : List (Row ν)} (h : (left.map Row.id).Nodup)
    (h' : (right.map Row.id).Nodup) (hne : ∀ row ∈ left, ∀ row' ∈ right, row.id ≠ row'.id) :
    ((left ++ right).map Row.id).Nodup := by
  rw [List.map_append, List.nodup_append]
  refine ⟨h, h', fun id hid id' hid' => ?_⟩
  obtain ⟨row, hrow, rfl⟩ := List.mem_map.mp hid
  obtain ⟨row', hrow', rfl⟩ := List.mem_map.mp hid'
  exact hne row hrow row' hrow'

lemma Projected.addMessage {message : Value ν} (hp : P.Paired (ms ++ [message]))
    (h : Projected P ms rows) (i : Nat) :
    Projected P (ms ++ [message]) (P.addMessage rows (message, i)) := by
  obtain ⟨key, hkey, huuid⟩ := hp.right.entryId message List.mem_cons_self
  have hcalls : (P.calls message).Nodup := by simpa using hp.right.calls
  obtain ⟨hshape, -, hof⟩ := @project_fst _ _ P ms rows message key
  obtain ⟨hshapes, hadded, hanswer⟩ := addedRows_spec (P := P) hkey huuid hcalls rows
  rw [addMessage_eq (hp.right.isObject message List.mem_cons_self) hkey]
  refine ⟨nodup_id_append ?_ ?_ ?_, fun row hrow => ?_, fun id hid => ?_⟩
  · rw [map_id_eq, hshape, ← map_id_eq]
    exact h.nodup
  · rw [map_id_eq]
    exact hshapes.nodup
  · intro row hrow row' hrow' heq
    obtain ⟨id, hid, -, hanswers, htool, htool'⟩ := (hof h.of row hrow).eq_call hp
      (hadded row' hrow') heq
    have hanswers' : P.answers message = some id := by simpa using hanswers
    rw [hid] at htool htool'
    have hthere : ("call-" ++ id, true) ∈ rows.map Row.shape := by
      rw [← hshape]
      exact any_isTool_iff.mp (List.any_eq_true.mpr ⟨row, hrow, htool⟩)
    have hagain := any_isTool_iff.mp (List.any_eq_true.mpr ⟨row', hrow', htool'⟩)
    exact (hanswer id hanswers').mp hagain hthere
  · rcases List.mem_append.mp hrow with hrow | hrow
    · exact (hof h.of row hrow).mono (List.subset_append_left _ _)
    · exact (hadded row hrow).mono (List.subset_append_right _ _)
  · rw [List.map_append, hshape, List.mem_append]
    rw [List.flatMap_append, List.mem_append, List.filterMap_append, List.mem_append] at hid
    rcases hid with (hcall | hcall) | (hans | hans)
    · exact .inl (h.covers id (.inl hcall))
    · exact .inr (hshapes.covers id (by simpa using hcall))
    · exact .inl (h.covers id (.inr hans))
    · by_cases hthere : ("call-" ++ id, true) ∈ rows.map Row.shape
      · exact .inl hthere
      · exact .inr ((hanswer id (by simpa using hans)).mpr hthere)

/-- The number of a message has no part in its rows when it has an entry id. -/
lemma addMessage_index {message : Value ν} {key : String} (hobject : message.isObject = true)
    (hkey : message.get "entryId" = .string key) (rows : List (Row ν)) (i j : Nat) :
    P.addMessage rows (message, i) = P.addMessage rows (message, j) := by
  rw [addMessage_eq hobject hkey, addMessage_eq hobject hkey]

/-- The rows that messages make of the rows that are there. -/
def addMessages (P : Platform ν) (rows : List (Row ν)) (ms : List (Value ν)) : List (Row ν) :=
  ms.foldl (fun rows m => P.addMessage rows (m, 0)) rows

lemma foldl_zipIdx_addMessage (hp : P.Paired ms) (rows : List (Row ν)) (start : Nat) :
    (ms.zipIdx start).foldl P.addMessage rows = addMessages P rows ms := by
  induction ms generalizing rows start with
  | nil => rfl
  | cons m ms ih =>
    obtain ⟨key, hkey, -⟩ := hp.entryId m List.mem_cons_self
    rw [List.zipIdx_cons, List.foldl_cons, addMessages, List.foldl_cons,
      addMessage_index (hp.isObject m List.mem_cons_self) hkey rows start 0]
    exact ih hp.of_cons _ _

lemma rowsFromMessages_eq (hp : P.Paired ms) : P.rowsFromMessages ms = addMessages P [] ms :=
  foldl_zipIdx_addMessage hp [] 0

lemma projected_rowsFromMessages (hp : P.Paired ms) : Projected P ms (P.rowsFromMessages ms) := by
  rw [rowsFromMessages_eq hp]
  induction ms using List.reverseRecOn with
  | nil => exact projected_nil P
  | append_singleton ms m ih =>
    rw [addMessages, List.foldl_append]
    exact (ih hp.left).addMessage hp 0

/-! ### Older rows -/

lemma shape_mergeRow (row candidate : Row ν) : (mergeRow row candidate).shape = candidate.shape := by
  unfold mergeRow
  split
  · rename_i c r hc hr
    simp [Row.shape, hc]
  · rfl

/-- A row either adds to the row of its tool call, or is there already, or goes last. -/
lemma prependRow_cases (merged : List (Row ν)) (row : Row ν) :
    (row.isTool row.id = true ∧ merged.any (Row.isTool row.id) = true ∧
        prependRow merged row = First.update (Row.isTool row.id) (mergeRow row) merged) ∨
      (¬(row.isTool row.id = true ∧ merged.any (Row.isTool row.id) = true) ∧
        row.id ∈ merged.map Row.id ∧ prependRow merged row = merged) ∨
      row.id ∉ merged.map Row.id ∧ prependRow merged row = merged ++ [row] := by
  unfold prependRow
  split
  · rename_i h
    rw [Bool.and_eq_true] at h
    exact .inl ⟨h.1, h.2, rfl⟩
  · rename_i h
    rw [Bool.and_eq_true] at h
    split
    · rename_i hany
      obtain ⟨candidate, hmem, hid⟩ := List.any_eq_true.mp hany
      exact .inr (.inl ⟨h, List.mem_map.mpr ⟨candidate, hmem, beq_iff_eq.mp hid⟩, rfl⟩)
    · rename_i hany
      refine .inr (.inr ⟨fun hmem => hany ?_, rfl⟩)
      obtain ⟨candidate, hmem, hid⟩ := List.mem_map.mp hmem
      exact List.any_eq_true.mpr ⟨candidate, hmem, beq_iff_eq.mpr hid⟩

lemma isUndefined_orElse {a b : Value ν} (h : isUndefined b = false) :
    isUndefined (orElse a b) = false := by
  cases a <;> first | exact h | rfl

lemma comesOf_mergeRow (h : row.ComesOf P ms) (h' : row'.ComesOf P ms) :
    (mergeRow row' row).ComesOf P ms := by
  unfold mergeRow
  split
  · rename_i c r hc hr
    refine ⟨?_, fun t ht => ?_, fun hnot => absurd rfl (hnot _)⟩
    · obtain ⟨m, hm, key, hkey, heq⟩ := h.entry
      obtain ⟨m', hm', key', hkey', heq'⟩ := h'.entry
      dsimp only
      rw [heq, heq']
      split
      · exact ⟨m', hm', key', hkey', rfl⟩
      · split
        · exact ⟨m, hm, key, hkey, rfl⟩
        · exact ⟨m', hm', key', hkey', rfl⟩
    · cases ht
      obtain ⟨id, hid, hof⟩ := h.tool c hc
      exact ⟨id, hid, hof.imp_right fun hanswer => ⟨hanswer.1, isUndefined_orElse hanswer.2⟩⟩
  · exact h

/-- Rows of these messages that have the id of a tool call are tool rows. -/
lemma shape_of_call_id (h : row.ComesOf P ms) {id : String} (hid : row.id = "call-" ++ id) :
    row.shape = ("call-" ++ id, true) := by
  by_cases htool : ∃ t, row.content = .tool t
  · exact Row.isTool_iff_shape.mp (Row.isTool_iff.mpr ⟨htool, hid⟩)
  · obtain ⟨m, -, key, -, huuid, hown⟩ := h.own fun t ht => htool ⟨t, ht⟩
    rw [hid] at hown
    exact absurd hown (not_own_call huuid id)

/-- The parts of `Projected` that a merge with rows of later messages keeps. -/
lemma prependRow_spec {merged : List (Row ν)} (hnodup : (merged.map Row.id).Nodup)
    (hof : ∀ row ∈ merged, row.ComesOf P ms) (hrow : row.ComesOf P ms) :
    ((prependRow merged row).map Row.id).Nodup ∧
      (∀ row' ∈ prependRow merged row, row'.ComesOf P ms) ∧
      (∀ p ∈ merged.map Row.shape, p ∈ (prependRow merged row).map Row.shape) ∧
      (row.shape.2 = true → row.shape ∈ (prependRow merged row).map Row.shape) := by
  rcases prependRow_cases merged row with ⟨htool, hany, heq⟩ | ⟨hnot, hmem, heq⟩ | ⟨hnew, heq⟩
  · have hshape : (prependRow merged row).map Row.shape = merged.map Row.shape := by
      rw [heq]
      exact First.map_update fun candidate _ _ => shape_mergeRow row candidate
    refine ⟨?_, fun row' hrow' => ?_, fun p hp => hshape ▸ hp, fun _ => ?_⟩
    · rw [map_id_eq, hshape, ← map_id_eq]
      exact hnodup
    · rw [heq] at hrow'
      rcases First.mem_or_of_mem_update hrow' with hold | ⟨old, hold, -, rfl⟩
      · exact hof row' hold
      · exact comesOf_mergeRow (hof old hold) hrow
    · rw [hshape, Row.isTool_iff_shape.mp htool]
      exact any_isTool_iff.mp hany
  · rw [heq]
    refine ⟨hnodup, hof, fun p hp => hp, fun htrue => ?_⟩
    -- the row that is there is a tool row too
    obtain ⟨⟨t, ht⟩, -⟩ := Row.isTool_iff.mp (Row.isTool_iff_shape.mpr
      (show row.shape = (row.id, true) from Prod.ext rfl htrue))
    obtain ⟨id, hid, -⟩ := hrow.tool t ht
    obtain ⟨candidate, hcandidate, heqid⟩ := List.mem_map.mp hmem
    have hshape := shape_of_call_id (hof candidate hcandidate) (heqid.trans hid)
    refine absurd ⟨Row.isTool_iff.mpr ⟨⟨t, ht⟩, rfl⟩, any_isTool_iff.mpr ?_⟩ hnot
    rw [hid, ← hshape]
    exact List.mem_map_of_mem (f := Row.shape) hcandidate
  · rw [heq]
    refine ⟨?_, fun row' hrow' => ?_, fun p hp => ?_, fun _ => ?_⟩
    · refine nodup_id_append hnodup (by simp) fun old hold new hnew' hid => hnew ?_
      rw [List.mem_singleton.mp hnew'] at hid
      exact List.mem_map.mpr ⟨old, hold, hid⟩
    · rcases List.mem_append.mp hrow' with hold | hnew'
      · exact hof row' hold
      · exact List.mem_singleton.mp hnew' ▸ hrow
    · rw [List.map_append]
      exact List.mem_append_left _ hp
    · rw [List.map_append]
      exact List.mem_append_right _ List.mem_cons_self

/-- Older rows and rows of later messages are together those of all the messages. -/
lemma Projected.prepend (h : Projected P ms older) (h' : Projected P ms' current) :
    Projected P (ms ++ ms') (prependRows older current) := by
  have hcurrent : ∀ row ∈ current, row.ComesOf P (ms ++ ms') := fun row hrow =>
    (h'.of row hrow).mono (List.subset_append_right _ _)
  have hkeep : ∀ merged : List (Row ν), (merged.map Row.id).Nodup →
      (∀ row ∈ merged, row.ComesOf P (ms ++ ms')) →
      ((prependRows merged current).map Row.id).Nodup ∧
        (∀ row ∈ prependRows merged current, row.ComesOf P (ms ++ ms')) ∧
        (∀ p ∈ merged.map Row.shape, p ∈ (prependRows merged current).map Row.shape) ∧
        ∀ row ∈ current, row.shape.2 = true →
          row.shape ∈ (prependRows merged current).map Row.shape := by
    clear h'
    induction current with
    | nil => exact fun merged hnodup hof => ⟨hnodup, hof, fun p hp => hp, fun _ h => by cases h⟩
    | cons row current ih =>
      intro merged hnodup hof
      obtain ⟨hnodup₁, hof₁, hold₁, hnew₁⟩ := prependRow_spec hnodup hof
        (hcurrent row List.mem_cons_self)
      obtain ⟨hnodup₂, hof₂, hold₂, hnew₂⟩ := ih
        (fun row hrow => hcurrent row (List.mem_cons_of_mem _ hrow)) _ hnodup₁ hof₁
      refine ⟨hnodup₂, hof₂, fun p hp => hold₂ p (hold₁ p hp), fun row' hrow' htrue => ?_⟩
      rcases List.mem_cons.mp hrow' with rfl | hrow'
      · exact hold₂ _ (hnew₁ htrue)
      · exact hnew₂ row' hrow' htrue
  obtain ⟨hnodup, hof, hold, hnew⟩ := hkeep older h.nodup
    fun row hrow => (h.of row hrow).mono (List.subset_append_left _ _)
  refine ⟨hnodup, hof, fun id hid => ?_⟩
  rw [List.flatMap_append, List.mem_append, List.filterMap_append, List.mem_append] at hid
  have hlater : id ∈ ms'.flatMap P.calls ∨ id ∈ ms'.filterMap P.answers →
      ("call-" ++ id, true) ∈ (prependRows older current).map Row.shape := by
    intro hid
    obtain ⟨row, hrow, hshape⟩ := List.mem_map.mp (h'.covers id hid)
    rw [← hshape]
    exact hnew row hrow (by rw [hshape])
  rcases hid with (hcall | hcall) | (hans | hans)
  · exact hold _ (h.covers id (.inl hcall))
  · exact hlater (.inl hcall)
  · exact hold _ (h.covers id (.inr hans))
  · exact hlater (.inr hans)

/-! ### Pages that part no call from its result -/

/-- No tool call of the earlier messages has its result among the later ones. -/
def NoneParted (P : Platform ν) (ms ms' : List (Value ν)) : Prop :=
  ∀ id ∈ ms.flatMap P.calls, id ∉ ms'.filterMap P.answers

/-- Rows of which none has the id of an older one go after the older ones. -/
lemma prependRows_of_disjoint (hnodup : (current.map Row.id).Nodup)
    (hne : ∀ row ∈ older, ∀ row' ∈ current, row.id ≠ row'.id) :
    prependRows older current = older ++ current := by
  induction current generalizing older with
  | nil => exact (List.append_nil older).symm
  | cons row current ih =>
    rw [List.map_cons, List.nodup_cons] at hnodup
    have hnew : row.id ∉ older.map Row.id := by
      intro hmem
      obtain ⟨row', hrow', hid⟩ := List.mem_map.mp hmem
      exact hne row' hrow' row List.mem_cons_self hid
    have hstep : prependRow older row = older ++ [row] := by
      rcases prependRow_cases older row with ⟨-, hany, -⟩ | ⟨-, hmem, -⟩ | ⟨-, heq⟩
      · obtain ⟨row', hrow', htool⟩ := List.any_eq_true.mp hany
        exact absurd (List.mem_map.mpr ⟨row', hrow', (Row.isTool_iff.mp htool).2⟩) hnew
      · exact absurd hmem hnew
      · exact heq
    rw [prependRows, List.foldl_cons, hstep]
    refine (ih hnodup.2 fun left hleft right hright => ?_).trans (by simp)
    rcases List.mem_append.mp hleft with hleft | hleft
    · exact hne left hleft right (List.mem_cons_of_mem _ hright)
    · rw [List.mem_singleton.mp hleft]
      exact fun heq => hnodup.1 (heq ▸ List.mem_map_of_mem (f := Row.id) hright)

lemma prepend_of_noneParted (hp : P.Paired (ms ++ ms')) (h : Projected P ms older)
    (h' : Projected P ms' current) (hnone : NoneParted P ms ms') :
    prependRows older current = older ++ current := by
  refine prependRows_of_disjoint h'.nodup fun row hrow row' hrow' hid => ?_
  obtain ⟨id, -, hcall, hanswer, -⟩ := (h.of row hrow).eq_call hp (h'.of row' hrow') hid
  exact hnone id hcall hanswer

lemma update_append {p : Row ν → Bool} {f : Row ν → Row ν} (h : ∀ row ∈ older, p row = false) :
    First.update p f (older ++ current) = older ++ First.update p f current := by
  induction older with
  | nil => rfl
  | cons row older ih =>
    rw [List.cons_append, First.update, if_neg (by simp [h row]),
      ih fun row hrow => h row (List.mem_cons_of_mem _ hrow)]
    rfl

/-- A message that answers no call of the older rows leaves them as they are. -/
lemma addMessage_append {message : Value ν} {key : String} (hobject : message.isObject = true)
    (hkey : message.get "entryId" = .string key)
    (hnone : ∀ id, P.answers message = some id → ("call-" ++ id, true) ∉ older.map Row.shape)
    (rows : List (Row ν)) (i : Nat) :
    P.addMessage (older ++ rows) (message, i) = older ++ P.addMessage rows (message, i) := by
  have hkeyOf : Platform.keyOf message 0 = key := by rw [Platform.keyOf, hkey]; rfl
  rw [addMessage_eq hobject hkey, addMessage_eq hobject hkey, ← List.append_assoc]
  have hproject : P.project (older ++ rows) message key =
      (older ++ (P.project rows message key).1, (P.project rows message key).2) := by
    cases hanswers : P.answers message with
    | none => rw [project_of_not_answers hanswers, project_of_not_answers hanswers rows]
    | some id =>
      have hold : ∀ row ∈ older, Row.isTool ("call-" ++ id) row = false := by
        intro row hrow
        by_contra htool
        rw [Bool.not_eq_false] at htool
        exact hnone id hanswers (any_isTool_iff.mp (List.any_eq_true.mpr ⟨row, hrow, htool⟩))
      have hany : (older ++ rows).any (Row.isTool ("call-" ++ id)) =
          rows.any (Row.isTool ("call-" ++ id)) := by
        rw [List.any_append, List.any_eq_false.mpr (by simpa using hold), Bool.false_or]
      rw [project_of_answers hanswers hkeyOf, project_of_answers hanswers hkeyOf, hany]
      split
      · rw [update_append hold]
      · rfl
  rw [addedRows, addedRows, hproject]

lemma addMessages_append (hp : P.Paired ms')
    (hnone : ∀ id ∈ ms'.filterMap P.answers, ("call-" ++ id, true) ∉ older.map Row.shape)
    (rows : List (Row ν)) :
    addMessages P (older ++ rows) ms' = older ++ addMessages P rows ms' := by
  induction ms' generalizing rows with
  | nil => rfl
  | cons m ms' ih =>
    obtain ⟨key, hkey, -⟩ := hp.entryId m List.mem_cons_self
    rw [addMessages, addMessages, List.foldl_cons, List.foldl_cons,
      addMessage_append (hp.isObject m List.mem_cons_self) hkey (fun id hid => hnone id ?_)]
    · refine ih hp.of_cons (fun id hid => hnone id ?_) _
      rw [List.filterMap_cons]
      split
      · exact hid
      · exact List.mem_cons_of_mem _ hid
    · rw [List.filterMap_cons_some hid]
      exact List.mem_cons_self

lemma rowsFromMessages_append (hp : P.Paired (ms ++ ms')) (hnone : NoneParted P ms ms') :
    P.rowsFromMessages (ms ++ ms') = P.rowsFromMessages ms ++ P.rowsFromMessages ms' := by
  have hrows := projected_rowsFromMessages hp.left
  rw [rowsFromMessages_eq hp, rowsFromMessages_eq hp.right, addMessages, List.foldl_append]
  rw [show ms.foldl (fun rows m => P.addMessage rows (m, 0)) [] = P.rowsFromMessages ms ++ [] by
    rw [rowsFromMessages_eq hp.left, List.append_nil]; rfl]
  refine addMessages_append hp.right (fun id hid hmem => ?_) []
  -- the row is of a call, which is parted from this result, or of another result of the same id
  obtain ⟨row, hrow, hshape⟩ := List.mem_map.mp hmem
  obtain ⟨row', hrow', hshape'⟩ :=
    List.mem_map.mp ((projected_rowsFromMessages hp.right).covers id (.inr hid))
  have heq : row.id = row'.id := congrArg Prod.fst (hshape.trans hshape'.symm)
  obtain ⟨id', -, hcall, hanswer, -⟩ := (hrows.of row hrow).eq_call hp
    ((projected_rowsFromMessages hp.right).of row' hrow') heq
  exact hnone id' hcall hanswer

/-! ### A call that is parted from its result -/

/-- Messages leave the entry ids of the rows that are there. -/
lemma addMessages_entryId (hp : P.Paired ms) (rows : List (Row ν)) :
    ∃ more, (addMessages P rows ms).map Row.entryId = rows.map Row.entryId ++ more := by
  induction ms generalizing rows with
  | nil => exact ⟨[], (List.append_nil _).symm⟩
  | cons m ms ih =>
    obtain ⟨key, hkey, -⟩ := hp.entryId m List.mem_cons_self
    obtain ⟨more, hmore⟩ := ih hp.of_cons (P.addMessage rows (m, 0))
    rw [addMessage_eq (hp.isObject m List.mem_cons_self) hkey, List.map_append,
      (@project_fst _ _ P [] rows m key).2.1, List.append_assoc] at hmore
    rw [addMessages, List.foldl_cons]
    rw [addMessage_eq (hp.isObject m List.mem_cons_self) hkey]
    exact ⟨_, hmore⟩

/-- The row of a call is the first of its id, in its place. -/
def Stands (id : String) (n : Nat) (c : Row ν) (rows : List (Row ν)) : Prop :=
  ∃ left right, rows = left ++ c :: right ∧ left.length = n ∧
    ("call-" ++ id, true) ∉ left.map Row.shape

variable {id : String} {n : Nat} {c : Row ν}

lemma not_isTool_of_shape {left : List (Row ν)} (h : ("call-" ++ id, true) ∉ left.map Row.shape) :
    ∀ row ∈ left, row.isTool ("call-" ++ id) = false := by
  intro row hrow
  by_contra htool
  rw [Bool.not_eq_false] at htool
  exact h (any_isTool_iff.mp (List.any_eq_true.mpr ⟨row, hrow, htool⟩))

/-- A row of another call, or of none, leaves the row of the call as it is. -/
lemma Stands.prependRow_of_ne (h : Stands id n c rows) (hc : c.id = "call-" ++ id)
    (hne : row.id ≠ "call-" ++ id) : Stands id n c (prependRow rows row) := by
  obtain ⟨left, right, rfl, hn, hleft⟩ := h
  rcases prependRow_cases (left ++ c :: right) row with ⟨-, -, heq⟩ | ⟨-, -, heq⟩ | ⟨-, heq⟩
  · have hnot : Row.isTool row.id c = false := by
      by_contra htool
      rw [Bool.not_eq_false] at htool
      exact hne ((Row.isTool_iff.mp htool).2.symm.trans hc)
    rw [heq]
    rcases First.update_cases (Row.isTool row.id) (mergeRow row) left with
      ⟨hnone, -⟩ | ⟨l, x, r, rfl, hx, hl, hupdate⟩
    · refine ⟨left, First.update (Row.isTool row.id) (mergeRow row) right, ?_, hn, hleft⟩
      rw [update_append hnone, First.update, if_neg (by simp [hnot])]
    · refine ⟨l ++ mergeRow row x :: r, right, ?_, ?_, ?_⟩
      · rw [List.append_assoc, update_append hl, List.cons_append, First.update, if_pos hx]
        simp
      · simpa using hn
      · rw [List.map_append, List.map_cons, shape_mergeRow, ← List.map_cons, ← List.map_append]
        exact hleft
  · rw [heq]
    exact ⟨left, right, rfl, hn, hleft⟩
  · rw [heq]
    exact ⟨left, right ++ [row], by simp, hn, hleft⟩

lemma Stands.prependRows_of_ne (h : Stands id n c rows) (hc : c.id = "call-" ++ id)
    (hne : ∀ row ∈ current, row.id ≠ "call-" ++ id) : Stands id n c (prependRows rows current) := by
  induction current generalizing rows with
  | nil => exact h
  | cons row current ih =>
    exact ih (h.prependRow_of_ne hc (hne row List.mem_cons_self))
      fun row' hrow' => hne row' (List.mem_cons_of_mem _ hrow')

lemma Stands.prependRow_result (h : Stands id n c rows) (hc : c.isTool ("call-" ++ id) = true)
    (hrow : row.isTool ("call-" ++ id) = true) :
    Stands id n (mergeRow row c) (prependRow rows row) := by
  obtain ⟨left, right, rfl, hn, hleft⟩ := h
  have hid : row.id = "call-" ++ id := (Row.isTool_iff.mp hrow).2
  have hany : (left ++ c :: right).any (Row.isTool ("call-" ++ id)) = true :=
    List.any_eq_true.mpr ⟨c, by simp, hc⟩
  rw [prependRow, hid, hrow, hany, Bool.and_self, if_pos rfl,
    update_append (not_isTool_of_shape hleft), First.update, if_pos hc]
  exact ⟨left, right, rfl, hn, hleft⟩

omit [Numeric ν] in
lemma exists_stands (hnodup : (rows.map Row.id).Nodup)
    (hmem : ("call-" ++ id, true) ∈ rows.map Row.shape) :
    ∃ n, ∃ c ∈ rows, c.isTool ("call-" ++ id) = true ∧ Stands id n c rows := by
  obtain ⟨c, hc, hshape⟩ := List.mem_map.mp hmem
  obtain ⟨left, right, rfl⟩ := List.append_of_mem hc
  refine ⟨left.length, c, hc, Row.isTool_iff_shape.mpr hshape, left, right, rfl, rfl, fun hleft => ?_⟩
  obtain ⟨row, hrow, hrowshape⟩ := List.mem_map.mp hleft
  rw [List.map_append, List.nodup_append] at hnodup
  refine hnodup.2.2 row.id (List.mem_map_of_mem hrow) c.id (by simp) ?_
  exact congrArg Prod.fst (hrowshape.trans hshape.symm)

/-- The row of a result brings its entry id along. -/
lemma entryId_mergeRow (hp : P.Paired (ms ++ ms')) (hcall : id ∈ ms.flatMap P.calls)
    (h : row.ComesOf P ms') (hc : c.isTool ("call-" ++ id) = true)
    (hrow : row.isTool ("call-" ++ id) = true) : (mergeRow row c).entryId = row.entryId := by
  obtain ⟨⟨tc, htc⟩, -⟩ := Row.isTool_iff.mp hc
  obtain ⟨⟨t, ht⟩, hid⟩ := Row.isTool_iff.mp hrow
  obtain ⟨m, -, key, -, hentry⟩ := h.entry
  obtain ⟨id', hid', hof⟩ := h.tool t ht
  obtain rfl : id' = id := call_inj (hid'.symm.trans hid)
  have hresult : isUndefined t.result = false := by
    rcases hof with hcall' | ⟨-, hresult⟩
    · -- the call would be in two blocks
      have hcalls := hp.calls
      rw [List.flatMap_append, List.nodup_append] at hcalls
      exact absurd rfl (hcalls.2.2 id' hcall id' hcall')
    · exact hresult
  rw [mergeRow, htc, ht]
  simp [hresult, hentry]

/-- A result on a later page leaves its entry id on the row of its call. -/
lemma entryId_of_parted (hp : P.Paired (ms ++ ms')) (h : Projected P ms older)
    (h' : Projected P ms' current) (hcall : id ∈ ms.flatMap P.calls)
    (hanswer : id ∈ ms'.filterMap P.answers) :
    ∃ n : Nat, ∃ c ∈ older, (older.map Row.entryId)[n]? = some c.entryId ∧
      ∃ r ∈ current, ((prependRows older current).map Row.entryId)[n]? = some r.entryId := by
  obtain ⟨n, c, hc, hctool, hstands⟩ := exists_stands h.nodup (h.covers id (.inl hcall))
  obtain ⟨_, r, hr, hrtool, -⟩ := exists_stands h'.nodup (h'.covers id (.inr hanswer))
  refine ⟨n, c, hc, ?_, r, hr, ?_⟩
  · obtain ⟨left, right, rfl, rfl, -⟩ := hstands
    simp
  · obtain ⟨before, after, rfl⟩ := List.append_of_mem hr
    have hrid : r.id = "call-" ++ id := (Row.isTool_iff.mp hrtool).2
    have hnodup := h'.nodup
    rw [List.map_append, List.map_cons, List.nodup_append, List.nodup_cons] at hnodup
    have hother : ∀ row ∈ before, row.id ≠ "call-" ++ id := fun row hrow heq =>
      hnodup.2.2 row.id (List.mem_map_of_mem hrow) r.id List.mem_cons_self (heq.trans hrid.symm)
    have hbefore := hstands.prependRows_of_ne (Row.isTool_iff.mp hctool).2 hother
    have hresult := hbefore.prependRow_result hctool hrtool
    have hmid : (mergeRow r c).id = "call-" ++ id :=
      (congrArg Prod.fst (shape_mergeRow r c)).trans (Row.isTool_iff.mp hctool).2
    have hlater : ∀ row ∈ after, row.id ≠ "call-" ++ id := fun row hrow heq =>
      hnodup.2.1.1 (hrid.symm ▸ heq ▸ List.mem_map_of_mem hrow)
    have hafter := hresult.prependRows_of_ne hmid hlater
    have hfold : prependRows older (before ++ r :: after) =
        prependRows (prependRow (prependRows older before) r) after := by
      rw [prependRows, List.foldl_append]
      rfl
    obtain ⟨left, right, heq, rfl, -⟩ := hafter
    rw [hfold, heq]
    have hentry := entryId_mergeRow hp hcall (h'.of r (by simp)) hctool hrtool
    simp [hentry]

/-! ### All pages -/

/-- The rows after the pages were loaded, from the newest to the oldest. -/
def shownPages (P : Platform ν) (pages : List (List (Value ν))) : List (Row ν) :=
  pages.foldr (fun page rows => prependRows (P.rowsFromMessages page) rows) []

/-- No tool call has its result on a later page. -/
def Together (P : Platform ν) : List (List (Value ν)) → Prop
  | [] => True
  | page :: pages => NoneParted P page pages.flatten ∧ Together P pages

lemma projected_shownPages {pages : List (List (Value ν))} (hp : P.Paired pages.flatten) :
    Projected P pages.flatten (shownPages P pages) := by
  induction pages with
  | nil => exact projected_nil P
  | cons page pages ih =>
    rw [List.flatten_cons] at hp ⊢
    exact (projected_rowsFromMessages hp.left).prepend (ih hp.right)

theorem shownPages_eq_iff (P : Platform ν) (pages : List (List (Value ν)))
    (hp : P.Paired pages.flatten) :
    shownPages P pages = P.rowsFromMessages pages.flatten ↔ Together P pages := by
  induction pages with
  | nil => exact ⟨fun _ => trivial, fun _ => rfl⟩
  | cons page pages ih =>
    rw [List.flatten_cons] at hp ⊢
    have hpage := projected_rowsFromMessages hp.left
    have hpages := projected_shownPages hp.right
    show prependRows (P.rowsFromMessages page) (shownPages P pages) = _ ↔ _ ∧ _
    by_cases hnone : NoneParted P page pages.flatten
    · rw [prepend_of_noneParted hp hpage hpages hnone, rowsFromMessages_append hp hnone,
        List.append_cancel_left_eq, ih hp.right]
      exact ⟨fun h => ⟨hnone, h⟩, fun h => h.2⟩
    · refine ⟨fun heq => ?_, fun h => absurd h.1 hnone⟩
      unfold NoneParted at hnone
      push Not at hnone
      obtain ⟨id, hcall, hanswer⟩ := hnone
      obtain ⟨n, c, hc, hentry, r, hr, hentry'⟩ := entryId_of_parted hp hpage hpages hcall hanswer
      obtain ⟨more, hmore⟩ := addMessages_entryId hp.right (P.rowsFromMessages page)
      have hwhole : P.rowsFromMessages (page ++ pages.flatten) =
          addMessages P (P.rowsFromMessages page) pages.flatten := by
        rw [rowsFromMessages_eq hp, rowsFromMessages_eq hp.left, addMessages, addMessages, addMessages,
          List.foldl_append]
      -- in the whole, the row of the call has the entry id of the call
      have hkept : ((P.rowsFromMessages (page ++ pages.flatten)).map Row.entryId)[n]? =
          some c.entryId := by
        rw [hwhole, hmore, List.getElem?_append_left, hentry]
        exact (List.getElem?_eq_some_iff.mp hentry).1
      rw [← heq, hentry'] at hkept
      obtain ⟨m, hm, key, hkey, hcentry⟩ := (hpage.of c hc).entry
      obtain ⟨m', hm', key', hkey', hrentry⟩ := (hpages.of r hr).entry
      rw [hcentry, hrentry] at hkept
      have hsame : key' = key := Option.some.inj (Option.some.inj hkept)
      exact absurd hsame.symm (hp.keys_ne hm hm' hkey hkey')

/-! ### A call and its result -/

/-- A platform on which every value to print is a text. -/
def plain : Platform Int where
  display v := v.asString.getD ""
  toNumber _ := 0
  toLocaleString := Int.repr
  now := 0

def question : Value Int := .object [("role", .string "user"),
  ("entryId", .string "00000000-0000-4000-8000-000000000001"), ("content", .string "Look")]

def readCall : Value Int := .object [("role", .string "assistant"),
  ("entryId", .string "00000000-0000-4000-8000-000000000002"),
  ("content", .array [.object [("type", .string "toolCall"), ("id", .string "c1"),
    ("name", .string "read"), ("arguments", .object [])]])]

def readResult : Value Int := .object [("role", .string "toolResult"),
  ("entryId", .string "00000000-0000-4000-8000-000000000003"), ("toolCallId", .string "c1"),
  ("toolName", .string "read"), ("content", .string "text")]

lemma paired_messages : plain.Paired [question, readCall, readResult] := by
  refine ⟨by decide, ?_, by decide, by decide +kernel, by decide +kernel, ?_⟩
  · intro m hm
    simp only [List.mem_cons, List.not_mem_nil, or_false] at hm
    rcases hm with rfl | rfl | rfl
    · exact ⟨_, rfl, .of_all (by decide) (by decide +kernel)⟩
    · exact ⟨_, rfl, .of_all (by decide) (by decide +kernel)⟩
    · exact ⟨_, rfl, .of_all (by decide) (by decide +kernel)⟩
  · intro before m after heq id hid
    rcases before with _ | ⟨m₁, _ | ⟨m₂, _ | ⟨m₃, before⟩⟩⟩
    · obtain rfl := (List.cons.inj heq).1
      rw [show plain.answers question = none by decide +kernel] at hid
      cases hid
    · obtain rfl := (List.cons.inj (List.cons.inj heq).2).1
      rw [show plain.answers readCall = none by decide +kernel] at hid
      cases hid
    · obtain ⟨rfl, rfl⟩ := List.cons.inj (List.cons.inj (List.cons.inj heq).2).2
      rw [show [readResult].flatMap plain.calls = [] by decide +kernel]
      exact List.not_mem_nil
    · simp at heq

theorem shownPages_eq_of_call_with_result :
    shownPages plain [[question], [readCall, readResult]] =
      plain.rowsFromMessages [question, readCall, readResult] := by
  refine (shownPages_eq_iff plain [[question], [readCall, readResult]] paired_messages).mpr ⟨?_, ?_, trivial⟩
  · intro id hid
    rw [show [question].flatMap plain.calls = [] by decide +kernel] at hid
    cases hid
  · intro id _ hid
    cases hid

/-- A result that is loaded before its call leaves its entry id on the row of the call. -/
theorem exists_pages_ne_whole :
    ∃ pages : List (List (Value Int)), plain.Paired pages.flatten ∧
      shownPages plain pages ≠ plain.rowsFromMessages pages.flatten := by
  refine ⟨[[question, readCall], [readResult]], paired_messages, fun heq => ?_⟩
  exact absurd (congrArg (List.map Row.entryId) heq) (by decide +kernel)

end Transcript
