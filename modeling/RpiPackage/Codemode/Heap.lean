import RpiPackage.Lib.Assoc
import RpiPackage.Lib.Checked
import RpiPackage.Lib.Run

/-!
# The heap of the guest

Every block is charged when it is handed out, and its charge is computed again from its usable size
when it is freed or replaced. Over any calls on live blocks the two agree: what is live is what its
blocks are charged, it stays within the limit, and no computation of a size overflows.
-/

namespace Codemode

namespace Heap

/-! On a target whose pointers have eight bytes. -/

def align : UInt64 := 8

def header : UInt64 := 8

def extraOverhead : UInt64 := 16

def blockOverhead : UInt64 := header + extraOverhead

end Heap

/-- The accounts of a heap, and the blocks of its delegate with the sizes they were requested with. -/
structure Heap (Block : Type) where
  limit : UInt64
  live : UInt64
  failed : Bool
  blocks : List (Block × UInt64)

namespace Heap

variable {Block : Type}

/-! ### The delegate -/

/-- `Layout::from_size_align`. -/
def layout (size align : UInt64) : Option Unit :=
  if size.toNat + align.toNat ≤ 2 ^ 63 then some () else none

/-- The payload of a block. -/
def rounded (sum : UInt64) : UInt64 := sum / align * align

/-- The size of a block with its header, as the delegate computes it: nothing in it is checked. -/
def allocation (size : UInt64) : Option UInt64 := do
  let sum ← Checked.add size (align - 1)
  let allocation ← Checked.add (rounded sum) header
  layout allocation align
  return allocation

/-- What the delegate gives for a request, if its computations do not overflow. -/
def delegated (size : UInt64) (answer : Option Block) : Option (Option Block) := do
  let _ ← allocation size
  return answer

def usableSize [DecidableEq Block] (h : Heap Block) (block : Block) : UInt64 :=
  rounded ((h.blocks.lookup block).getD 0 + (align - 1))

/-! ### The heap -/

def new (limit : UInt64) (failed : Bool) : Heap Block := ⟨limit, 0, failed, []⟩

def fail (h : Heap Block) : Option Block × Heap Block := (none, { h with failed := true })

def charge (size : UInt64) : Option UInt64 := do
  let sum ← Checked.add size (align - 1)
  let allocation ← Checked.add (rounded sum) header
  layout allocation align
  Checked.add allocation extraOverhead

def replacementLive (h : Heap Block) (old new : UInt64) : Option UInt64 := do
  let kept ← Checked.sub h.live old
  (Checked.add kept new).filter (· ≤ h.limit)

/-- Charges a block of a size in the place of what is charged `old`. A computation that overflows has
no result. -/
def place [DecidableEq Block] (h : Heap Block) (old : Option UInt64) (others : List (Block × UInt64))
    (size : UInt64) (answer : Option (Option Block)) : Option (Option Block × Heap Block) :=
  match charge size with
  | none => some h.fail
  | some charge => do
    let old ← old
    match h.replacementLive old charge with
    | none => return h.fail
    | some live =>
      match ← answer with
      | none => return h.fail
      | some block => return (some block, { h with live, blocks := Assoc.insert others block size })

variable [DecidableEq Block]

def alloc (h : Heap Block) (size : UInt64) (answer : Option Block) :
    Option (Option Block × Heap Block) :=
  if size = 0 then some (none, h)
  else h.place (some 0) h.blocks size (delegated size answer)

def calloc (h : Heap Block) (count size : UInt64) (answer : Option Block) :
    Option (Option Block × Heap Block) :=
  if count = 0 ∨ size = 0 then some (none, h)
  else
    match Checked.mul count size with
    | none => some h.fail
    | some total =>
      h.place (some 0) h.blocks total (do
        -- the delegate multiplies again, unchecked
        let total ← Checked.mul count size
        delegated total answer)

/-- What a live block is charged. -/
def chargeOf (h : Heap Block) (block : Block) : Option UInt64 :=
  Checked.add (h.usableSize block) blockOverhead

def dealloc (h : Heap Block) : Option Block → Option (Heap Block)
  | none => some h
  | some block => do
    let charge ← h.chargeOf block
    let live ← Checked.sub h.live charge
    return { h with live, blocks := Assoc.erase h.blocks block }

def realloc (h : Heap Block) (block : Option Block) (newSize : UInt64) (answer : Option Block) :
    Option (Option Block × Heap Block) :=
  match block with
  | none => h.alloc newSize answer
  | some block =>
    if newSize = 0 then do
      let h ← h.dealloc (some block)
      return (none, h)
    else
      h.place (h.chargeOf block) (Assoc.erase h.blocks block) newSize (delegated newSize answer)

/-! ### Calls -/

/-- The calls, each with what the delegate answers if it is asked. -/
inductive Op (Block : Type) where
  | alloc (size : UInt64) (answer : Option Block)
  | calloc (count size : UInt64) (answer : Option Block)
  | dealloc (block : Option Block)
  | realloc (block : Option Block) (newSize : UInt64) (answer : Option Block)

def step (h : Heap Block) : Op Block → Option (Option Block × Heap Block)
  | .alloc size answer => h.alloc size answer
  | .calloc count size answer => h.calloc count size answer
  | .dealloc block => (h.dealloc block).map fun h => (none, h)
  | .realloc block newSize answer => h.realloc block newSize answer

def Live (h : Heap Block) (block : Block) : Prop := (h.blocks.lookup block).isSome = true

instance (h : Heap Block) (block : Block) : Decidable (h.Live block) :=
  inferInstanceAs (Decidable (_ = true))

/-- The caller passes null or live blocks, and the delegate hands out blocks that are not live; a
block that grows or shrinks may stay where it is. -/
def Allows (h : Heap Block) : Op Block → Prop
  | .alloc _ answer => ∀ b, b ∈ answer → ¬h.Live b
  | .calloc _ _ answer => ∀ b, b ∈ answer → ¬h.Live b
  | .dealloc block => ∀ b, b ∈ block → h.Live b
  | .realloc block _ answer =>
    (∀ b, b ∈ block → h.Live b) ∧ ∀ b, b ∈ answer → block = some b ∨ ¬h.Live b

instance (h : Heap Block) : (op : Op Block) → Decidable (h.Allows op)
  | .alloc _ answer => inferInstanceAs (Decidable (∀ b, b ∈ answer → ¬h.Live b))
  | .calloc _ _ answer => inferInstanceAs (Decidable (∀ b, b ∈ answer → ¬h.Live b))
  | .dealloc block => inferInstanceAs (Decidable (∀ b, b ∈ block → h.Live b))
  | .realloc block _ answer =>
    inferInstanceAs (Decidable ((∀ b, b ∈ block → h.Live b) ∧
      ∀ b, b ∈ answer → block = some b ∨ ¬h.Live b))

/-- A request that is not for nothing has no block. -/
def Refused : Op Block → Option Block → Prop
  | .alloc size _, reply => size ≠ 0 ∧ reply = none
  | .calloc count size _, reply => count ≠ 0 ∧ size ≠ 0 ∧ reply = none
  | .dealloc _, _ => False
  | .realloc _ newSize _, reply => newSize ≠ 0 ∧ reply = none

/-- What is live is what the blocks are charged, and within the limit. -/
structure Accounted (h : Heap Block) : Prop where
  distinct : (h.blocks.map Prod.fst).Nodup
  charged : ∀ e ∈ h.blocks, (charge e.2).isSome = true
  live : h.live.toNat = (h.blocks.map fun e => ((charge e.2).getD 0).toNat).sum
  within : h.live ≤ h.limit

/-! ### Charges -/

section

variable {h : Heap Block} {size c : UInt64}

lemma toNat_rounded (sum : UInt64) : (rounded sum).toNat = sum.toNat / 8 * 8 := by
  have hle : sum.toNat / 8 * 8 ≤ sum.toNat := Nat.div_mul_le_self _ _
  have hlt := sum.toNat_lt
  rw [rounded, UInt64.toNat_mul, UInt64.toNat_div]
  apply Nat.mod_eq_of_lt
  show sum.toNat / 8 * 8 < _
  omega

lemma layout_eq_some {size align : UInt64} {u : Unit} :
    layout size align = some u ↔ size.toNat + align.toNat ≤ 2 ^ 63 := by
  rw [layout]
  split
  · rename_i hle
    exact ⟨fun _ => hle, fun _ => rfl⟩
  · rename_i hle
    exact ⟨fun h => (nomatch h), fun h => absurd h hle⟩

/-- A charge is the rounded size and the overhead, where the block has a layout. -/
lemma charge_eq_some :
    charge size = some c ↔
      (size.toNat + 7) / 8 * 8 + 16 ≤ 2 ^ 63 ∧ c.toNat = (size.toNat + 7) / 8 * 8 + 24 := by
  have halign : (align - 1).toNat = 7 := rfl
  have hheader : header.toNat = 8 := rfl
  have hextra : extraOverhead.toNat = 16 := rfl
  have height : align.toNat = 8 := rfl
  simp only [charge, Option.bind_eq_bind, Option.bind_eq_some_iff, Checked.add_eq_some,
    layout_eq_some, halign, hheader, hextra, height]
  constructor
  · rintro ⟨sum, hsum, allocation, hallocation, -, hlayout, hcharge⟩
    rw [toNat_rounded, hsum] at hallocation
    omega
  · rintro ⟨hfits, hcharge⟩
    have hsum : (size + 7).toNat = size.toNat + 7 := by
      rw [UInt64.toNat_add]
      exact Nat.mod_eq_of_lt (by show size.toNat + 7 < _; omega)
    have hallocation : (rounded (size + 7) + 8).toNat = (size.toNat + 7) / 8 * 8 + 8 := by
      rw [UInt64.toNat_add, toNat_rounded, hsum]
      exact Nat.mod_eq_of_lt (by show _ + 8 < _; omega)
    refine ⟨size + 7, hsum, rounded (size + 7) + 8, ?_, (), ?_, ?_⟩
    · rw [hallocation, toNat_rounded, hsum]
    · rw [hallocation]
      exact hfits
    · rw [hallocation, hcharge]

omit [DecidableEq Block] in
/-- What is charged has a layout, so the computations of the delegate do not overflow. -/
lemma delegated_eq (hcharge : charge size = some c) (answer : Option Block) :
    delegated size answer = some answer := by
  simp only [charge, Option.bind_eq_bind, Option.bind_eq_some_iff] at hcharge
  obtain ⟨sum, hsum, allocation, hallocation, _, hlayout, -⟩ := hcharge
  simp only [delegated, Heap.allocation, Option.bind_eq_bind, hsum, Option.bind_some, hallocation,
    hlayout, Option.pure_def]

/-- A live block is charged what it was charged when it was handed out. -/
lemma chargeOf_eq {block : Block} (hlookup : h.blocks.lookup block = some size)
    (hcharge : charge size = some c) : h.chargeOf block = some c := by
  obtain ⟨hfits, hc⟩ := charge_eq_some.mp hcharge
  have hsum : (size + (align - 1)).toNat = size.toNat + 7 := by
    rw [UInt64.toNat_add]
    exact Nat.mod_eq_of_lt (by show size.toNat + 7 < _; omega)
  rw [chargeOf, Checked.add_eq_some, usableSize, hlookup, Option.getD_some, toNat_rounded, hsum]
  exact hc

omit [DecidableEq Block] in
lemma replacementLive_eq_some {old new live : UInt64} :
    h.replacementLive old new = some live ↔
      old ≤ h.live ∧ live.toNat + old.toNat = h.live.toNat + new.toNat ∧ live ≤ h.limit := by
  simp only [replacementLive, Option.bind_eq_bind, Option.bind_eq_some_iff, Option.filter_eq_some_iff,
    Checked.sub_eq_some, Checked.add_eq_some, decide_eq_true_eq]
  constructor
  · rintro ⟨kept, hkept, hlive, hle⟩
    refine ⟨?_, by omega, hle⟩
    rw [UInt64.le_iff_toNat_le]
    omega
  · rintro ⟨hold, hlive, hle⟩
    have hkept := UInt64.toNat_sub_of_le h.live old hold
    have hold' := UInt64.le_iff_toNat_le.mp hold
    exact ⟨h.live - old, by omega, by omega, hle⟩

end

/-! ### Each call keeps the accounts -/

section

variable {h : Heap Block}

/-- A call ends with a reply, keeps the accounts and the limit, and sets the latch where it refuses. -/
def Keeps (h : Heap Block) (result : Option (Option Block × Heap Block)) (refused : Option Block → Prop) :
    Prop :=
  ∃ reply h', result = some (reply, h') ∧ h'.Accounted ∧ h'.limit = h.limit ∧
    (h'.failed = true ↔ h.failed = true ∨ refused reply)

omit [DecidableEq Block] in
lemma Accounted.fail (hacc : h.Accounted) : h.fail.2.Accounted :=
  ⟨hacc.distinct, hacc.charged, hacc.live, hacc.within⟩

omit [DecidableEq Block] in
lemma keeps_fail (hacc : h.Accounted) : h.Keeps (some h.fail) (· = none) :=
  ⟨none, h.fail.2, rfl, hacc.fail, rfl, fun _ => .inr rfl, fun _ => rfl⟩

/-- A new block is charged in the place of what is not kept. -/
lemma Accounted.place (hacc : h.Accounted) (old size : UInt64) (answer : Option Block)
    {others : List (Block × UInt64)} {result : Option (Option Block)}
    (hothers : others.Sublist h.blocks)
    (hold : (others.map fun e => ((charge e.2).getD 0).toNat).sum + old.toNat = h.live.toNat)
    (hresult : ∀ c, charge size = some c → result = some answer)
    (hfresh : ∀ b, b ∈ answer → b ∉ others.map Prod.fst) :
    h.Keeps (h.place (some old) others size result) (· = none) := by
  rw [Heap.place]
  split
  · exact keeps_fail hacc
  · rename_i c hcharge
    obtain rfl := hresult c hcharge
    simp only [Option.bind_eq_bind, Option.bind_some, Option.pure_def]
    split
    · exact keeps_fail hacc
    · rename_i live hlive
      obtain ⟨-, hlive, hwithin⟩ := replacementLive_eq_some.mp hlive
      cases answer with
      | none => exact keeps_fail hacc
      | some block =>
        have hnot := hfresh block rfl
        refine ⟨some block, _, rfl, ⟨?_, ?_, ?_, hwithin⟩, rfl, .inl, ?_⟩
        · exact Assoc.nodup_insert (hacc.distinct.sublist (hothers.map _)) block size
        · intro e he
          rw [Assoc.insert, Assoc.erase_of_notMem hnot] at he
          rcases List.mem_cons.mp he with rfl | he
          · exact Option.isSome_iff_exists.mpr ⟨c, hcharge⟩
          · exact hacc.charged e (hothers.subset he)
        · rw [Assoc.insert, Assoc.erase_of_notMem hnot, List.map_cons, List.sum_cons, hcharge,
            Option.getD_some]
          show live.toNat = _
          omega
        · rintro (hfailed | hnone)
          · exact hfailed
          · cases hnone

/-- A block that is live, with what it is charged. -/
lemma Accounted.of_live (hacc : h.Accounted) {block : Block} (hlive : h.Live block) :
    ∃ old, h.chargeOf block = some old ∧
      ((Assoc.erase h.blocks block).map fun e => ((charge e.2).getD 0).toNat).sum + old.toNat =
        h.live.toNat := by
  obtain ⟨size, hlookup⟩ := Option.isSome_iff_exists.mp hlive
  have hmem := Assoc.mem_of_lookup hlookup
  obtain ⟨old, hcharge⟩ := Option.isSome_iff_exists.mp (hacc.charged _ hmem)
  refine ⟨old, chargeOf_eq hlookup hcharge, ?_⟩
  have hsum := Assoc.sum_erase (f := fun e => ((charge e.2).getD 0).toNat) hacc.distinct hmem
  rw [hacc.live, ← hsum]
  show _ = _ + ((charge size).getD 0).toNat
  rw [hcharge, Option.getD_some]

lemma notMem_of_not_live {block : Block} (h' : ¬h.Live block) : block ∉ h.blocks.map Prod.fst := by
  intro hmem
  obtain ⟨e, he, rfl⟩ := List.mem_map.mp hmem
  apply h'
  rw [Live, Option.isSome_iff_ne_none]
  intro hnone
  exact absurd (List.lookup_eq_none_iff.mp hnone e he) (by simp)

lemma Accounted.alloc (hacc : h.Accounted) {size : UInt64} {answer : Option Block}
    (hfresh : ∀ b, b ∈ answer → ¬h.Live b) :
    h.Keeps (h.alloc size answer) fun reply => size ≠ 0 ∧ reply = none := by
  rw [Heap.alloc]
  split
  · rename_i hzero
    exact ⟨none, h, rfl, hacc, rfl, .inl, fun hor => hor.resolve_right fun hr => hr.1 hzero⟩
  · rename_i hsize
    obtain ⟨reply, h', heq, hacc', hlimit, hfailed⟩ := hacc.place 0 size answer
      (List.Sublist.refl _) hacc.live.symm (fun c hc => delegated_eq hc answer)
      (fun b hb => notMem_of_not_live (hfresh b hb))
    exact ⟨reply, h', heq, hacc', hlimit, hfailed.trans (by simp [hsize])⟩

lemma Accounted.calloc (hacc : h.Accounted) {count size : UInt64} {answer : Option Block}
    (hfresh : ∀ b, b ∈ answer → ¬h.Live b) :
    h.Keeps (h.calloc count size answer) fun reply => count ≠ 0 ∧ size ≠ 0 ∧ reply = none := by
  rw [Heap.calloc]
  split
  · rename_i hzero
    refine ⟨none, h, rfl, hacc, rfl, .inl, fun hor => hor.resolve_right ?_⟩
    rintro ⟨hcount, hsize, -⟩
    exact hzero.elim hcount hsize
  · rename_i hzero
    rw [not_or] at hzero
    split
    · obtain ⟨reply, h', heq, hacc', hlimit, hfailed⟩ := keeps_fail hacc
      exact ⟨reply, h', heq, hacc', hlimit, hfailed.trans (by simp [hzero])⟩
    · rename_i total htotal
      obtain ⟨reply, h', heq, hacc', hlimit, hfailed⟩ := hacc.place 0 total answer
        (List.Sublist.refl _) hacc.live.symm (fun c hc => delegated_eq hc answer)
        (fun b hb => notMem_of_not_live (hfresh b hb))
      exact ⟨reply, h', by simpa [htotal] using heq, hacc', hlimit, hfailed.trans (by simp [hzero])⟩

/-- A free takes the charge of a live block away; null is left alone. -/
lemma Accounted.dealloc (hacc : h.Accounted) {block : Option Block} (hlive : ∀ b, b ∈ block → h.Live b) :
    ∃ h', h.dealloc block = some h' ∧ h'.Accounted ∧ h'.limit = h.limit ∧ h'.failed = h.failed := by
  cases block with
  | none => exact ⟨h, rfl, hacc, rfl, rfl⟩
  | some block =>
    obtain ⟨old, hold, hsum⟩ := hacc.of_live (hlive block rfl)
    have hle : old ≤ h.live := by
      rw [UInt64.le_iff_toNat_le]
      omega
    have hnat := UInt64.toNat_sub_of_le h.live old hle
    have hsub : Checked.sub h.live old = some (h.live - old) := by
      rw [Checked.sub_eq_some]
      omega
    refine ⟨{ h with live := h.live - old, blocks := Assoc.erase h.blocks block }, ?_,
      ⟨Assoc.nodup_erase hacc.distinct block, ?_, ?_, ?_⟩, rfl, rfl⟩
    · rw [Heap.dealloc, hold, Option.bind_eq_bind, Option.bind_some, hsub]
      rfl
    · intro e he
      exact hacc.charged e (Assoc.mem_erase.mp he).1
    · show (h.live - old).toNat =
        ((Assoc.erase h.blocks block).map fun e => ((charge e.2).getD 0).toNat).sum
      omega
    · have hwithin := UInt64.le_iff_toNat_le.mp hacc.within
      show h.live - old ≤ h.limit
      rw [UInt64.le_iff_toNat_le]
      omega

lemma Accounted.realloc (hacc : h.Accounted) {block answer : Option Block} {newSize : UInt64}
    (hlive : ∀ b, b ∈ block → h.Live b)
    (hfresh : ∀ b, b ∈ answer → block = some b ∨ ¬h.Live b) :
    h.Keeps (h.realloc block newSize answer) fun reply => newSize ≠ 0 ∧ reply = none := by
  cases block with
  | none =>
    exact hacc.alloc fun b hb => (hfresh b hb).resolve_left fun hnone => (nomatch hnone)
  | some block =>
    rw [Heap.realloc]
    split
    · rename_i hzero
      obtain ⟨h', heq, hacc', hlimit, hfailed⟩ := hacc.dealloc hlive
      refine ⟨none, h', ?_, hacc', hlimit, ?_⟩
      · simp only [heq, Option.bind_eq_bind, Option.bind_some, Option.pure_def]
      · rw [hfailed]
        exact ⟨.inl, fun hor => hor.resolve_right fun hr => hr.1 hzero⟩
    · rename_i hsize
      obtain ⟨old, hold, hsum⟩ := hacc.of_live (hlive block rfl)
      have hnot : ∀ b, b ∈ answer → b ∉ (Assoc.erase h.blocks block).map Prod.fst := by
        intro b hb hmem
        obtain ⟨e, he, rfl⟩ := List.mem_map.mp hmem
        obtain ⟨he, hne⟩ := Assoc.mem_erase.mp he
        rcases hfresh e.1 hb with heq | hnot
        · exact hne (Option.some.inj heq).symm
        · exact notMem_of_not_live hnot (List.mem_map_of_mem he)
      rw [hold]
      obtain ⟨reply, h', heq, hacc', hlimit, hfailed⟩ := hacc.place old newSize answer
        List.filter_sublist hsum (fun c hc => delegated_eq hc answer) hnot
      exact ⟨reply, h', heq, hacc', hlimit, hfailed.trans (by simp [hsize])⟩

lemma Accounted.step (hacc : h.Accounted) {op : Op Block} (hmay : h.Allows op) :
    h.Keeps (h.step op) (Refused op) := by
  cases op with
  | alloc size answer => exact hacc.alloc hmay
  | calloc count size answer => exact hacc.calloc hmay
  | dealloc block =>
    obtain ⟨h', heq, hacc', hlimit, hfailed⟩ := hacc.dealloc hmay
    refine ⟨none, h', ?_, hacc', hlimit, ?_⟩
    · rw [Heap.step, heq]
      rfl
    · rw [hfailed]
      exact ⟨.inl, fun hor => hor.resolve_right id⟩
  | realloc block newSize answer => exact hacc.realloc hmay.1 hmay.2

omit [DecidableEq Block] in
lemma accounted_new (limit : UInt64) (failed : Bool) : (new limit failed : Heap Block).Accounted :=
  ⟨List.nodup_nil, fun _ he => absurd he List.not_mem_nil, rfl, UInt64.zero_le⟩

end

/-- Over legal calls no computation overflows, what is live is what the live blocks are charged and
stays within the limit, and the latch is set by the requests that were refused. -/
theorem accounted_after (limit : UInt64) (failed : Bool) (ops : List (Op Block))
    (hlegal : Run.Legal step Allows (new limit failed) ops) :
    (∀ sum, (rounded sum).toNat = sum.toNat / 8 * 8) ∧
      ∃ replies h, Run.replies step (new limit failed) ops = some (replies, h) ∧
        h.limit = limit ∧ h.Accounted ∧
        (h.failed = true ↔ failed = true ∨ ∃ call ∈ ops.zip replies, Refused call.1 call.2) := by
  refine ⟨toNat_rounded, ?_⟩
  have hstart : (new limit failed : Heap Block).limit = limit ∧
      (new limit failed : Heap Block).Accounted ∧
      ((new limit failed : Heap Block).failed = true ↔
        failed = true ∨ ∃ call ∈ ([] : List (Op Block × Option Block)), Refused call.1 call.2) :=
    ⟨rfl, accounted_new limit failed, by simp [new]⟩
  have hkeeps : ∀ (past : List (Op Block × Option Block)) (h : Heap Block) (op : Op Block),
      (h.limit = limit ∧ h.Accounted ∧
        (h.failed = true ↔ failed = true ∨ ∃ call ∈ past, Refused call.1 call.2)) → h.Allows op →
      ∃ reply h', h.step op = some (reply, h') ∧ h'.limit = limit ∧ h'.Accounted ∧
        (h'.failed = true ↔
          failed = true ∨ ∃ call ∈ past ++ [(op, reply)], Refused call.1 call.2) := by
    rintro past h op ⟨hlimit, hacc, hfailed⟩ hmay
    obtain ⟨reply, h', hstep, hacc', hlimit', hfailed'⟩ := hacc.step hmay
    refine ⟨reply, h', hstep, hlimit'.trans hlimit, hacc', ?_⟩
    rw [hfailed', hfailed, or_assoc]
    simp [or_and_right, exists_or]
  exact hlegal.replies hkeeps hstart

/-- A block grows and moves, and a request past the limit sets the latch. -/
theorem accounted_after_growth :
    let ops : List (Op Nat) :=
      [.alloc 1 (some 7), .realloc (some 7) 64 (some 9), .calloc 3 7 (some 7), .dealloc (some 9)]
    ∃ h, Run.replies step (new 90 false) ops = some ([some 7, some 9, none, none], h) ∧
      h.Accounted ∧ h.failed = true := by
  intro ops
  obtain ⟨-, replies, h, hrun, -, hacc, hfailed⟩ := accounted_after 90 false ops (by decide)
  have hreplies : (Run.replies step (new 90 false) ops).map Prod.fst =
      some [some 7, some 9, none, none] := by decide
  rw [hrun] at hreplies
  obtain rfl := Option.some.inj hreplies
  refine ⟨h, hrun, hacc, hfailed.mpr (.inr ⟨(.calloc 3 7 (some 7), none), ?_, ?_⟩)⟩
  · simp [ops]
  · exact ⟨by decide, by decide, rfl⟩

end Heap

end Codemode
