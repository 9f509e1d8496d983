import RpiPackage.History.Spool
import RpiPackage.Lib.Run

/-!
# The spool is a stack

Pushes, validations and pops of a spool, on a file with a position of its own that they all move,
answer as a stack in memory does.
-/

namespace History

open Json Result FrameStack

/-- An open file; what is read or written is at its position. -/
structure Handle where
  bytes : List UInt8
  position : Nat

namespace Handle

def seek (f : Handle) (offset : Nat) : Handle := { f with position := offset }

def readExact (f : Handle) (length : Nat) : Except String (List UInt8) × Handle :=
  match readAt f.bytes f.position length with
  | some bytes => (.ok bytes, f.seek (f.position + length))
  | none => (.error "failed to fill whole buffer", f.seek (max f.position f.bytes.length))

def writeAll (f : Handle) (bytes : List UInt8) : Handle :=
  ⟨writeAt f.bytes f.position bytes, f.position + bytes.length⟩

def setLen (f : Handle) (length : Nat) : Handle :=
  { f with bytes := f.bytes.take length ++ List.replicate (length - f.bytes.length) 0 }

end Handle

/-- A spool with its open file. -/
structure SpoolFile where
  file : Handle
  stackEnd : Nat

/-- A write that fails has put some bytes of the frame into the file. -/
structure Fault where
  written : Nat
  error : String

/-- A callback answers to a message by what it has been called with before. -/
abbrev Callback := List Value → Value → Except String Unit

/-- Whether a look at the clock finds the deadline passed. -/
abbrev Clock := Nat → Bool

/-- The messages that a validation has shown to its callback, and its looks at the clock. -/
structure Visit where
  seen : List Value
  looks : Nat

def Visit.look (v : Visit) : Visit := { v with looks := v.looks + 1 }

def Visit.show (v : Visit) (message : Value) : Visit := { v with seen := v.seen ++ [message] }

def deadlineExceeded : String := "history validation deadline exceeded"

def visitMessages (check : Callback) (late : Clock) : Visit → List Value →
    Visit × Except String Unit
  | v, [] => (v, .ok ())
  | v, message :: messages =>
    if late v.looks then (v.look, .error deadlineExceeded)
    else
      match check v.seen message with
      | .error error => (v.look.show message, .error error)
      | .ok _ => visitMessages check late (v.look.show message) messages

inductive Op where
  | push (messages : List Value) (fault : Option Fault)
  | validate (check : Callback) (late : Clock)
  | pop

inductive Answer where
  | pushed (result : Except String Unit)
  | validated (seen : List Value) (result : Except String Unit)
  | popped (result : Except String (Option (List Value)))

namespace SpoolFile

def create : SpoolFile := ⟨⟨[], 0⟩, 0⟩

def push (s : SpoolFile) (messages : List Value) (fault : Option Fault) :
    Except String Unit × SpoolFile :=
  if maxPageMessages < messages.length then (.error "history spool message budget exceeded", s)
  else
    match boundedJson (.array messages) with
    | .error error => (.error error, s)
    | .ok bytes =>
      if maxPageBytes < bytes.length ∨ maxSpoolBytes < s.stackEnd + bytes.length + 8 then
        (.error "history spool byte budget exceeded", s)
      else
        let file := s.file.seek s.stackEnd
        match fault with
        | some fault =>
          (.error fault.error, { s with file := file.writeAll ((frame bytes).take fault.written) })
        | none =>
          (.ok (), ⟨(file.writeAll bytes).writeAll (leBytes 8 bytes.length),
            s.stackEnd + bytes.length + 8⟩)

section Parser

-- `serde_json::from_slice` for a list of messages
variable (fromSlice : List UInt8 → Except String (List Value))

def readPageAt (s : SpoolFile) (stackEnd : Nat) : Except String (Nat × List Value) × SpoolFile :=
  if stackEnd < 8 ∨ maxSpoolBytes < stackEnd then (.error "invalid history spool", s)
  else
    match (s.file.seek (stackEnd - 8)).readExact 8 with
    | (.error error, file) => (.error error, { s with file })
    | (.ok length, file) =>
      let len := ofLeBytes length
      if maxPageBytes < len ∨ stackEnd < len + 8 then
        (.error "invalid history spool", { s with file })
      else
        let start := stackEnd - len - 8
        match (file.seek start).readExact len with
        | (.error error, file) => (.error error, { s with file })
        | (.ok bytes, file) =>
          match fromSlice bytes with
          | .error error => (.error error, { s with file })
          | .ok messages =>
            if maxPageMessages < messages.length then
              (.error "invalid history spool", { s with file })
            else (.ok (start, messages), { s with file })

/-- The subtractions that are made when a page is read, the minuend first. -/
def subtractions (s : SpoolFile) (stackEnd : Nat) : List (Nat × Nat) :=
  if stackEnd < 8 ∨ maxSpoolBytes < stackEnd then []
  else
    (stackEnd, 8) ::
      match ((s.file.seek (stackEnd - 8)).readExact 8).1 with
      | .error _ => []
      | .ok length =>
        let len := ofLeBytes length
        if maxPageBytes < len ∨ stackEnd < len + 8 then []
        else [(stackEnd, len), (stackEnd - len, 8)]

/-- The loop of a validation; every page takes at least eight bytes. -/
def visitPages (check : Callback) (late : Clock) : (fuel stackEnd : Nat) → Visit → SpoolFile →
    Visit × Except String Unit × SpoolFile
  | 0, _, v, s => (v, .ok (), s)
  | fuel + 1, stackEnd, v, s =>
    if stackEnd = 0 then (v, .ok (), s)
    else if late v.looks then (v.look, .error deadlineExceeded, s)
    else
      match s.readPageAt fromSlice stackEnd with
      | (.error error, s) => (v.look, .error error, s)
      | (.ok (start, messages), s) =>
        match visitMessages check late v.look messages with
        | (v, .error error) => (v, .error error, s)
        | (v, .ok _) => visitPages check late fuel start v s

/-- The position of the file is set back in the end. -/
def validate (s : SpoolFile) (check : Callback) (late : Clock) :
    Visit × Except String Unit × SpoolFile :=
  let position := s.file.position
  match s.visitPages fromSlice check late s.stackEnd s.stackEnd ⟨[], 0⟩ with
  | (v, result, s) => (v, result, { s with file := s.file.seek position })

def pop (s : SpoolFile) : Except String (Option (List Value)) × SpoolFile :=
  if s.stackEnd = 0 then (.ok none, s)
  else
    match s.readPageAt fromSlice s.stackEnd with
    | (.error error, s) => (.error error, s)
    | (.ok (start, messages), s) => (.ok (some messages), ⟨s.file.setLen start, start⟩)

def apply (s : SpoolFile) : Op → Answer × SpoolFile
  | .push messages fault =>
    let (result, s) := s.push messages fault
    (.pushed result, s)
  | .validate check late =>
    let (v, result, s) := s.validate fromSlice check late
    (.validated v.seen result, s)
  | .pop =>
    let (result, s) := s.pop fromSlice
    (.popped result, s)

/-- The answers to some operations, one after the other. -/
def answers : SpoolFile → List Op → List Answer
  | _, [] => []
  | s, op :: ops => (s.apply fromSlice op).1 :: answers (s.apply fromSlice op).2 ops

end Parser

end SpoolFile

/-! ### The stack -/

/-- The pages, the top first. -/
abbrev Stack := List (List Value)

namespace Stack

/-- The bytes that the pages take. -/
def size (st : Stack) : Nat := (st.map fun page => (pageBytes page).length + 8).sum

def push (st : Stack) (messages : List Value) (fault : Option Fault) : Except String Unit × Stack :=
  if maxPageMessages < messages.length then (.error "history spool message budget exceeded", st)
  else if maxPageBytes < (pageBytes messages).length then
    (.error "history page exceeds byte budget", st)
  else if maxSpoolBytes < size st + (pageBytes messages).length + 8 then
    (.error "history spool byte budget exceeded", st)
  else
    match fault with
    | some fault => (.error fault.error, st)
    | none => (.ok (), messages :: st)

def visitPages (check : Callback) (late : Clock) : Visit → Stack → Visit × Except String Unit
  | v, [] => (v, .ok ())
  | v, page :: st =>
    if late v.looks then (v.look, .error deadlineExceeded)
    else
      match visitMessages check late v.look page with
      | (v, .error error) => (v, .error error)
      | (v, .ok _) => visitPages check late v st

def apply (st : Stack) : Op → Answer × Stack
  | .push messages fault => (.pushed (st.push messages fault).1, (st.push messages fault).2)
  | .validate check late =>
    (.validated (visitPages check late ⟨[], 0⟩ st).1.seen (visitPages check late ⟨[], 0⟩ st).2, st)
  | .pop =>
    match st with
    | [] => (.popped (.ok none), [])
    | page :: st => (.popped (.ok (some page)), st)

def answers : Stack → List Op → List Answer
  | _, [] => []
  | st, op :: ops => (st.apply op).1 :: answers (st.apply op).2 ops

end Stack

/-! ### The file and the stack -/

/-- The beginning of the file is the stack; a write that has failed may have left more. -/
def Holds (bytes : List UInt8) (stackEnd : Nat) (st : Stack) : Prop :=
  (⟨bytes.take stackEnd, stackEnd⟩ : HistorySpool).Stacks st.reverse

variable {bytes : List UInt8} {stackEnd : Nat} {st : Stack} {page messages : List Value}
  {s : SpoolFile}

lemma holds_create : Holds [] 0 [] := HistorySpool.create_stacks

lemma Holds.le_length (h : Holds bytes stackEnd st) : stackEnd ≤ bytes.length := by
  have hend : stackEnd = (bytes.take stackEnd).length := h.stackEnd
  rw [List.length_take] at hend
  omega

lemma Holds.size (h : Holds bytes stackEnd st) : stackEnd = Stack.size st := by
  have hend : stackEnd = (bytes.take stackEnd).length := h.stackEnd
  have hfile : bytes.take stackEnd = encode (st.reverse.map pageBytes) := h.file
  rw [hfile, length_encode, List.map_map, List.map_reverse, List.sum_reverse] at hend
  exact hend

lemma Holds.eq_zero_iff (h : Holds bytes stackEnd st) : stackEnd = 0 ↔ st = [] := by
  rw [h.size]
  cases st with
  | nil => exact iff_of_true rfl rfl
  | cons page st =>
    refine iff_of_false ?_ (List.cons_ne_nil page st)
    unfold Stack.size
    rw [List.map_cons, List.sum_cons]
    omega

/-- A write at the end of the stack leaves it, and what is written entirely is on top of it. -/
lemma Holds.write (h : Holds bytes stackEnd st) (written : List UInt8) :
    Holds (writeAt bytes stackEnd written) stackEnd st := by
  unfold Holds
  rw [take_writeAt h.le_length]
  exact h

lemma Holds.push (h : Holds bytes stackEnd st) (hcount : messages.length ≤ maxPageMessages)
    (hpage : (pageBytes messages).length ≤ maxPageBytes)
    (hspool : stackEnd + (pageBytes messages).length + 8 ≤ maxSpoolBytes) :
    Holds (writeAt (writeAt bytes stackEnd (pageBytes messages))
        (stackEnd + (pageBytes messages).length) (leBytes 8 (pageBytes messages).length))
      (stackEnd + (pageBytes messages).length + 8) (messages :: st) := by
  have hlength : (bytes.take stackEnd).length = stackEnd := by
    rw [List.length_take, Nat.min_eq_left h.le_length]
  have hfirst := length_writeAt_ge h.le_length (pageBytes messages)
  have htake : (writeAt (writeAt bytes stackEnd (pageBytes messages))
      (stackEnd + (pageBytes messages).length) (leBytes 8 (pageBytes messages).length)).take
        (stackEnd + (pageBytes messages).length + 8) =
      bytes.take stackEnd ++ frame (pageBytes messages) := by
    have hsecond := take_writeAt_length hfirst (leBytes 8 (pageBytes messages).length)
    rw [length_leBytes] at hsecond
    rw [hsecond, take_writeAt_length h.le_length, List.append_assoc]
    rfl
  unfold Holds
  rw [htake, List.reverse_cons]
  refine ⟨?_, ?_, hspool, ?_⟩
  · have hfile : bytes.take stackEnd = encode (st.reverse.map pageBytes) := h.file
    rw [hfile, List.map_append, List.map_singleton, encode_append_singleton]
  · rw [List.length_append, length_frame, hlength, Nat.add_assoc]
  · intro page hmem
    rcases List.mem_append.mp hmem with hmem | hmem
    · exact h.page_le page hmem
    · obtain rfl := List.mem_singleton.mp hmem
      exact ⟨hcount, hpage⟩

variable {fromSlice : List UInt8 → Except String (List Value)}

/-- What the beginning of the file reads as a page, the open file reads, and only its position is
different. -/
lemma SpoolFile.readPageAt_of_take {start : Nat}
    (h : (⟨s.file.bytes.take stackEnd, stackEnd⟩ : HistorySpool).readPageAt fromSlice stackEnd =
      .ok (start, messages)) :
    ∃ position, s.readPageAt fromSlice stackEnd =
      (.ok (start, messages), { s with file := s.file.seek position }) := by
  simp only [HistorySpool.readPageAt, bind_eq_ok, failIf_eq_ok, okOr_eq_ok, pure_eq_ok,
    Except.ok.injEq, Prod.mk.injEq] at h
  obtain ⟨-, hend, length, hlength, -, hlen, payload, hpayload, messages', hparse, -, hcount, rfl,
    rfl⟩ := h
  have hlength' := readAt_of_take hlength
  have hpayload' := readAt_of_take hpayload
  refine ⟨stackEnd - ofLeBytes length - 8 + ofLeBytes length, ?_⟩
  unfold SpoolFile.readPageAt
  rw [if_neg hend]
  simp only [Handle.readExact, Handle.seek, hlength']
  rw [if_neg hlen]
  simp only [hpayload', hparse]
  rw [if_neg hcount]

/-- The top page is read from the end of the stack, and the rest of the stack is before it. -/
lemma Holds.readPageAt (h : Holds s.file.bytes stackEnd (page :: st))
    (hread : fromSlice (pageBytes page) = .ok page) :
    ∃ start position, s.readPageAt fromSlice stackEnd =
        (.ok (start, page), { s with file := s.file.seek position }) ∧
      start < stackEnd ∧ Holds s.file.bytes start st := by
  have hstacks := h
  unfold Holds at hstacks
  rw [List.reverse_cons] at hstacks
  obtain ⟨spool', hpop, hrest⟩ := hstacks.pop hread
  have hne : stackEnd ≠ 0 := fun hzero => by
    have := h.eq_zero_iff.mp hzero
    cases this
  unfold HistorySpool.pop at hpop
  rw [if_neg hne] at hpop
  obtain ⟨⟨start, messages⟩, hpage, hpop⟩ := bind_eq_ok.mp hpop
  obtain ⟨rfl, rfl⟩ := Prod.mk.inj (Option.some.inj (Except.ok.inj hpop))
  obtain ⟨position, hfile⟩ := SpoolFile.readPageAt_of_take hpage
  have hlt : start < stackEnd := by
    simp only [HistorySpool.readPageAt, bind_eq_ok, failIf_eq_ok, okOr_eq_ok, pure_eq_ok,
      Except.ok.injEq, Prod.mk.injEq] at hpage
    obtain ⟨-, hend, length, -, -, -, payload, -, messages', -, -, -, hstart, -⟩ := hpage
    omega
  refine ⟨start, position, hfile, hlt, ?_⟩
  have htake : (s.file.bytes.take stackEnd).take start = s.file.bytes.take start := by
    rw [List.take_take, Nat.min_eq_left (Nat.le_of_lt hlt)]
  dsimp only at hrest
  rw [htake] at hrest
  exact hrest

/-! ### Operations -/

/-- A validation sees the pages of the stack, from the top. -/
lemma Holds.visitPages (h : Holds s.file.bytes stackEnd st)
    (hread : ∀ page ∈ st, fromSlice (pageBytes page) = .ok page) (check : Callback) (late : Clock)
    {fuel : Nat} (hfuel : stackEnd ≤ fuel) (v : Visit) :
    ∃ position, s.visitPages fromSlice check late fuel stackEnd v =
      ((Stack.visitPages check late v st).1, (Stack.visitPages check late v st).2,
        { s with file := s.file.seek position }) := by
  induction st generalizing fuel stackEnd v s with
  | nil =>
    have hzero := h.eq_zero_iff.mpr rfl
    refine ⟨s.file.position, ?_⟩
    cases fuel with
    | zero => rfl
    | succ fuel =>
      unfold SpoolFile.visitPages
      rw [if_pos hzero]
      rfl
  | cons page st ih =>
    have hne : stackEnd ≠ 0 := fun hzero => by
      have := h.eq_zero_iff.mp hzero
      cases this
    obtain ⟨fuel, rfl⟩ : ∃ n, fuel = n + 1 := Nat.exists_eq_add_one.mpr (by omega)
    obtain ⟨start, position, hpage, hlt, hrest⟩ := h.readPageAt (hread page List.mem_cons_self)
    unfold SpoolFile.visitPages Stack.visitPages
    rw [if_neg hne]
    split
    · exact ⟨s.file.position, rfl⟩
    rw [hpage]
    dsimp only
    rcases visitMessages check late v.look page with ⟨v', error | _⟩
    · exact ⟨position, rfl⟩
    · have hfuel' : start ≤ fuel := by omega
      obtain ⟨position', hvisit⟩ := ih (s := { s with file := s.file.seek position }) hrest
        (fun page hmem => hread page (List.mem_cons_of_mem _ hmem)) hfuel' v'
      exact ⟨position', hvisit⟩

/-- The open file holds the stack. -/
def SpoolFile.Holds (s : SpoolFile) (st : Stack) : Prop :=
  History.Holds s.file.bytes s.stackEnd st

lemma SpoolFile.Holds.push (h : s.Holds st) (messages : List Value) (fault : Option Fault) :
    (s.push messages fault).1 = (st.push messages fault).1 ∧
      (s.push messages fault).2.Holds (st.push messages fault).2 := by
  have hsize : s.stackEnd = Stack.size st := History.Holds.size h
  unfold SpoolFile.push Stack.push
  split
  · exact ⟨rfl, h⟩
  rename_i hcount
  by_cases hpage : maxPageBytes < (pageBytes messages).length
  · have hbounded : boundedJson (.array messages) = .error "history page exceeds byte budget" :=
      if_pos hpage
    rw [hbounded, if_pos hpage]
    exact ⟨rfl, h⟩
  have hbounded : boundedJson (.array messages) = .ok (pageBytes messages) := if_neg hpage
  rw [hbounded, if_neg hpage]
  dsimp only
  by_cases hspool : maxSpoolBytes < Stack.size st + (pageBytes messages).length + 8
  · rw [if_pos (.inr (hsize ▸ hspool)), if_pos hspool]
    exact ⟨rfl, h⟩
  rw [if_neg (by rw [hsize]; exact fun hor => hor.elim hpage hspool), if_neg hspool]
  cases fault with
  | some fault => exact ⟨rfl, History.Holds.write h _⟩
  | none =>
    refine ⟨rfl, History.Holds.push h ?_ ?_ ?_⟩
    · exact Nat.le_of_not_lt hcount
    · exact Nat.le_of_not_lt hpage
    · rw [hsize]
      exact Nat.le_of_not_lt hspool

lemma SpoolFile.Holds.apply (h : s.Holds st)
    (hread : ∀ page ∈ st, fromSlice (pageBytes page) = .ok page) (op : Op) :
    (s.apply fromSlice op).1 = (st.apply op).1 ∧
      (s.apply fromSlice op).2.Holds (st.apply op).2 := by
  cases op with
  | push messages fault =>
    obtain ⟨hresult, hholds⟩ := h.push messages fault
    exact ⟨congrArg Answer.pushed hresult, hholds⟩
  | validate check late =>
    obtain ⟨position, hvisit⟩ := History.Holds.visitPages h hread check late (Nat.le_refl _) ⟨[], 0⟩
    simp only [SpoolFile.apply, SpoolFile.validate, hvisit]
    exact ⟨rfl, h⟩
  | pop =>
    cases st with
    | nil =>
      have hzero : s.stackEnd = 0 := (History.Holds.eq_zero_iff h).mpr rfl
      unfold SpoolFile.apply SpoolFile.pop
      rw [if_pos hzero]
      exact ⟨rfl, h⟩
    | cons page st =>
      have hne : s.stackEnd ≠ 0 := fun hzero => by
        have := (History.Holds.eq_zero_iff h).mp hzero
        cases this
      obtain ⟨start, position, hpage, hlt, hrest⟩ :=
        History.Holds.readPageAt h (hread page List.mem_cons_self)
      unfold SpoolFile.apply SpoolFile.pop
      rw [if_neg hne, hpage]
      refine ⟨rfl, ?_⟩
      have hgap : start - s.file.bytes.length = 0 := by
        have := History.Holds.le_length h
        omega
      show History.Holds (s.file.bytes.take start ++ List.replicate (start - s.file.bytes.length) 0)
        start st
      unfold History.Holds
      rw [hgap, List.replicate_zero, List.append_nil, List.take_take, Nat.min_self]
      exact hrest

lemma mem_of_mem_apply {op : Op} (hpage : page ∈ (st.apply op).2) :
    page ∈ st ∨ ∃ fault, op = .push page fault := by
  cases op with
  | push messages fault =>
    unfold Stack.apply Stack.push at hpage
    dsimp only at hpage
    repeat' split at hpage
    all_goals first
      | exact .inl hpage
      | skip
    rcases List.mem_cons.mp hpage with rfl | hpage
    · exact .inr ⟨none, rfl⟩
    · exact .inl hpage
  | validate check late => exact .inl hpage
  | pop =>
    cases st with
    | nil => exact .inl hpage
    | cons top st => exact .inl (List.mem_cons_of_mem _ hpage)

lemma SpoolFile.Holds.answers (h : s.Holds st)
    (hread : ∀ page ∈ st, fromSlice (pageBytes page) = .ok page) {ops : List Op}
    (hops : ∀ messages fault, .push messages fault ∈ ops →
      fromSlice (pageBytes messages) = .ok messages) :
    s.answers fromSlice ops = st.answers ops := by
  induction ops generalizing s st with
  | nil => rfl
  | cons op ops ih =>
    obtain ⟨hanswer, hholds⟩ := h.apply hread op
    have hread' : ∀ page ∈ (st.apply op).2, fromSlice (pageBytes page) = .ok page := by
      intro page hpage
      rcases mem_of_mem_apply hpage with hpage | ⟨fault, rfl⟩
      · exact hread page hpage
      · exact hops page fault List.mem_cons_self
    show _ :: _ = _ :: _
    rw [hanswer, ih hholds hread' fun messages fault hmem =>
      hops messages fault (List.mem_cons_of_mem _ hmem)]

/-! ### What a validation shows -/

lemma seen_visitMessages (check : Callback) (late : Clock) (v : Visit) (messages : List Value) :
    ∃ shown, (visitMessages check late v messages).1.seen = v.seen ++ shown ∧ shown <+: messages ∧
      ((visitMessages check late v messages).2 = .ok () → shown = messages) := by
  induction messages generalizing v with
  | nil => exact ⟨[], (List.append_nil _).symm, List.nil_prefix, fun _ => rfl⟩
  | cons message messages ih =>
    unfold visitMessages
    split
    · refine ⟨[], (List.append_nil _).symm, List.nil_prefix, fun h => ?_⟩
      cases h
    split
    · refine ⟨[message], rfl, ?_, fun h => ?_⟩
      · exact List.prefix_append [message] messages
      · cases h
    · obtain ⟨shown, hseen, hprefix, hall⟩ := ih (v.look.show message)
      refine ⟨message :: shown, ?_, List.cons_prefix_cons.mpr ⟨rfl, hprefix⟩, ?_⟩
      · rw [hseen]
        simp [Visit.show, Visit.look]
      · exact fun h => congrArg _ (hall h)

lemma seen_visitPages (check : Callback) (late : Clock) (v : Visit) (st : Stack) :
    ∃ shown, (Stack.visitPages check late v st).1.seen = v.seen ++ shown ∧ shown <+: st.flatten ∧
      ((Stack.visitPages check late v st).2 = .ok () → shown = st.flatten) := by
  induction st generalizing v with
  | nil => exact ⟨[], (List.append_nil _).symm, List.nil_prefix, fun _ => rfl⟩
  | cons page st ih =>
    unfold Stack.visitPages
    split
    · refine ⟨[], (List.append_nil _).symm, List.nil_prefix, fun h => ?_⟩
      cases h
    obtain ⟨shown, hseen, hprefix, hall⟩ := seen_visitMessages check late v.look page
    rcases hvisit : visitMessages check late v.look page with ⟨v', error | _⟩
    · rw [hvisit] at hseen
      refine ⟨shown, hseen, hprefix.trans (List.prefix_append page st.flatten), fun h => ?_⟩
      cases h
    · rw [hvisit] at hseen hall
      obtain ⟨shown', hseen', hprefix', hall'⟩ := ih v'
      obtain rfl := hall rfl
      refine ⟨shown ++ shown', ?_, ?_, ?_⟩
      · show (Stack.visitPages check late v' st).1.seen = _
        rw [hseen', hseen, List.append_assoc]
        rfl
      · rw [List.flatten_cons]
        exact (List.prefix_append_right_inj shown).mpr hprefix'
      · intro h
        rw [List.flatten_cons, hall' h]

/-- The subtractions of a page that is read never underflow, wherever it is read. -/
lemma SpoolFile.subtractions_le (s : SpoolFile) (stackEnd : Nat) :
    ∀ p ∈ s.subtractions stackEnd, p.2 ≤ p.1 := by
  unfold SpoolFile.subtractions
  split
  · simp
  rename_i hend
  split
  · intro p hp
    obtain rfl := List.mem_singleton.mp hp
    show 8 ≤ stackEnd
    omega
  · dsimp only
    split
    · intro p hp
      obtain rfl := List.mem_singleton.mp hp
      show 8 ≤ stackEnd
      omega
    · rename_i hlen
      intro p hp
      simp only [List.mem_cons, List.not_mem_nil, or_false] at hp
      rcases hp with rfl | rfl | rfl <;> dsimp only <;> omega

/-- A spool answers to every sequence of operations as a stack does, whose validations show the
messages of its pages from the top until the callback fails or the deadline passes. -/
theorem SpoolFile.answers_create (fromSlice : List UInt8 → Except String (List Value))
    (ops : List Op) (hops : ∀ messages fault, .push messages fault ∈ ops →
      fromSlice (pageBytes messages) = .ok messages) :
    SpoolFile.create.answers fromSlice ops = Stack.answers [] ops ∧
    (∀ check late st, (Stack.visitPages check late ⟨[], 0⟩ st).1.seen <+: st.flatten ∧
      ((Stack.visitPages check late ⟨[], 0⟩ st).2 = .ok () →
        (Stack.visitPages check late ⟨[], 0⟩ st).1.seen = st.flatten)) ∧
    ∀ (s : SpoolFile) stackEnd, ∀ p ∈ s.subtractions stackEnd, p.2 ≤ p.1 := by
  refine ⟨?_, ?_, SpoolFile.subtractions_le⟩
  · have hcreate : SpoolFile.create.Holds [] := holds_create
    exact hcreate.answers (by simp) hops
  · intro check late st
    obtain ⟨shown, hseen, hinitial, hall⟩ := seen_visitPages check late ⟨[], 0⟩ st
    rw [List.nil_append] at hseen
    rw [hseen]
    exact ⟨hinitial, hall⟩

def greeting : List Value := [.object [("role", .string "user"), ("content", .string "hi")]]

/-- A parser that knows one text. -/
def greetingFromSlice (bytes : List UInt8) : Except String (List Value) :=
  if bytes = pageBytes greeting then .ok greeting else .error "expected value"

theorem SpoolFile.answers_create_greeting :
    SpoolFile.create.answers greetingFromSlice
        [.push greeting none, .push greeting (some ⟨5, "disk full"⟩), .pop, .pop] =
      [.pushed (.ok ()), .pushed (.error "disk full"), .popped (.ok (some greeting)),
        .popped (.ok none)] := by
  refine (SpoolFile.answers_create greetingFromSlice _ ?_).1.trans ?_
  · intro messages fault hmem
    obtain rfl : messages = greeting := by
      simp only [List.mem_cons, Op.push.injEq, reduceCtorEq, List.not_mem_nil, or_false] at hmem
      rcases hmem with ⟨rfl, -⟩ | ⟨rfl, -⟩ <;> rfl
    exact if_pos rfl
  · have hpage : ¬maxPageBytes < (pageBytes greeting).length := by decide +kernel
    have hfirst : ¬maxSpoolBytes < Stack.size [] + (pageBytes greeting).length + 8 := by
      decide +kernel
    have hsecond : ¬maxSpoolBytes < Stack.size [greeting] + (pageBytes greeting).length + 8 := by
      decide +kernel
    have hcount : ¬maxPageMessages < greeting.length := by decide
    simp [Stack.answers, Stack.apply, Stack.push, hcount, hpage, hfirst, hsecond]

end History
