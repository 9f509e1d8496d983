import RpiPackage.History.Page
import RpiPackage.Lib.FrameStack
import Mathlib.Data.List.Induction

/-!
# The history spool

Pages are kept on disk as a stack, newest first, so that popping them gives the oldest page first.
Reading a page parses its text back; the parser is a parameter.
-/

namespace History

open Json Result FrameStack

structure HistorySpool where
  file : List UInt8
  /-- The length of the stack, called `end` in the source. -/
  stackEnd : Nat

def HistorySpool.create : HistorySpool := ⟨[], 0⟩

/-- `disk` is the outcome of the writes. -/
def HistorySpool.push (spool : HistorySpool) (messages : List Value) (disk : Except String Unit) :
    Except String HistorySpool := do
  failIf (maxPageMessages < messages.length) "history spool message budget exceeded"
  let bytes ← boundedJson (.array messages)
  failIf (maxPageBytes < bytes.length ∨ maxSpoolBytes < spool.stackEnd + bytes.length + 8)
    "history spool byte budget exceeded"
  disk
  let file := writeAt spool.file spool.stackEnd bytes
  return {
    file := writeAt file (spool.stackEnd + bytes.length) (leBytes 8 bytes.length)
    stackEnd := spool.stackEnd + bytes.length + 8 }

section Parser

-- `serde_json::from_slice` for a list of messages
variable (fromSlice : List UInt8 → Except String (List Value))

def HistorySpool.readPageAt (spool : HistorySpool) (stackEnd : Nat) :
    Except String (Nat × List Value) := do
  failIf (stackEnd < 8 ∨ maxSpoolBytes < stackEnd) "invalid history spool"
  let length ← okOr (readAt spool.file (stackEnd - 8) 8) "failed to fill whole buffer"
  let len := ofLeBytes length
  failIf (maxPageBytes < len ∨ stackEnd < len + 8) "invalid history spool"
  let start := stackEnd - len - 8
  let bytes ← okOr (readAt spool.file start len) "failed to fill whole buffer"
  let messages ← fromSlice bytes
  failIf (maxPageMessages < messages.length) "invalid history spool"
  return (start, messages)

def HistorySpool.pop (spool : HistorySpool) :
    Except String (Option (List Value × HistorySpool)) := do
  if spool.stackEnd = 0 then return none
  else
    let (start, messages) ← spool.readPageAt fromSlice spool.stackEnd
    return some (messages, ⟨spool.file.take start, start⟩)

/-- Popping a spool until it is empty gives these pages. -/
inductive Drains : HistorySpool → List (List Value) → Prop where
  | empty (spool : HistorySpool) : spool.pop fromSlice = .ok none → Drains spool []
  | pop (spool spool' : HistorySpool) (messages : List Value) (pages : List (List Value)) :
      spool.pop fromSlice = .ok (some (messages, spool')) → Drains spool' pages →
      Drains spool (messages :: pages)

end Parser

/-! ### The stack on disk -/

/-- The text of a page. -/
def pageBytes (messages : List Value) : List UInt8 :=
  (Value.array messages).compact.toUTF8.data.toList

/-- The file holds the pages as frames, the last of the list on top. -/
structure HistorySpool.Stacks (spool : HistorySpool) (pages : List (List Value)) : Prop where
  file : spool.file = encode (pages.map pageBytes)
  stackEnd : spool.stackEnd = spool.file.length
  stackEnd_le : spool.stackEnd ≤ maxSpoolBytes
  page_le : ∀ messages ∈ pages, messages.length ≤ maxPageMessages ∧
    (pageBytes messages).length ≤ maxPageBytes

lemma HistorySpool.create_stacks : HistorySpool.create.Stacks [] :=
  ⟨rfl, rfl, Nat.zero_le _, by simp⟩

lemma boundedJson_array_eq_ok {messages : List Value} {bytes : List UInt8} :
    boundedJson (.array messages) = .ok bytes ↔
      ¬maxPageBytes < (pageBytes messages).length ∧ pageBytes messages = bytes := by
  simp only [boundedJson, ite_error_eq_ok, Except.ok.injEq, pageBytes]

variable {spool spool' : HistorySpool} {pages : List (List Value)} {messages : List Value}

/-- A page that is pushed is on top of what the file held. -/
lemma HistorySpool.Stacks.push (h : spool.Stacks pages) {disk : Except String Unit}
    (hpush : spool.push messages disk = .ok spool') : spool'.Stacks (pages ++ [messages]) := by
  simp only [HistorySpool.push, bind_eq_ok, failIf_eq_ok, pure_eq_ok, boundedJson_array_eq_ok]
    at hpush
  obtain ⟨-, hcount, bytes, ⟨hbytes, rfl⟩, -, hbudget, -, -, hpush⟩ := hpush
  obtain rfl := Except.ok.inj hpush
  rw [not_or, Nat.not_lt, Nat.not_lt] at hbudget
  have hfile : writeAt (writeAt spool.file spool.stackEnd (pageBytes messages))
      (spool.stackEnd + (pageBytes messages).length) (leBytes 8 (pageBytes messages).length) =
        spool.file ++ frame (pageBytes messages) := by
    rw [h.stackEnd, writeAt_length, ← List.length_append, writeAt_length, List.append_assoc]
    rfl
  refine ⟨?_, ?_, hbudget.2, ?_⟩
  · rw [hfile, h.file, List.map_append, List.map_singleton, encode_append_singleton]
  · dsimp only
    rw [hfile, h.stackEnd, List.length_append, length_frame, Nat.add_assoc]
  · intro page hpage
    rcases List.mem_append.mp hpage with hpage | hpage
    · exact h.page_le page hpage
    · obtain rfl := List.mem_singleton.mp hpage
      exact ⟨Nat.le_of_not_lt hcount, hbudget.1⟩

variable {fromSlice : List UInt8 → Except String (List Value)}

/-- A page whose text reads back is popped as it was pushed. -/
lemma HistorySpool.Stacks.pop (h : spool.Stacks (pages ++ [messages]))
    (hread : fromSlice (pageBytes messages) = .ok messages) :
    ∃ spool', spool.pop fromSlice = .ok (some (messages, spool')) ∧ spool'.Stacks pages := by
  obtain ⟨hcount, hbytes⟩ := h.page_le messages (by simp)
  have hfile := h.file
  rw [List.map_append, List.map_singleton] at hfile
  have hlt : (pageBytes messages).length < 2 ^ 64 := lt_of_le_of_lt hbytes (by decide)
  obtain ⟨length, hlength, hlen⟩ := readAt_top (pages.map pageBytes) hlt
  have hpayload := readAt_payload (pages.map pageBytes) (pageBytes messages)
  have hend : spool.stackEnd = (encode (pages.map pageBytes)).length +
      (pageBytes messages).length + 8 := by
    rw [h.stackEnd, hfile, encode_append_singleton, List.length_append, length_frame,
      Nat.add_assoc]
  have hstart : spool.stackEnd - (pageBytes messages).length - 8 =
      (encode (pages.map pageBytes)).length := by omega
  rw [← hfile, ← h.stackEnd] at hlength
  rw [← hfile] at hpayload
  have hle := h.stackEnd_le
  have hreadPage : spool.readPageAt fromSlice spool.stackEnd =
      .ok ((encode (pages.map pageBytes)).length, messages) := by
    simp only [HistorySpool.readPageAt, bind_eq_ok, failIf_eq_ok, okOr_eq_ok, pure_eq_ok]
    refine ⟨(), by omega, length, hlength, (), by omega, pageBytes messages, ?_, messages, hread,
      (), by omega, by rw [hlen, hstart]⟩
    rw [hlen, hstart]
    exact hpayload
  refine ⟨⟨spool.file.take (encode (pages.map pageBytes)).length,
    (encode (pages.map pageBytes)).length⟩, ?_, ?_⟩
  · rw [HistorySpool.pop, if_neg (by omega), hreadPage]
    rfl
  · have htake : spool.file.take (encode (pages.map pageBytes)).length =
        encode (pages.map pageBytes) := by
      rw [hfile, encode_append_singleton, List.take_left]
    refine ⟨htake, by rw [htake], by dsimp only; omega, fun page hpage => ?_⟩
    exact h.page_le page (List.mem_append_left _ hpage)

/-- Popping a spool gives its pages from the top. -/
lemma HistorySpool.Stacks.drains (h : spool.Stacks pages)
    (hread : ∀ messages ∈ pages, fromSlice (pageBytes messages) = .ok messages) :
    Drains fromSlice spool pages.reverse := by
  induction pages using List.reverseRec generalizing spool with
  | nil =>
    have hend : spool.stackEnd = 0 := by rw [h.stackEnd, h.file]; rfl
    exact .empty spool (by rw [HistorySpool.pop, if_pos hend]; rfl)
  | append_singleton pages messages ih =>
    obtain ⟨spool', hpop, hstacks⟩ := h.pop (hread messages (by simp))
    rw [List.reverse_concat]
    exact .pop spool spool' messages _ hpop
      (ih hstacks fun page hpage => hread page (List.mem_append_left _ hpage))

end History
