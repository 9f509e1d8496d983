import Mathlib.Data.Nat.Digits.Defs
import Mathlib.Tactic.Common

/-!
# A stack of frames in a file

A file of bytes, written and read at offsets, that holds a stack: each frame is a payload followed
by its length in eight little-endian bytes, so that the top frame is found from the end.
-/

namespace FrameStack

/-! ### Little-endian numbers -/

/-- The first `width` little-endian bytes of a number. -/
def leBytes : Nat → Nat → List UInt8
  | 0, _ => []
  | width + 1, n => UInt8.ofNat (n % 256) :: leBytes width (n / 256)

def ofLeBytes (bytes : List UInt8) : Nat := Nat.ofDigits 256 (bytes.map UInt8.toNat)

@[simp] lemma length_leBytes (width n : Nat) : (leBytes width n).length = width := by
  induction width generalizing n with
  | zero => rfl
  | succ width ih => rw [leBytes, List.length_cons, ih]

lemma ofLeBytes_leBytes {width n : Nat} (h : n < 256 ^ width) :
    ofLeBytes (leBytes width n) = n := by
  induction width generalizing n with
  | zero => rw [pow_zero, Nat.lt_one_iff] at h; rw [h]; rfl
  | succ width ih =>
    have hdiv : n / 256 < 256 ^ width := by
      rw [Nat.div_lt_iff_lt_mul (by decide)]
      rwa [pow_succ] at h
    have hdigit : (UInt8.ofNat (n % 256)).toNat = n % 256 := by
      rw [UInt8.toNat_ofNat']
      exact Nat.mod_eq_of_lt (Nat.mod_lt n (by decide))
    have htail : Nat.ofDigits 256 ((leBytes width (n / 256)).map UInt8.toNat) = n / 256 := ih hdiv
    rw [ofLeBytes, leBytes, List.map_cons, Nat.ofDigits_cons, hdigit, htail]
    exact Nat.mod_add_div n 256

/-! ### Files -/

/-- `seek` to an offset and `write_all`; a gap is filled with zeros. -/
def writeAt (file : List UInt8) (offset : Nat) (bytes : List UInt8) : List UInt8 :=
  (file ++ List.replicate (offset - file.length) 0).take offset ++ bytes
    ++ file.drop (offset + bytes.length)

/-- `seek` to an offset and `read_exact`. -/
def readAt (file : List UInt8) (offset length : Nat) : Option (List UInt8) :=
  if offset + length ≤ file.length then some ((file.drop offset).take length) else none

lemma writeAt_length (file bytes : List UInt8) :
    writeAt file file.length bytes = file ++ bytes := by
  have hdrop : file.drop (file.length + bytes.length) = [] :=
    List.drop_eq_nil_of_le (Nat.le_add_right _ _)
  simp [writeAt, hdrop]

lemma readAt_append (left bytes right : List UInt8) :
    readAt (left ++ bytes ++ right) left.length bytes.length = some bytes := by
  rw [readAt, if_pos (by simp), List.append_assoc, List.drop_left, List.take_left]

/-- What a beginning of the file reads, the file reads. -/
lemma readAt_of_take {file bytes : List UInt8} {n offset length : Nat}
    (h : readAt (file.take n) offset length = some bytes) :
    readAt file offset length = some bytes := by
  unfold readAt at h ⊢
  split at h
  · rename_i hle
    rw [List.length_take] at hle
    rw [if_pos (by omega), ← h, List.drop_take, List.take_take, Nat.min_eq_left (by omega)]
  · cases h

/-- A write leaves alone what is before its offset. -/
lemma take_writeAt {file : List UInt8} {offset : Nat} (h : offset ≤ file.length)
    (bytes : List UInt8) : (writeAt file offset bytes).take offset = file.take offset := by
  have hgap : offset - file.length = 0 := Nat.sub_eq_zero_of_le h
  unfold writeAt
  rw [hgap, List.replicate_zero, List.append_nil, List.append_assoc,
    List.take_append_of_le_length (by rw [List.length_take]; omega), List.take_take, Nat.min_self]

lemma take_writeAt_length {file : List UInt8} {offset : Nat} (h : offset ≤ file.length)
    (bytes : List UInt8) :
    (writeAt file offset bytes).take (offset + bytes.length) = file.take offset ++ bytes := by
  have hgap : offset - file.length = 0 := Nat.sub_eq_zero_of_le h
  unfold writeAt
  rw [hgap, List.replicate_zero, List.append_nil]
  apply List.take_left'
  rw [List.length_append, List.length_take, Nat.min_eq_left h]

lemma length_writeAt_ge {file : List UInt8} {offset : Nat} (h : offset ≤ file.length)
    (bytes : List UInt8) : offset + bytes.length ≤ (writeAt file offset bytes).length := by
  have htake := congrArg List.length (take_writeAt_length h bytes)
  rw [List.length_take, List.length_append, List.length_take, Nat.min_eq_left h] at htake
  omega

/-! ### Frames -/

def frame (payload : List UInt8) : List UInt8 := payload ++ leBytes 8 payload.length

/-- The file of a stack, whose top frame comes last in the list. -/
def encode (payloads : List (List UInt8)) : List UInt8 := payloads.flatMap frame

@[simp] lemma length_frame (payload : List UInt8) :
    (frame payload).length = payload.length + 8 := by
  rw [frame, List.length_append, length_leBytes]

@[simp] lemma encode_append_singleton (payloads : List (List UInt8)) (payload : List UInt8) :
    encode (payloads ++ [payload]) = encode payloads ++ frame payload := by
  simp [encode]

lemma length_encode (payloads : List (List UInt8)) :
    (encode payloads).length = (payloads.map fun payload => payload.length + 8).sum := by
  induction payloads with
  | nil => rfl
  | cons payload payloads ih =>
    rw [encode, List.flatMap_cons, List.length_append, length_frame]
    rw [encode] at ih
    rw [ih, List.map_cons, List.sum_cons]

/-- The last eight bytes tell where the top payload starts. -/
lemma readAt_top (payloads : List (List UInt8)) {payload : List UInt8}
    (hlength : payload.length < 2 ^ 64) :
    ∃ bytes, readAt (encode (payloads ++ [payload]))
        ((encode (payloads ++ [payload])).length - 8) 8 = some bytes ∧
      ofLeBytes bytes = payload.length := by
  refine ⟨leBytes 8 payload.length, ?_, ofLeBytes_leBytes hlength⟩
  have hread := readAt_append (encode payloads ++ payload) (leBytes 8 payload.length) []
  rw [List.append_nil, length_leBytes] at hread
  have hlast : (encode payloads ++ payload ++ leBytes 8 payload.length).length - 8 =
      (encode payloads ++ payload).length := by
    rw [List.length_append, length_leBytes, Nat.add_sub_cancel]
  rw [encode_append_singleton, frame, ← List.append_assoc, hlast]
  exact hread

lemma readAt_payload (payloads : List (List UInt8)) (payload : List UInt8) :
    readAt (encode (payloads ++ [payload])) (encode payloads).length payload.length =
      some payload := by
  rw [encode_append_singleton, frame, ← List.append_assoc]
  exact readAt_append _ _ _

end FrameStack
