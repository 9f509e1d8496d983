import Mathlib.Data.List.TakeWhile
import RpiPackage.Lib.Base64
import RpiPackage.Lib.JsonLine
import RpiPackage.Lib.Result

/-!
# Native content

The blocks of text and images that a program may give out as they are. A selection is checked as a
whole, and an image only if its payload is the standard encoding of some bytes.
-/

namespace Codemode

open Json Result

def maxBlocks : Nat := 128
def maxJson : Nat := 1024 * 1024

/-! ### Image payloads -/

def digit (b : UInt8) : Option UInt8 :=
  if 65 ≤ b ∧ b ≤ 90 then some (b - 65)
  else if 97 ≤ b ∧ b ≤ 122 then some (b - 97 + 26)
  else if 48 ≤ b ∧ b ≤ 57 then some (b - 48 + 52)
  else if b = 43 then some 62
  else if b = 47 then some 63
  else none

def base64 (data : List UInt8) : Bool :=
  if data.isEmpty || data.length % 4 != 0 then false
  else
    let padding := (data.reverse.takeWhile (· == 61)).length
    if 2 < padding then false
    else
      let payload := data.take (data.length - padding)
      if payload.all (fun b => (digit b).isSome) = false then false
      else
        let last := (digit (payload.getLast?.getD 0)).getD 0
        match padding with
        | 2 => last &&& 15 == 0
        | 1 => last &&& 3 == 0
        | _ => true

section

open Base64

variable {b : UInt8} {data : List UInt8} {values : List Nat} {padding : Nat}

lemma digits_agree : (List.range 256).all (fun n =>
    (digit (UInt8.ofNat n)).map UInt8.toNat == valueOf (UInt8.ofNat n)) = true := by
  decide +kernel

lemma map_digit (b : UInt8) : (digit b).map UInt8.toNat = valueOf b := by
  have hagree := List.all_eq_true.mp digits_agree b.toNat (List.mem_range.mpr b.toNat_lt)
  rwa [UInt8.ofNat_toNat, beq_iff_eq] at hagree

lemma digit_digitOf {v : Nat} (h : v < 64) : digit (digitOf v) = some (UInt8.ofNat v) := by
  obtain ⟨n, hn, hnv⟩ := Option.map_eq_some_iff.mp ((map_digit _).trans (valueOf_digitOf h))
  rw [hn, ← hnv, UInt8.ofNat_toNat]

lemma exists_values_of_digits (h : data.all (fun b => (digit b).isSome) = true) :
    ∃ values : List Nat, (∀ v ∈ values, v < 64) ∧ data = values.map digitOf := by
  induction data with
  | nil => exact ⟨[], by simp, rfl⟩
  | cons b data ih =>
    rw [List.all_cons, Bool.and_eq_true] at h
    obtain ⟨values, hvalues, rfl⟩ := ih h.2
    obtain ⟨v, hv⟩ := Option.isSome_iff_exists.mp h.1
    have hvalue : valueOf b = some v.toNat := by rw [← map_digit, hv, Option.map_some]
    obtain ⟨hlt, hdigit⟩ := valueOf_eq_some hvalue
    refine ⟨v.toNat :: values, ?_, ?_⟩
    · intro w hw
      rcases List.mem_cons.mp hw with rfl | hw
      · exact hlt
      · exact hvalues w hw
    · rw [List.map_cons, hdigit]

lemma all_digits (h : ∀ v ∈ values, v < 64) :
    (values.map digitOf).all (fun b => (digit b).isSome) = true := by
  rw [List.all_eq_true]
  intro b hb
  obtain ⟨v, hv, rfl⟩ := List.mem_map.mp hb
  rw [digit_digitOf (h v hv)]
  rfl

/-- The padding of a text is all of its last bytes that are padding. -/
lemma exists_padding (data : List UInt8) :
    data = data.take (data.length - (data.reverse.takeWhile (· == 61)).length) ++
      List.replicate (data.reverse.takeWhile (· == 61)).length pad := by
  have hpads : data.reverse.takeWhile (· == 61) =
      List.replicate (data.reverse.takeWhile (· == 61)).length pad := by
    apply List.eq_replicate_of_mem
    intro b hb
    exact eq_of_beq (List.mem_takeWhile_imp (p := (· == 61)) hb)
  have hsplit : data = (data.reverse.dropWhile (· == 61)).reverse ++
      (data.reverse.takeWhile (· == 61)).reverse := by
    rw [← List.reverse_append, List.takeWhile_append_dropWhile, List.reverse_reverse]
  have htake : data.take (data.length - (data.reverse.takeWhile (· == 61)).length) =
      (data.reverse.dropWhile (· == 61)).reverse := by
    conv_lhs => rw [hsplit]
    apply List.take_left'
    rw [← hsplit, List.length_reverse]
    have hlength := congrArg List.length hsplit
    rw [List.length_append, List.length_reverse, List.length_reverse] at hlength
    omega
  rw [htake]
  conv_lhs => rw [hsplit, hpads, List.reverse_replicate]

lemma padding_append (hvalues : ∀ v ∈ values, v < 64) :
    ((values.map digitOf ++ List.replicate padding pad).reverse.takeWhile (· == 61)).length =
      padding := by
  have hnone : ((values.map digitOf).reverse.takeWhile (· == 61)) = [] := by
    cases hlast : (values.map digitOf).reverse with
    | nil => rfl
    | cons b rest =>
      obtain ⟨v, hv, rfl⟩ := List.mem_map.mp
        (List.mem_reverse.mp (hlast ▸ List.mem_cons_self (a := b) (l := rest)))
      exact List.takeWhile_cons_of_neg (by simpa [pad] using digitOf_ne_pad (hvalues v hv))
  rw [List.reverse_append, List.reverse_replicate, List.takeWhile_append_of_pos, hnone,
    List.append_nil, List.length_replicate]
  intro b hb
  rw [List.eq_of_mem_replicate hb]
  rfl

/-- The check of the last digit asks for unused bits that are zero. -/
lemma last_check (hvalues : ∀ v ∈ values, v < 64) :
    (match padding with
      | 2 => (digit ((values.map digitOf).getLast?.getD 0)).getD 0 &&& 15 == 0
      | 1 => (digit ((values.map digitOf).getLast?.getD 0)).getD 0 &&& 3 == 0
      | _ => true) = true ↔ Unused padding values := by
  have hmask : ∀ v < 64, (UInt8.ofNat v &&& 15 = 0 ↔ v % 16 = 0) ∧
      (UInt8.ofNat v &&& 3 = 0 ↔ v % 4 = 0) := by
    decide +kernel
  unfold Unused
  rw [List.getLast?_map]
  cases hlast : values.getLast? with
  | none =>
    simp only [Option.map_none, Option.getD_none, Option.not_mem_none, false_implies, implies_true,
      iff_true]
    split <;> rfl
  | some v =>
    have hv := hvalues v (List.mem_of_getLast? hlast)
    simp only [Option.map_some, Option.getD_some, digit_digitOf hv, Option.mem_some_iff,
      forall_eq']
    split
    · simp [(hmask v hv).1]
    · simp [(hmask v hv).2]
    · next h2 h1 => exact ⟨fun _ => ⟨fun h => absurd h h2, fun h => absurd h h1⟩, fun _ => rfl⟩

/-- A payload is accepted exactly if it is what the standard encoding writes for some bytes, and so
decoding it and encoding the bytes again gives it back. -/
theorem base64_iff (data : List UInt8) :
    (base64 data = true ↔ ∃ bytes, bytes ≠ [] ∧ data = encode bytes) ∧
      (base64 data = true → (decode data).map encode = some data) := by
  have hiff : base64 data = true ↔ ∃ bytes, bytes ≠ [] ∧ data = encode bytes := by
    constructor
    · intro h
      unfold base64 at h
      split at h
      · cases h
      · next hlength =>
        dsimp only at h
        split at h
        · cases h
        · next hpadding =>
          split at h
          · cases h
          · next hall =>
            rw [Bool.not_eq_false] at hall
            obtain ⟨values, hvalues, hpayload⟩ := exists_values_of_digits hall
            have hdata := exists_padding data
            rw [hpayload] at h hdata
            generalize (data.reverse.takeWhile (· == 61)).length = padding at *
            simp only [Bool.or_eq_true, List.isEmpty_iff, bne_iff_ne, ne_eq, not_or,
              not_not] at hlength
            have hsize : (values.length + padding) % 4 = 0 := by
              have := congrArg List.length hdata
              rw [List.length_append, List.length_map, List.length_replicate] at this
              rw [← this]
              exact hlength.2
            obtain ⟨bytes, hbytes⟩ := exists_encode_iff.mpr ⟨values, padding,
              (canonical_iff (by omega)).mpr ⟨hsize, (last_check hvalues).mp h⟩, by omega, hvalues,
              hdata⟩
            refine ⟨bytes, ?_, hbytes⟩
            rintro rfl
            exact hlength.1 hbytes
    · rintro ⟨bytes, hne, hencode⟩
      obtain ⟨values, padding, hcanonical, hpadding, hvalues, hdata⟩ :=
        exists_encode_iff.mp ⟨bytes, hencode⟩
      obtain ⟨hsize, hunused⟩ := (canonical_iff hpadding).mp hcanonical
      have hpad : (data.reverse.takeWhile (· == 61)).length = padding := by
        rw [hdata]
        exact padding_append hvalues
      have hlength : data.length = values.length + padding := by
        rw [hdata, List.length_append, List.length_map, List.length_replicate]
      have hpayload : data.take (data.length - padding) = values.map digitOf := by
        rw [hlength, Nat.add_sub_cancel, hdata, List.take_left' (List.length_map _)]
      have hnonempty : data ≠ [] := by
        rintro rfl
        exact hne (encode_eq_nil.mp hencode.symm)
      unfold base64
      rw [if_neg (by simp [hnonempty, hlength, hsize]), hpad, if_neg (by omega), hpayload,
        if_neg (by simp [all_digits hvalues])]
      exact (last_check hvalues).mpr hunused
  refine ⟨hiff, fun h => ?_⟩
  obtain ⟨bytes, -, rfl⟩ := hiff.mp h
  rw [decode_encode, Option.map_some]

end

/-! ### Blocks -/

def mimeTypes : List String := ["image/png", "image/jpeg", "image/gif", "image/webp"]

def unsupportedBlock : String := "unsupported native content block (only text/image supported)"

def checkText (block : Value) : Except String Unit := do
  failIf (((block.get "text").bind Value.asStr) = none) "native text requires string text"
  failIf ((block.get "textSignature").any fun v => !v.isNull && v.asStr.isNone)
    "native textSignature must be null or a string"

def checkImage (block : Value) : Except String Unit := do
  let mime ← okOr ((block.get "mimeType").bind Value.asStr) "native image requires mimeType"
  failIf (mime ∉ mimeTypes) "unsupported native image MIME type"
  let data ← okOr ((block.get "data").bind Value.asStr) "native image requires base64 data"
  failIf (base64 (utf8 data) = false) "native image data must be nonempty canonical base64"

/-- A field that is not supported is refused, as it would be lost. -/
def checkKeys (block : Value) (supported : List String) : Except String Unit :=
  match block with
  | .object fields =>
    failIf (fields.any fun field => !supported.contains field.1)
      "unsupported native content block metadata"
  | _ => .ok ()

def checkBlock (block : Value) : Except String Unit :=
  match (block.get "type").bind Value.asStr with
  | some "text" => do
    checkKeys block ["type", "text", "textSignature"]
    checkText block
  | some "image" => do
    checkKeys block ["type", "data", "mimeType"]
    checkImage block
  | _ => .error unsupportedBlock

/-- An array, or the content of a result. -/
def contentOf : Value → Except String Value
  | .array xs => .ok (.array xs)
  | value => okOr (value.get "content")
    "native output requires a result with content or a content array"

def blocks (value : Value) : Except String (List Value) := do
  let value ← contentOf value
  let array ← okOr value.asArray "native content must be an array"
  failIf (maxBlocks < array.length) "native content exceeds 128 blocks"
  failIf (maxJson < value.compactSize) "native content exceeds 1 MiB"
  array.forM checkBlock
  return array

end Codemode
