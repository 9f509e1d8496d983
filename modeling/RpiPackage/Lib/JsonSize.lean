import Mathlib.Algebra.GroupWithZero.Nat
import Mathlib.Algebra.BigOperators.Group.List.Basic
import Mathlib.Data.String.Basic
import RpiPackage.Lib.JsonLine
import RpiPackage.Lib.Rust

/-!
# Sizes of JSON texts

How many bytes the compact text of a value takes, as a sum over its parts: what a character of a
literal costs, what an array adds to its items, and what an object adds to its fields. A text that is
written as a literal again grows at most to twice its size, and a string to six times.
-/

namespace Json

open Json.Value

def escapeSize (c : Char) : Nat := (escapeChar c).utf8ByteSize

def quoteSize (s : String) : Nat := (quote s).utf8ByteSize

/-- What the commas between so many items and the brackets around them take. -/
def framing (items : Nat) : Nat := items - 1 + 2

/-! ### Texts -/

lemma utf8ByteSize_join (texts : List String) :
    (String.join texts).utf8ByteSize = (texts.map String.utf8ByteSize).sum := by
  induction texts with
  | nil => rfl
  | cons text texts ih => rw [String.join_cons, String.utf8ByteSize_append, ih, List.map_cons,
      List.sum_cons]

lemma utf8ByteSize_eq_sum (s : String) : s.utf8ByteSize = (s.toList.map Char.utf8Size).sum := by
  have hlen : ∀ cs : List Char, String.utf8Len cs = (cs.map Char.utf8Size).sum := by
    intro cs
    induction cs with
    | nil => rfl
    | cons c cs ih => rw [String.utf8Len_cons, ih, List.map_cons, List.sum_cons, Nat.add_comm]
  conv_lhs => rw [← String.ofList_toList (s := s)]
  rw [String.utf8ByteSize_ofList, hlen]

lemma sum_takeBytes_le (n : Nat) (cs : List Char) :
    ((Rust.takeBytes n cs).map Char.utf8Size).sum ≤ n := by
  induction cs generalizing n with
  | nil => exact Nat.zero_le n
  | cons c cs ih =>
    rw [Rust.takeBytes]
    split
    · have hrest := ih (n - c.utf8Size)
      rw [List.map_cons, List.sum_cons]
      omega
    · exact Nat.zero_le n

lemma utf8ByteSize_intercalate (texts : List String) :
    (",".intercalate texts).utf8ByteSize =
      (texts.map String.utf8ByteSize).sum + (texts.length - 1) := by
  induction texts with
  | nil => rfl
  | cons text texts ih =>
    cases texts with
    | nil => simp
    | cons next texts =>
      rw [String.intercalate_cons_cons, String.utf8ByteSize_append, String.utf8ByteSize_append, ih]
      simp only [List.map_cons, List.sum_cons, List.length_cons]
      have hcomma : ",".utf8ByteSize = 1 := rfl
      omega

lemma quoteSize_eq (s : String) : quoteSize s = (s.toList.map escapeSize).sum + 2 := by
  have hquote : "\"".utf8ByteSize = 1 := rfl
  rw [quoteSize, quote, String.utf8ByteSize_append, String.utf8ByteSize_append, utf8ByteSize_join,
    List.map_map, hquote]
  show 1 + (s.toList.map escapeSize).sum + 1 = _
  omega

lemma escapeSize_le_of_printable {c : Char} (h : 32 ≤ c.toNat) :
    escapeSize c ≤ 2 * c.utf8Size := by
  have hpos := c.utf8Size_pos
  have hshort : ∀ text : String, text.utf8ByteSize = 2 → text.utf8ByteSize ≤ 2 * c.utf8Size := by
    intro text htext
    omega
  unfold escapeSize escapeChar
  split
  · exact hshort _ rfl
  split
  · exact hshort _ rfl
  split
  · exact hshort _ rfl
  split
  · exact hshort _ rfl
  split
  · exact hshort _ rfl
  split
  · exact hshort _ rfl
  split
  · exact hshort _ rfl
  split
  · omega
  · rw [utf8ByteSize_eq_sum, Char.toString_eq_singleton, String.toList_singleton]
    show c.utf8Size + 0 ≤ _
    omega

lemma escapeSize_le (c : Char) : escapeSize c ≤ 6 * c.utf8Size := by
  have hpos := c.utf8Size_pos
  by_cases h : 32 ≤ c.toNat
  · exact (escapeSize_le_of_printable h).trans (Nat.mul_le_mul_right _ (by decide))
  · have hall : ((List.range 32).all fun n => escapeSize (Char.ofNat n) ≤ 6) = true := by
      decide +kernel
    have hsmall := List.all_eq_true.mp hall c.toNat (List.mem_range.mpr (by omega))
    rw [Char.ofNat_toNat] at hsmall
    have := of_decide_eq_true hsmall
    omega

lemma sum_map_le_mul {α : Type*} {f g : α → Nat} {k : Nat} {xs : List α}
    (h : ∀ x ∈ xs, f x ≤ k * g x) : (xs.map f).sum ≤ k * (xs.map g).sum := by
  induction xs with
  | nil => simp
  | cons x xs ih =>
    have hx := h x List.mem_cons_self
    have hxs := ih fun y hy => h y (List.mem_cons_of_mem _ hy)
    rw [List.map_cons, List.sum_cons, List.map_cons, List.sum_cons, Nat.mul_add]
    exact Nat.add_le_add hx hxs

lemma quoteSize_le (s : String) : quoteSize s ≤ 6 * s.utf8ByteSize + 2 := by
  rw [quoteSize_eq, utf8ByteSize_eq_sum]
  exact Nat.add_le_add_right (sum_map_le_mul fun c _ => escapeSize_le c) 2

lemma quoteSize_le_of_printable {s : String} (h : ∀ c ∈ s.toList, 32 ≤ c.toNat) :
    quoteSize s ≤ 2 * s.utf8ByteSize + 2 := by
  rw [quoteSize_eq, utf8ByteSize_eq_sum]
  exact Nat.add_le_add_right (sum_map_le_mul fun c hc => escapeSize_le_of_printable (h c hc)) 2

/-! ### Values -/

namespace Value

lemma compactItems_eq (xs : List Value) : compactItems xs = xs.map compact := by
  induction xs with
  | nil => rfl
  | cons x xs ih => rw [compactItems, ih, List.map_cons]

lemma compactFields_eq (fields : List (String × Value)) :
    compactFields fields = fields.map fun field => quote field.1 ++ ":" ++ compact field.2 := by
  induction fields with
  | nil => rfl
  | cons field fields ih => rw [compactFields, ih, List.map_cons]

@[simp] lemma compactSize_null : compactSize .null = 4 := rfl

lemma compactSize_bool_le (b : Bool) : compactSize (.bool b) ≤ 5 := by
  cases b <;> decide

@[simp] lemma compactSize_string (s : String) : compactSize (.string s) = quoteSize s := rfl

lemma compactSize_array (xs : List Value) :
    compactSize (.array xs) = (xs.map compactSize).sum + framing xs.length := by
  have hopen : "[".utf8ByteSize = 1 := rfl
  have hclose : "]".utf8ByteSize = 1 := rfl
  rw [compactSize, compact, String.utf8ByteSize_append, String.utf8ByteSize_append,
    utf8ByteSize_intercalate, compactItems_eq, List.map_map, List.length_map, hopen, hclose]
  show 1 + ((xs.map compactSize).sum + (xs.length - 1)) + 1 = _
  unfold framing
  omega

/-- What a field takes: its name, a colon and its value. -/
def fieldSize (field : String × Value) : Nat := quoteSize field.1 + 1 + compactSize field.2

lemma compactSize_object (fields : List (String × Value)) :
    compactSize (.object fields) = (fields.map fieldSize).sum + framing fields.length := by
  have hopen : "\x7b".utf8ByteSize = 1 := rfl
  have hclose : "\x7d".utf8ByteSize = 1 := rfl
  have hcolon : ":".utf8ByteSize = 1 := rfl
  have hfield : String.utf8ByteSize ∘ (fun field : String × Value =>
      quote field.1 ++ ":" ++ compact field.2) = fieldSize := by
    funext field
    rw [Function.comp_apply, String.utf8ByteSize_append, String.utf8ByteSize_append, hcolon]
    rfl
  rw [compactSize, compact, String.utf8ByteSize_append, String.utf8ByteSize_append,
    utf8ByteSize_intercalate, compactFields_eq, List.map_map, hfield, List.length_map, hopen,
    hclose]
  unfold framing
  omega

lemma fieldSize_le {fields : List (String × Value)} {field : String × Value}
    (h : field ∈ fields) : fieldSize field ≤ (fields.map fieldSize).sum := by
  induction fields with
  | nil => cases h
  | cons first fields ih =>
    rw [List.map_cons, List.sum_cons]
    rcases List.mem_cons.mp h with rfl | h
    · exact Nat.le_add_right _ _
    · exact (ih h).trans (Nat.le_add_left _ _)

lemma compactSize_field_le {fields : List (String × Value)} {field : String × Value}
    (h : field ∈ fields) : field.2.compactSize ≤ (object fields).compactSize := by
  have hle := fieldSize_le h
  rw [compactSize_object]
  unfold fieldSize at hle ⊢
  omega

lemma compactSize_get_le {value v : Value} {key : String} (h : value.get key = some v) :
    v.compactSize ≤ value.compactSize := by
  cases value with
  | object fields =>
    obtain ⟨field, hmem, hfield⟩ : ∃ field ∈ fields, field.2 = v := by
      change fields.lookup key = some v at h
      induction fields with
      | nil => cases h
      | cons field fields ih =>
        rw [List.lookup_cons] at h
        split at h
        · exact ⟨field, List.mem_cons_self, Option.some.inj h⟩
        · obtain ⟨field, hmem, hfield⟩ := ih h
          exact ⟨field, List.mem_cons_of_mem _ hmem, hfield⟩
    rw [← hfield]
    exact compactSize_field_le hmem
  | null | bool | number | string | array => cases h

/-- The text of a value as a literal: it has no character that takes more than two. -/
lemma quoteSize_compact {v : Value} (h : v.Plain) :
    quoteSize v.compact ≤ 2 * v.compactSize + 2 := by
  apply quoteSize_le_of_printable
  intro c hc
  by_contra hlt
  exact control_not_mem_compact (Nat.lt_of_not_le hlt) h hc

end Value

end Json
