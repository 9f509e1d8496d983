import Mathlib.Data.List.DropRight
import Mathlib.Data.List.Sort
import RpiPackage.Lib.Binary64
import RpiPackage.Lib.JsonTree

/-!
# Values as a script writes them

Numbers are doubles, and the keys of an object that are indices come first. What a script prints for
a double that is not a whole number of 64 bits is a parameter.
-/

namespace Antigravity.Script

open Json

def isSpace (c : Char) : Bool :=
  let n := c.toNat
  (9 ≤ n && n ≤ 13) || n == 0x20 || n == 0xA0 || n == 0x1680 || (0x2000 ≤ n && n ≤ 0x200A) ||
    n == 0x2028 || n == 0x2029 || n == 0x202F || n == 0x205F || n == 0x3000 || n == 0xFEFF

def trim (s : String) : String :=
  String.ofList ((s.toList.dropWhile isSpace).rdropWhile isSpace)

variable (script : String → String)

/-- The integer with the shortest digits that its double has. -/
def scripted : Int → Int
  | .ofNat n => Binary64.shortest (Binary64.nearest n)
  | .negSucc n => -Binary64.shortest (Binary64.nearest (n + 1))

def number : Number → String
  | .posInt n => toString (scripted n.toNat)
  | .negInt n => toString (scripted n.toInt)
  | .float text => script text

/-- The index that a key is the text of. -/
def arrayIndex (key : String) : Option Nat :=
  let n := Nat.ofDigitChars 10 key.toList 0
  if key.toList.all Char.isDigit && n < 2 ^ 32 - 1 && n.repr == key then some n else none

def before (key key' : String) : Bool :=
  match arrayIndex key, arrayIndex key' with
  | some m, some n => m ≤ n
  | some _, none => true
  | none, some _ => false
  | none, none => true

/-- The fields of an object whose keys are indices come first, in their order. -/
def entries {α : Type} (fields : List (String × α)) : List (String × α) :=
  fields.insertionSort fun p q => before p.1 q.1

mutual
def describe : Value → String
  | .number n => number script n
  | .array xs => "[" ++ ",".intercalate (describeItems xs) ++ "]"
  | .object fields =>
    "\x7b" ++ ",".intercalate ((entries (describeFields fields)).map fun field =>
      Value.quote field.1 ++ ":" ++ field.2) ++ "\x7d"
  | .string s => Value.quote s
  | .null => "null"
  | .bool b => if b then "true" else "false"

def describeItems : List Value → List String
  | [] => []
  | x :: xs => describe x :: describeItems xs

def describeFields : List (String × Value) → List (String × String)
  | [] => []
  | (key, x) :: fields => (key, describe x) :: describeFields fields
end


/-! ### What a description reads as -/

mutual
/-- A value with the fields of its objects in the order they are described in. -/
def ordered : Value → Value
  | .array xs => .array (orderedItems xs)
  | .object fields => .object (entries (orderedFields fields))
  | .null => .null
  | .bool b => .bool b
  | .number n => .number n
  | .string s => .string s

def orderedItems : List Value → List Value
  | [] => []
  | x :: xs => ordered x :: orderedItems xs

def orderedFields : List (String × Value) → List (String × Value)
  | [] => []
  | (key, x) :: fields => (key, ordered x) :: orderedFields fields
end

variable {script}

lemma entries_perm {α : Type} (fields : List (String × α)) : (entries fields).Perm fields :=
  List.perm_insertionSort _ _

lemma entries_map {α β : Type} (g : α → β) (fields : List (String × α)) :
    entries (fields.map fun p => (p.1, g p.2)) = (entries fields).map fun p => (p.1, g p.2) :=
  (List.map_insertionSort (fun p q : String × α => before p.1 q.1) (fun p q : String × β =>
    before p.1 q.1) (fun p => (p.1, g p.2)) fields fun _ _ _ _ => Iff.rfl).symm

lemma describeFields_eq (fields : List (String × Value)) :
    describeFields script fields = fields.map fun p => (p.1, describe script p.2) := by
  induction fields with
  | nil => rfl
  | cons field fields ih => rw [describeFields, ih, List.map_cons]

lemma orderedFields_eq (fields : List (String × Value)) :
    orderedFields fields = fields.map fun p => (p.1, ordered p.2) := by
  induction fields with
  | nil => rfl
  | cons field fields ih => rw [orderedFields, ih, List.map_cons]

lemma toList_fields (number : Number → String) (fields : List (String × String))
    (fields' : List (String × Value))
    (h : List.Forall₂ (fun p q => p.1 = q.1 ∧ p.2.toList = q.2.text number) fields fields') :
    (",".intercalate (fields.map fun field => Value.quote field.1 ++ ":" ++ field.2)).toList =
      Value.textFields number fields' := by
  induction h with
  | nil => rfl
  | @cons p q fields fields' hpq hfields ih =>
    obtain ⟨key, x⟩ := q
    have hempty : fields.map (fun field => Value.quote field.1 ++ ":" ++ field.2) = [] ↔ fields' = [] := by
      cases hfields <;> simp
    rw [List.map_cons, toList_intercalate, ih, Value.textFields]
    simp only [hempty, String.toList_append, hpq.1, hpq.2, List.append_assoc]
    rfl

mutual
/-- A description is the text of the value in order. -/
lemma describe_eq : ∀ v : Value, (describe script v).toList = (ordered v).text (number script)
  | .null => rfl
  | .bool b => rfl
  | .number n => rfl
  | .string s => rfl
  | .array xs => by
    rw [describe, ordered, Value.text, String.toList_append, String.toList_append,
      describeItems_eq xs]
    rfl
  | .object fields => by
    have htexts : List.Forall₂ (fun p q => p.1 = q.1 ∧ p.2.toList = q.2.text (number script))
        (entries (describeFields script fields)) (entries (orderedFields fields)) := by
      rw [describeFields_eq, orderedFields_eq, entries_map, entries_map, List.forall₂_map_left_iff,
        List.forall₂_map_right_iff, List.forall₂_same]
      intro p hp
      exact ⟨rfl, describe_eq_of_mem fields ((entries_perm fields).mem_iff.mp hp)⟩
    rw [describe, ordered, Value.text, String.toList_append, String.toList_append,
      toList_fields _ _ _ htexts]
    rfl

lemma describeItems_eq : ∀ xs : List Value,
    (",".intercalate (describeItems script xs)).toList =
      Value.textItems (number script) (orderedItems xs)
  | [] => rfl
  | x :: xs => by
    have hempty : describeItems script xs = [] ↔ orderedItems xs = [] := by
      cases xs <;> simp [describeItems, orderedItems]
    rw [describeItems, toList_intercalate, describe_eq x, describeItems_eq xs, orderedItems,
      Value.textItems]
    simp only [hempty]

lemma describe_eq_of_mem : ∀ (fields : List (String × Value)) {p : String × Value}, p ∈ fields →
    (describe script p.2).toList = (ordered p.2).text (number script)
  | [], _, hp => nomatch hp
  | (key, x) :: fields, p, hp => by
    rcases List.mem_cons.mp hp with rfl | hp
    · exact describe_eq x
    · exact describe_eq_of_mem fields hp
end

/-! ### The order of fields -/

variable {P : Number → Prop} {f : Number → Number}

lemma mapFields_eq (fields : List (String × Value)) :
    Value.mapFields f fields = fields.map fun p => (p.1, p.2.mapNumbers f) := by
  induction fields with
  | nil => rfl
  | cons field fields ih => rw [Value.mapFields, ih, List.map_cons]

lemma keys_perm (fields : List (String × Value)) :
    ((entries (orderedFields fields)).map Prod.fst).Perm (fields.map Prod.fst) := by
  have hperm := (entries_perm (orderedFields fields)).map Prod.fst
  rw [orderedFields_eq, List.map_map] at hperm
  rw [orderedFields_eq]
  exact hperm

mutual
lemma proper_ordered : ∀ {v : Value}, v.Proper P → (ordered v).Proper P
  | .null, _ | .bool _, _ | .string _, _ => trivial
  | .number _, h => h
  | .array xs, h => properItems_ordered (show Value.ProperItems P xs from h)
  | .object fields, h => by
    refine ⟨(keys_perm fields).nodup_iff.mpr h.1, Value.properFields_iff.mpr ?_⟩
    intro p hp
    have hfields := properFields_ordered h.2
    exact Value.properFields_iff.mp hfields p ((entries_perm _).mem_iff.mp hp)

lemma properItems_ordered : ∀ {xs : List Value}, Value.ProperItems P xs →
    Value.ProperItems P (orderedItems xs)
  | [], _ => trivial
  | _ :: _, h => ⟨proper_ordered h.1, properItems_ordered h.2⟩

lemma properFields_ordered : ∀ {fields : List (String × Value)}, Value.ProperFields P fields →
    Value.ProperFields P (orderedFields fields)
  | [], _ => trivial
  | (_, _) :: _, h => ⟨proper_ordered h.1, properFields_ordered h.2⟩
end

lemma beq_number (n : Number) : n.beq n = true := by
  cases n <;> simp [Number.beq]

mutual
/-- The order of fields makes no difference. -/
lemma beq_ordered : ∀ {v : Value}, v.Proper P →
    ((ordered v).mapNumbers f).beq (v.mapNumbers f) = true
  | .null, _ => rfl
  | .bool b, _ => by simp [ordered, Value.mapNumbers, Value.beq]
  | .string s, _ => by simp [ordered, Value.mapNumbers, Value.beq]
  | .number n, _ => beq_number (f n)
  | .array xs, h => beqItems_ordered (show Value.ProperItems P xs from h)
  | .object fields, h => by
    rw [ordered, Value.mapNumbers, Value.mapNumbers, Value.beq, Bool.and_eq_true, beq_iff_eq,
      mapFields_eq, mapFields_eq]
    constructor
    · rw [List.length_map, List.length_map, (entries_perm _).length_eq, orderedFields_eq,
        List.length_map]
    · apply Value.beqFields_of_lookup
      intro field hfield
      obtain ⟨p, hp, rfl⟩ := List.mem_map.mp hfield
      have hp' := (entries_perm _).mem_iff.mp hp
      rw [orderedFields_eq] at hp'
      obtain ⟨q, hq, rfl⟩ := List.mem_map.mp hp'
      refine ⟨q.2.mapNumbers f, Value.lookup_of_mem ?_ (List.mem_map.mpr ⟨q, hq, rfl⟩),
        beqFields_ordered h.2 hq⟩
      rw [List.map_map]
      exact h.1

lemma beqItems_ordered : ∀ {xs : List Value}, Value.ProperItems P xs →
    Value.beqItems (Value.mapItems f (orderedItems xs)) (Value.mapItems f xs) = true
  | [], _ => rfl
  | x :: xs, h => by
    rw [orderedItems, Value.mapItems, Value.mapItems, Value.beqItems, beq_ordered h.1,
      beqItems_ordered h.2, Bool.true_and]

lemma beqFields_ordered : ∀ {fields : List (String × Value)}, Value.ProperFields P fields →
    ∀ {q : String × Value}, q ∈ fields →
    ((ordered q.2).mapNumbers f).beq (q.2.mapNumbers f) = true
  | [], _, _, hq => nomatch hq
  | (key, x) :: fields, h, q, hq => by
    rcases List.mem_cons.mp hq with rfl | hq
    · exact beq_ordered h.1
    · exact beqFields_ordered h.2 hq
end

/-- A description reads as the value with the numbers that were printed, in another order. -/
lemma parse_describe {double : String → String} {v : Value}
    (hv : v.Proper (Prints double (number script) f)) :
    ∃ w, parse double (describe script v) = some w ∧ w.beq (v.mapNumbers f) = true :=
  ⟨_, parse_text (proper_ordered hv) (describe_eq v), beq_ordered hv⟩

end Antigravity.Script
