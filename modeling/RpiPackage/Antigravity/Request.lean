import RpiPackage.Antigravity.Json

/-!
# Request bodies

The body that is sent for a prepared request, and what it reads as: its integers went through
doubles, so that those of more than 53 bits may come out as others with the same double.
-/

namespace Antigravity

open Json Script

structure PreparedRequest where
  wireModel : String
  requestId : String
  request : Value

/-- What a body tells, with the request in it. -/
def PreparedRequest.envelope (p : PreparedRequest) (projectId : String) (request : Value) : Value :=
  .object [("project", .string projectId), ("requestId", .string p.requestId), ("request", request),
    ("model", .string p.wireModel), ("userAgent", .string "antigravity"),
    ("requestType", .string "agent")]

def PreparedRequest.body (script : String → String) (p : PreparedRequest) (projectId : String) :
    String :=
  describe script (p.envelope projectId p.request)

/-! ### Integers -/

/-- An integer of 64 bits; those without a sign are held apart. -/
def IsInteger : Number → Prop
  | .posInt _ => True
  | .negInt n => n.toInt < 0
  | .float _ => False

/-- An integer of at most 53 bits. -/
def IsExact : Number → Prop
  | .posInt n => n.toNat ≤ 2 ^ 53
  | .negInt n => n.toInt < 0 ∧ -2 ^ 53 ≤ n.toInt
  | .float _ => False

def integer (double : String → String) : Int → Number
  | .ofNat n => natural double n
  | .negSucc n => negative double (n + 1)

/-- The number that is read where a number was printed. -/
def reread (double : String → String) : Number → Number
  | .posInt n => integer double (scripted n.toNat)
  | .negInt n => integer double (scripted n.toInt)
  | .float text => .float text

variable {script double : String → String}

lemma isNumeric_toDigits {n : Nat} {c : Char} (h : c ∈ Nat.toDigits 10 n) : isNumeric c = true := by
  rw [isNumeric, Nat.isDigit_of_mem_toDigits (by decide) (by decide) h, Bool.true_or]

lemma readNumber_toString (m : Int) :
    readNumber double (toString m).toList = some (integer double m) ∧
      ∀ c ∈ (toString m).toList, isNumeric c = true := by
  cases m with
  | ofNat n =>
    have htext : (toString (Int.ofNat n)).toList = Nat.toDigits 10 n := Nat.toList_repr
    rw [htext]
    exact ⟨readNumber_natural n, fun c hc => isNumeric_toDigits hc⟩
  | negSucc n =>
    rw [Decimal.toList_negSucc]
    refine ⟨readNumber_negative (n + 1), fun c hc => ?_⟩
    rcases List.mem_cons.mp hc with rfl | hc
    · decide
    · exact isNumeric_toDigits hc

lemma prints_number {n : Number} (h : IsInteger n) :
    Prints double (number script) (reread double) n := by
  cases n with
  | posInt n => exact readNumber_toString _
  | negInt n => exact readNumber_toString _
  | float text => exact absurd h id

lemma scripted_of_natAbs_le {m : Int} (h : m.natAbs ≤ 2 ^ 53) : scripted m = m := by
  cases m with
  | ofNat n => exact congrArg Int.ofNat (Binary64.shortest_nearest h)
  | negSucc n =>
    show -((Binary64.shortest (Binary64.nearest (n + 1)) : Nat) : Int) = _
    rw [@Binary64.shortest_nearest (n + 1) h]
    rfl

lemma reread_of_isExact {n : Number} (h : IsExact n) : reread double n = n := by
  cases n with
  | posInt n =>
    have hle : n.toNat ≤ 2 ^ 53 := h
    rw [reread, scripted_of_natAbs_le (by simpa using hle)]
    show natural double n.toNat = _
    rw [natural, if_pos n.toNat_lt, UInt64.ofNat_toNat]
  | negInt n =>
    obtain ⟨hneg, hlow⟩ := h
    rw [reread, scripted_of_natAbs_le (by omega)]
    obtain ⟨k, hk⟩ : ∃ k : Nat, n.toInt = Int.negSucc k := Int.eq_negSucc_of_lt_zero hneg
    have hbound : k + 1 ≤ 2 ^ 53 := by omega
    have hvalue : -((k + 1 : Nat) : Int) = n.toInt := by
      rw [hk]
      rfl
    rw [hk]
    show negative double (k + 1) = _
    rw [negative, if_pos ⟨Nat.succ_pos k, Nat.le_trans hbound (by decide)⟩, hvalue, Int64.ofInt_toInt]
  | float text => exact absurd h id

mutual
lemma mapNumbers_of_proper {f : Number → Number} {P : Number → Prop} (hf : ∀ n, P n → f n = n) :
    ∀ {v : Value}, v.Proper P → v.mapNumbers f = v
  | .null, _ | .bool _, _ | .string _, _ => rfl
  | .number n, h => congrArg Value.number (hf n h)
  | .array _, h => congrArg Value.array (mapItems_of_proper hf h)
  | .object _, h => congrArg Value.object (mapFields_of_proper hf h.2)

lemma mapItems_of_proper {f : Number → Number} {P : Number → Prop} (hf : ∀ n, P n → f n = n) :
    ∀ {xs : List Value}, Value.ProperItems P xs → Value.mapItems f xs = xs
  | [], _ => rfl
  | x :: xs, h => by
    rw [Value.mapItems, mapNumbers_of_proper hf h.1, mapItems_of_proper hf h.2]

lemma mapFields_of_proper {f : Number → Number} {P : Number → Prop} (hf : ∀ n, P n → f n = n) :
    ∀ {fields : List (String × Value)}, Value.ProperFields P fields → Value.mapFields f fields = fields
  | [], _ => rfl
  | (key, x) :: fields, h => by
    rw [Value.mapFields, mapNumbers_of_proper hf h.1, mapFields_of_proper hf h.2]
end

/-- What is printed for an integer has its sign and its double. -/
lemma nearest_scripted (m : Int) :
    Binary64.nearest (scripted m).natAbs = Binary64.nearest m.natAbs ∧
      (scripted m < 0 ↔ m < 0) := by
  cases m with
  | ofNat n =>
    refine ⟨Binary64.nearest_shortest n, ?_⟩
    show ((Binary64.shortest (Binary64.nearest n) : Nat) : Int) < 0 ↔ (n : Int) < 0
    omega
  | negSucc n =>
    have hsame := Binary64.nearest_shortest (n + 1)
    have hpos : Binary64.shortest (Binary64.nearest (n + 1)) ≠ 0 := by
      intro hzero
      rw [hzero] at hsame
      exact absurd (Binary64.eq_zero_of_nearest hsame.symm) (Nat.succ_ne_zero n)
    show Binary64.nearest (-((Binary64.shortest (Binary64.nearest (n + 1)) : Nat) : Int)).natAbs = _ ∧
      (-((Binary64.shortest (Binary64.nearest (n + 1)) : Nat) : Int) < 0 ↔ Int.negSucc n < 0)
    rw [Int.natAbs_neg, Int.natAbs_natCast]
    exact ⟨hsame, by omega⟩

namespace PreparedRequest

/-- A body reads as what was prepared, up to the order of keys, with the integers that a script
prints for those of the request: the same ones up to 53 bits, and ones with the same double
beyond. -/
theorem parse_body (script double : String → String) (p : PreparedRequest) (projectId : String)
    (h : p.request.Proper IsInteger) :
    (∃ w, parse double (p.body script projectId) = some w ∧
      w.beq (p.envelope projectId (p.request.mapNumbers (reread double))) = true) ∧
    (p.request.Proper IsExact → p.request.mapNumbers (reread double) = p.request) ∧
    ∀ m : Int, Binary64.nearest (scripted m).natAbs = Binary64.nearest m.natAbs ∧
      (scripted m < 0 ↔ m < 0) := by
  refine ⟨?_, mapNumbers_of_proper fun n => reread_of_isExact, nearest_scripted⟩
  have hproper : (p.envelope projectId p.request).Proper
      (Prints double (number script) (reread double)) := by
    refine ⟨?_, trivial, trivial, Value.proper_mono (fun n => prints_number) h, trivial, trivial, trivial,
      trivial⟩
    show ["project", "requestId", "request", "model", "userAgent", "requestType"].Nodup
    decide
  exact parse_describe hproper

/-- Keys that are indices, and integers at the ends of their ranges. -/
theorem parse_body_of_integers :
    let p : PreparedRequest := ⟨"gemini", "agent/1", .object [("b", .array [.number (.posInt
      18446744073709551615), .number (.negInt (-9007199254740992)), .null]), ("10", .string "\n"),
      ("9", .bool true)]⟩
    ∃ w, parse id (p.body id "project") = some w ∧
      w.beq (p.envelope "project" (p.request.mapNumbers (reread id))) = true := by
  intro p
  have hneg : IsInteger (.negInt (-9007199254740992)) := by
    show Int64.toInt _ < 0
    decide
  have hproper : p.request.Proper IsInteger :=
    ⟨by decide, ⟨trivial, hneg, trivial, trivial⟩, trivial, trivial, trivial⟩
  exact (parse_body id id p "project" hproper).1

/-- An integer of 54 bits comes out as the one before it. -/
theorem parse_body_of_large_integer :
    let p : PreparedRequest := ⟨"gemini", "agent/1",
      .object [("n", .number (.posInt 9007199254740993))]⟩
    p.request.Proper IsInteger ∧
      ¬∃ w, parse id (p.body id "project") = some w ∧ w.beq (p.envelope "project" p.request) = true := by
  intro p
  refine ⟨⟨by decide, trivial, trivial⟩, ?_⟩
  have hbody : (parse id (p.body id "project")).map (fun w => w.beq (p.envelope "project" p.request)) =
      some false := by
    decide +kernel
  rintro ⟨w, hw, hbeq⟩
  rw [hw, Option.map_some, hbeq] at hbody
  cases hbody

end PreparedRequest

end Antigravity
