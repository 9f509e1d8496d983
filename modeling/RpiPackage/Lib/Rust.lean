import Mathlib.Algebra.Group.Int.Defs
import Mathlib.Algebra.Group.Nat.Defs
import Mathlib.Data.List.Basic
import Mathlib.Data.List.DropRight
import Mathlib.Data.List.SplitOn
import Mathlib.Tactic.Common

/-!
# Rust's standard library

The operations of `str`, of the unsigned integers and of slices that a translated program calls,
with the facts about them that its proofs use.
-/

namespace Rust

/-! ### Strings -/

/-- The characters with the Unicode property `White_Space`. -/
def isWhitespace (c : Char) : Bool :=
  let n := c.toNat
  (9 ≤ n && n ≤ 13) || n == 0x20 || n == 0x85 || n == 0xA0 || n == 0x1680
    || (0x2000 ≤ n && n ≤ 0x200A) || n == 0x2028 || n == 0x2029 || n == 0x202F || n == 0x205F
    || n == 0x3000

/-- `char::is_control`, the Unicode category `Cc`. -/
def isControl (c : Char) : Bool :=
  let n := c.toNat
  n < 0x20 || (0x7F ≤ n && n ≤ 0x9F)

def trimChars (cs : List Char) : List Char :=
  (cs.dropWhile isWhitespace).rdropWhile isWhitespace

/-- `str::trim`. -/
def trim (s : String) : String := String.ofList (trimChars s.toList)

/-- `s.chars().take(n).collect()`. -/
def takeChars (s : String) (n : Nat) : String := String.ofList (s.toList.take n)

/-- `str::starts_with`. -/
def startsWith (s p : String) : Bool := p.toList.isPrefixOf s.toList

/-- `str::strip_prefix`. -/
def stripPrefix (s p : String) : Option String :=
  if p.toList.isPrefixOf s.toList then some (String.ofList (s.toList.drop p.length)) else none

/-- What is left of a string without its prefix is what the prefix was extended by. -/
lemma stripPrefix_eq_some {s p suffix : String} : stripPrefix s p = some suffix ↔ s = p ++ suffix := by
  simp only [stripPrefix, List.isPrefixOf_iff_prefix, ← String.toList_inj, String.toList_append]
  constructor
  · intro h
    split at h
    · rename_i hprefix
      obtain ⟨rest, hrest⟩ := hprefix
      obtain rfl := Option.some.inj h
      rw [← hrest, ← String.length_toList, List.drop_left, String.toList_ofList]
    · cases h
  · intro h
    rw [if_pos ⟨_, h.symm⟩, h, ← String.length_toList, List.drop_left, String.ofList_toList]

lemma stripPrefix_append (p suffix : String) : stripPrefix (p ++ suffix) p = some suffix :=
  stripPrefix_eq_some.mpr rfl

lemma startsWith_iff {s p : String} : startsWith s p = true ↔ ∃ suffix, s = p ++ suffix := by
  rw [startsWith, List.isPrefixOf_iff_prefix]
  constructor
  · rintro ⟨rest, hrest⟩
    exact ⟨String.ofList rest, by rw [← String.toList_inj]; simp [hrest]⟩
  · rintro ⟨suffix, rfl⟩
    exact ⟨suffix.toList, by simp⟩

lemma trimChars_eq_nil {cs : List Char} :
    trimChars cs = [] ↔ ∀ c ∈ cs, isWhitespace c = true := by
  rw [trimChars, List.rdropWhile_eq_nil_iff]
  constructor
  · intro h
    by_contra hcs
    have hne : cs.dropWhile isWhitespace ≠ [] := fun hnil =>
      hcs (List.dropWhile_eq_nil_iff.mp hnil)
    have hhead := List.head_dropWhile_not isWhitespace hne
    simp [h _ (List.head_mem hne)] at hhead
  · intro h c hc
    exact h c ((List.dropWhile_sublist _).mem hc)

/-- What is left after trimming ends in a character that is not white space. -/
lemma trimChars_trimChars_ne_nil {cs : List Char} (h : trimChars cs ≠ []) :
    trimChars (trimChars cs) ≠ [] := by
  have hlast := List.rdropWhile_last_not isWhitespace _ h
  rw [Ne, trimChars_eq_nil]
  exact fun hall => hlast (hall _ (List.getLast_mem h))

lemma trim_eq_empty {s : String} : trim s = "" ↔ trimChars s.toList = [] := by
  rw [trim, ← String.toList_inj]
  simp

lemma trim_trim_ne_empty {s : String} (h : trim s ≠ "") : trim (trim s) ≠ "" := by
  rw [Ne, trim_eq_empty] at h ⊢
  simpa [trim] using trimChars_trimChars_ne_nil h

lemma trim_append_ne_empty {s : String} (h : trim s ≠ "") (t : String) : trim (s ++ t) ≠ "" := by
  rw [Ne, trim_eq_empty, trimChars_eq_nil] at h ⊢
  intro hall
  refine h fun c hc => hall c ?_
  rw [String.toList_append]
  exact List.mem_append_left _ hc

@[simp] lemma length_takeChars (s : String) (n : Nat) :
    (takeChars s n).length = min n s.length := by
  simp [takeChars, ← String.length_toList]

lemma trimChars_trimChars (cs : List Char) : trimChars (trimChars cs) = trimChars cs := by
  have htail := List.rdropWhile_prefix isWhitespace (cs.dropWhile isWhitespace)
  have hdrop : (trimChars cs).dropWhile isWhitespace = trimChars cs := by
    rw [List.dropWhile_eq_self_iff]
    intro hpos
    have hlen := htail.length_le
    have hnot := List.dropWhile_get_zero_not isWhitespace cs (Nat.lt_of_lt_of_le hpos hlen)
    have hlt := Nat.lt_of_lt_of_le hpos hlen
    have hget : (trimChars cs)[0] = (cs.dropWhile isWhitespace)[0] :=
      htail.getElem hpos
    rw [hget]
    exact hnot
  rw [trimChars, hdrop]
  exact List.rdropWhile_idempotent _ _

lemma trim_trim (s : String) : trim (trim s) = trim s := by
  rw [trim, trim, String.toList_ofList, trimChars_trimChars]

/-- `str::eq_ignore_ascii_case`. -/
def eqIgnoreAsciiCase (s t : String) : Bool := s.toList.map Char.toLower == t.toList.map Char.toLower

/-- `str::split_whitespace`. -/
def splitWhitespace (s : String) : List String :=
  ((s.toList.splitOnP isWhitespace).filter fun word => !word.isEmpty).map String.ofList

/-- `char::is_ascii_alphanumeric`. -/
def isAsciiAlphanumeric (c : Char) : Bool :=
  ('0' ≤ c && c ≤ '9') || ('A' ≤ c && c ≤ 'Z') || ('a' ≤ c && c ≤ 'z')

/-! ### Integers -/

/-- The text of a number under the format `x`. -/
def lowerHex (n : Nat) : String := String.ofList (Nat.toDigits 16 n)

lemma mem_toDigits_sixteen {n : Nat} {c : Char} (hc : c ∈ Nat.toDigits 16 n) :
    ∃ d < 16, c = Nat.digitChar d := by
  induction n using Nat.strongRecOn with
  | ind n ih =>
    rw [Nat.toDigits_eq_if (by decide)] at hc
    split at hc
    · exact ⟨n, ‹_›, List.mem_singleton.mp hc⟩
    · rcases List.mem_append.mp hc with h | h
      · exact ih (n / 16) (by omega) h
      · exact ⟨n % 16, by omega, List.mem_singleton.mp h⟩

lemma isAsciiAlphanumeric_of_mem_lowerHex {n : Nat} {c : Char} (hc : c ∈ (lowerHex n).toList) :
    isAsciiAlphanumeric c = true := by
  rw [lowerHex, String.toList_ofList] at hc
  obtain ⟨d, hd, rfl⟩ := mem_toDigits_sixteen hc
  exact (by decide : ∀ d < 16, isAsciiAlphanumeric (Nat.digitChar d) = true) d hd

/-- `u64::checked_add(1)`. -/
def checkedSucc (n : UInt64) : Option UInt64 :=
  if n.toNat + 1 < 2 ^ 64 then some (n + 1) else none

/-- `u64::saturating_add(1)`. -/
def saturatingSucc (n : UInt64) : UInt64 :=
  if n.toNat + 1 < 2 ^ 64 then n + 1 else n

/-- `u32::saturating_add(1)`. -/
def saturatingSucc32 (n : UInt32) : UInt32 :=
  if n.toNat + 1 < 2 ^ 32 then n + 1 else n

/-- `i64::saturating_add`. -/
def saturatingAdd (m n : Int64) : Int64 :=
  let sum := m.toInt + n.toInt
  if sum < Int64.minValue.toInt then .minValue
  else if Int64.maxValue.toInt < sum then .maxValue
  else m + n

/-- `i64::saturating_mul`. -/
def saturatingMul (m n : Int64) : Int64 := Int64.ofIntClamp (m.toInt * n.toInt)

def parseDigits (cs : List Char) : Option Nat :=
  if cs ≠ [] ∧ cs.all Char.isDigit = true then some (Nat.ofDigitChars 10 cs 0) else none

/-- `str::parse::<i64>`. -/
def parseI64 : List Char → Option Int64
  | '-' :: cs => ((parseDigits cs).filter (· ≤ 2 ^ 63)).map fun n : Nat => Int64.ofInt (-n)
  | '+' :: cs => ((parseDigits cs).filter (· < 2 ^ 63)).map Int64.ofNat
  | cs => ((parseDigits cs).filter (· < 2 ^ 63)).map Int64.ofNat

lemma checkedSucc_eq_some {n m : UInt64} : checkedSucc n = some m ↔ m.toNat = n.toNat + 1 := by
  unfold checkedSucc
  have hm := m.toNat_lt
  split
  · rename_i h
    have hn : (n + 1).toNat = n.toNat + 1 := by
      rw [UInt64.toNat_add]
      simp
      omega
    rw [Option.some.injEq, ← UInt64.toNat_inj, hn]
    omega
  · simp
    omega

lemma le_saturatingSucc (n : UInt64) : n ≤ saturatingSucc n := by
  unfold saturatingSucc
  split
  · rename_i h
    rw [UInt64.le_iff_toNat_le, UInt64.toNat_add]
    simp
    omega
  · exact UInt64.le_refl n

lemma toNat_max (n m : UInt64) : (max n m).toNat = max n.toNat m.toNat := by
  by_cases h : n ≤ m
  · rw [show max n m = m from if_pos h, Nat.max_eq_right (UInt64.le_iff_toNat_le.mp h)]
  · rw [show max n m = n from if_neg h]
    rw [UInt64.le_iff_toNat_le] at h
    omega

lemma toNat_max32 (n m : UInt32) : (max n m).toNat = max n.toNat m.toNat := by
  by_cases h : n ≤ m
  · rw [show max n m = m from if_pos h, Nat.max_eq_right (UInt32.le_iff_toNat_le.mp h)]
  · rw [show max n m = n from if_neg h]
    rw [UInt32.le_iff_toNat_le] at h
    omega

lemma le_max_left (m n : UInt64) : m ≤ max m n := by
  rw [UInt64.le_iff_toNat_le, toNat_max]
  omega

lemma le_max_right (m n : UInt64) : n ≤ max m n := by
  rw [UInt64.le_iff_toNat_le, toNat_max]
  omega

lemma max_eq_left {m n : UInt64} (h : n ≤ m) : max m n = m := by
  rw [UInt64.le_iff_toNat_le] at h
  rw [← UInt64.toNat_inj, toNat_max]
  omega

/-- Below the last value a time is before the next. -/
lemma lt_succ64 {n : Int64} (h : n ≠ Int64.maxValue) : n < n + 1 := by
  have hlt : n.toInt < 2 ^ 63 - 1 := by
    have hmax : Int64.maxValue.toInt = 2 ^ 63 - 1 := by decide
    rcases Int.lt_or_eq_of_le (Int64.toInt_le n) with hlt | heq
    · omega
    · exact absurd (Int64.toInt_inj.mp (heq.trans hmax.symm)) h
  have hge := Int64.le_toInt n
  rw [Int64.lt_iff_toInt_lt, Int64.toInt_add]
  show _ < Int.bmod (n.toInt + 1) (2 ^ 64)
  rw [Int.bmod_eq_of_le] <;> omega

lemma le_max_right64 (m n : Int64) : n ≤ max m n := by
  show n ≤ if m ≤ n then n else m
  split
  · exact Int64.le_refl n
  · rename_i h
    rw [Int64.le_iff_toInt_le] at h ⊢
    omega

lemma toNat_saturatingSucc (n : UInt64) :
    (saturatingSucc n).toNat = min (n.toNat + 1) (2 ^ 64 - 1) := by
  unfold saturatingSucc
  have := n.toNat_lt
  split
  · rw [UInt64.toNat_add]
    simp
    omega
  · omega

lemma toNat_saturatingSucc32 (n : UInt32) :
    (saturatingSucc32 n).toNat = min (n.toNat + 1) (2 ^ 32 - 1) := by
  unfold saturatingSucc32
  have := n.toNat_lt
  split
  · rw [UInt32.toNat_add]
    simp
    omega
  · omega

/-- The `i64` that is nearest to an integer. -/
def clamp64 (n : Int) : Int := max (-2 ^ 63) (min n (2 ^ 63 - 1))

lemma toInt_ofIntClamp (n : Int) : (Int64.ofIntClamp n).toInt = clamp64 n := by
  have hmin : Int64.minValue.toInt = -2 ^ 63 := rfl
  have hmax : Int64.maxValue.toInt = 2 ^ 63 - 1 := rfl
  unfold Int64.ofIntClamp clamp64
  split
  · split
    · rw [Int64.toInt_ofIntLE]
      omega
    · omega
  · omega

lemma toInt_saturatingAdd (m n : Int64) :
    (saturatingAdd m n).toInt = clamp64 (m.toInt + n.toInt) := by
  have hmin : Int64.minValue.toInt = -2 ^ 63 := rfl
  have hmax : Int64.maxValue.toInt = 2 ^ 63 - 1 := rfl
  unfold saturatingAdd clamp64
  dsimp only
  split
  · omega
  split
  · omega
  · rw [Int64.toInt_add, Int.bmod_eq_of_le] <;> omega

lemma toInt_saturatingMul (m n : Int64) :
    (saturatingMul m n).toInt = clamp64 (m.toInt * n.toInt) :=
  toInt_ofIntClamp _

/-- A decimal number with an optional sign. -/
def IsInteger (cs : List Char) (n : Int) : Prop :=
  ∃ digits, digits ≠ [] ∧ (∀ c ∈ digits, c.isDigit = true) ∧
    ((cs = '-' :: digits ∧ n = -Nat.ofDigitChars 10 digits 0) ∨
      ((cs = '+' :: digits ∨ cs = digits) ∧ n = Nat.ofDigitChars 10 digits 0))

lemma parseDigits_eq_some {cs : List Char} {n : Nat} :
    parseDigits cs = some n ↔
      (cs ≠ [] ∧ ∀ c ∈ cs, c.isDigit = true) ∧ Nat.ofDigitChars 10 cs 0 = n := by
  unfold parseDigits
  rw [Option.ite_none_right_eq_some, List.all_eq_true, Option.some.injEq]

lemma parseI64_eq_some {cs : List Char} {m : Int64} :
    parseI64 cs = some m ↔ IsInteger cs m.toInt := by
  have hle := m.toInt_lt
  have hge := m.le_toInt
  have hneg : ∀ ds, ((parseDigits ds).filter (· ≤ 2 ^ 63)).map (fun n : Nat => Int64.ofInt (-n)) = some m ↔
      (ds ≠ [] ∧ ∀ c ∈ ds, c.isDigit = true) ∧ m.toInt = -Nat.ofDigitChars 10 ds 0 := by
    intro ds
    rw [Option.map_eq_some_iff]
    constructor
    · rintro ⟨n, hn, rfl⟩
      obtain ⟨hn, hle⟩ := Option.mem_filter_iff.mp hn
      obtain ⟨hdigits, rfl⟩ := parseDigits_eq_some.mp hn
      have hle := of_decide_eq_true hle
      exact ⟨hdigits, Int64.toInt_ofInt_of_le (by omega) (by omega)⟩
    · rintro ⟨hdigits, hm⟩
      refine ⟨Nat.ofDigitChars 10 ds 0, Option.mem_filter_iff.mpr
        ⟨parseDigits_eq_some.mpr ⟨hdigits, rfl⟩, decide_eq_true (by omega)⟩, ?_⟩
      rw [← hm, Int64.ofInt_toInt]
  have hpos : ∀ ds, ((parseDigits ds).filter (· < 2 ^ 63)).map Int64.ofNat = some m ↔
      (ds ≠ [] ∧ ∀ c ∈ ds, c.isDigit = true) ∧ m.toInt = Nat.ofDigitChars 10 ds 0 := by
    intro ds
    rw [Option.map_eq_some_iff]
    constructor
    · rintro ⟨n, hn, rfl⟩
      obtain ⟨hn, hlt⟩ := Option.mem_filter_iff.mp hn
      obtain ⟨hdigits, rfl⟩ := parseDigits_eq_some.mp hn
      exact ⟨hdigits, Int64.toInt_ofNat_of_lt (of_decide_eq_true hlt)⟩
    · rintro ⟨hdigits, hm⟩
      refine ⟨Nat.ofDigitChars 10 ds 0, Option.mem_filter_iff.mpr
        ⟨parseDigits_eq_some.mpr ⟨hdigits, rfl⟩, decide_eq_true (by omega)⟩, ?_⟩
      rw [← Int64.toInt_inj, Int64.toInt_ofNat_of_lt (by omega), hm]
  have hsign : ∀ {ds : List Char}, (∀ c ∈ ds, c.isDigit = true) → ∀ c, c.isDigit = false → ∀ cs,
      ds ≠ c :: cs := by
    rintro ds hds c hc cs rfl
    exact absurd (hds c List.mem_cons_self) (by rw [hc]; exact Bool.false_ne_true)
  unfold parseI64
  split
  · next ds =>
    rw [hneg]
    constructor
    · rintro ⟨hdigits, hm⟩
      exact ⟨ds, hdigits.1, hdigits.2, .inl ⟨rfl, hm⟩⟩
    · rintro ⟨digits, hne, hdigits, ⟨heq, hm⟩ | ⟨heq | heq, hm⟩⟩
      · obtain rfl := (List.cons.inj heq).2
        exact ⟨⟨hne, hdigits⟩, hm⟩
      · exact absurd (List.cons.inj heq).1 (by decide)
      · exact absurd heq.symm (hsign hdigits '-' (by decide) ds)
  · next ds =>
    rw [hpos]
    constructor
    · rintro ⟨hdigits, hm⟩
      exact ⟨ds, hdigits.1, hdigits.2, .inr ⟨.inl rfl, hm⟩⟩
    · rintro ⟨digits, hne, hdigits, ⟨heq, hm⟩ | ⟨heq | heq, hm⟩⟩
      · exact absurd (List.cons.inj heq).1 (by decide)
      · obtain rfl := (List.cons.inj heq).2
        exact ⟨⟨hne, hdigits⟩, hm⟩
      · exact absurd heq.symm (hsign hdigits '+' (by decide) ds)
  · next hminus hplus =>
    rw [hpos]
    constructor
    · rintro ⟨hdigits, hm⟩
      exact ⟨cs, hdigits.1, hdigits.2, .inr ⟨.inr rfl, hm⟩⟩
    · rintro ⟨digits, hne, hdigits, ⟨heq, hm⟩ | ⟨heq | heq, hm⟩⟩
      · exact absurd heq (hminus digits)
      · exact absurd heq (hplus digits)
      · exact ⟨⟨heq ▸ hne, heq ▸ hdigits⟩, heq ▸ hm⟩

/-- The longest prefix of at most `n` bytes that ends on a character boundary. -/
def takeBytes (n : Nat) : List Char → List Char
  | [] => []
  | c :: cs => if c.utf8Size ≤ n then c :: takeBytes (n - c.utf8Size) cs else []

/-! ### Slices -/

/-- `iter_mut().find(p)` followed by an update that may refuse the element it found. -/
def updateFirst {ε α : Type*} (p : α → Bool) (f : α → Except ε α) (missing : ε) :
    List α → Except ε (List α)
  | [] => .error missing
  | a :: as =>
    if p a then
      match f a with
      | .ok b => .ok (b :: as)
      | .error e => .error e
    else
      match updateFirst p f missing as with
      | .ok bs => .ok (a :: bs)
      | .error e => .error e

/-- An element equal under `key` to an earlier one. -/
def hasDuplicate {α β : Type*} [BEq β] (key : α → β) (as : List α) : Bool :=
  as.zipIdx.any fun p => (as.take p.2).any fun other => key other == key p.1

lemma hasDuplicate_eq_false {α β : Type*} [BEq β] [LawfulBEq β] (key : α → β) (as : List α) :
    hasDuplicate key as = false ↔ (as.map key).Nodup := by
  rw [List.nodup_iff_pairwise_ne, List.pairwise_map, List.pairwise_iff_getElem]
  simp only [hasDuplicate, List.any_eq_false, List.any_eq_true, beq_iff_eq, not_exists, not_and,
    Prod.forall, List.mem_zipIdx_iff_getElem?]
  constructor
  · intro h i j hi hj hij
    exact h as[j] j (by simp [hj]) as[i] (by
      rw [List.mem_take_iff_getElem]
      exact ⟨i, by omega, rfl⟩)
  · intro h a j ha b hb
    rw [List.mem_take_iff_getElem] at hb
    obtain ⟨i, hi, rfl⟩ := hb
    obtain ⟨hj, rfl⟩ := List.getElem?_eq_some_iff.mp ha
    exact h i j _ hj (by omega)

/-- What a successful update did: the first match was replaced by an accepted value. -/
lemma updateFirst_eq_ok {ε α : Type*} {p : α → Bool} {f : α → Except ε α} {missing : ε}
    {as bs : List α} :
    updateFirst p f missing as = .ok bs ↔
      ∃ before a b after, as = before ++ a :: after ∧ bs = before ++ b :: after ∧
        (∀ x ∈ before, p x = false) ∧ p a = true ∧ f a = .ok b := by
  induction as generalizing bs with
  | nil => simp [updateFirst]
  | cons a as ih =>
    by_cases ha : p a = true
    · constructor
      · intro h
        simp only [updateFirst, ha, if_true] at h
        split at h
        · exact ⟨[], a, _, as, rfl, (Except.ok.inj h).symm, by simp, ha, ‹_›⟩
        · cases h
      · rintro ⟨before, a', b, after, heq, rfl, hbefore, ha', hf⟩
        cases before with
        | nil =>
          obtain ⟨rfl, rfl⟩ := List.cons.inj heq
          simp [updateFirst, ha, hf]
        | cons x before =>
          obtain ⟨rfl, -⟩ := List.cons.inj heq
          simp [hbefore a List.mem_cons_self] at ha
    · have ha : p a = false := by simpa using ha
      constructor
      · intro h
        simp only [updateFirst, ha, Bool.false_eq_true, if_false] at h
        split at h
        · rename_i cs hcs
          obtain ⟨before, a', b, after, rfl, rfl, hbefore, ha', hf⟩ := ih.mp hcs
          refine ⟨a :: before, a', b, after, rfl, (Except.ok.inj h).symm, ?_, ha', hf⟩
          simpa [ha] using hbefore
        · cases h
      · rintro ⟨before, a', b, after, heq, rfl, hbefore, ha', hf⟩
        cases before with
        | nil =>
          obtain ⟨rfl, rfl⟩ := List.cons.inj heq
          simp [ha] at ha'
        | cons x before =>
          rw [List.cons_append, List.cons.injEq] at heq
          obtain ⟨rfl, rfl⟩ := heq
          have hbefore' := fun y hy => hbefore y (List.mem_cons_of_mem _ hy)
          have := ih.mpr ⟨before, a', b, after, rfl, rfl, hbefore', ha', hf⟩
          simp [updateFirst, ha, this]

/-- `iter().rposition(p)`. -/
def rposition {α : Type*} (p : α → Bool) : List α → Option Nat
  | [] => none
  | a :: as =>
    match rposition p as with
    | some i => some (i + 1)
    | none => if p a then some 0 else none

lemma eq_take_append_getLast {α : Type*} {as : List α} {a : α} {n : Nat}
    (hlen : as.length = n + 1) (ha : as.getLast? = some a) : as = as.take n ++ [a] := by
  have hdrop : as.dropLast = as.take n := by rw [List.dropLast_eq_take, hlen, Nat.add_sub_cancel]
  rw [← hdrop]
  exact (List.dropLast_append_getLast? a ha).symm

/-- `iter_mut().filter(p)` when it yields exactly one element. -/
lemma map_ite_of_countP_eq_one {α : Type*} {p : α → Bool} {before after : List α} {a : α}
    (h : (before ++ a :: after).countP p = 1) (ha : p a = true) (f : α → α) :
    (before ++ a :: after).map (fun x => if p x then f x else x) = before ++ f a :: after := by
  rw [List.countP_append, List.countP_cons_of_pos ha] at h
  have hnone : ∀ as : List α, as.countP p = 0 → as.map (fun x => if p x then f x else x) = as := by
    intro as has
    rw [List.countP_eq_zero] at has
    exact (List.map_congr_left fun x hx => by simp [has x hx]).trans (List.map_id _)
  rw [List.map_append, List.map_cons, hnone before (by omega), hnone after (by omega), if_pos ha]

end Rust
