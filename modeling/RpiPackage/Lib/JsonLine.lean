import RpiPackage.Lib.Decimal
import RpiPackage.Lib.Json

/-!
# JSON lines

A value is sent as one line: the bytes of its compact text and a line break. The text has no line
break of its own, since string literals escape theirs.
-/

namespace Json

/-- The text of a double has digits, a point, an exponent and signs. -/
def Number.Plain : Number → Prop
  | .float text => ∀ c ∈ text.toList, c ∈ "0123456789.e+-".toList
  | .posInt _ | .negInt _ => True

namespace Value

mutual
def Plain : Value → Prop
  | .number n => n.Plain
  | .array xs => PlainItems xs
  | .object fields => PlainFields fields
  | .null | .bool _ | .string _ => True

def PlainItems : List Value → Prop
  | [] => True
  | x :: xs => Plain x ∧ PlainItems xs

def PlainFields : List (String × Value) → Prop
  | [] => True
  | (_, x) :: fields => Plain x ∧ PlainFields fields
end

end Value

/-- A value whose doubles are the texts that a double prints. -/
structure Document where
  value : Value
  plain : value.Plain

namespace Value

/-! ### Literals -/

/-- The characters that a literal escapes. -/
def escaped : List Char := "\"\\".toList ++ (List.range 32).map Char.ofNat

lemma escapeChar_of_not_mem {c : Char} (h : c ∉ escaped) : (escapeChar c).toList = [c] := by
  have hlarge : ¬c.toNat < 32 := by
    intro hlt
    refine h (List.mem_append_right _ (List.mem_map.mpr ⟨c.toNat, List.mem_range.mpr hlt, ?_⟩))
    exact Char.ofNat_toNat c
  have hquote : c ≠ '"' := by
    rintro rfl
    exact h (by decide)
  have hslash : c ≠ '\\' := by
    rintro rfl
    exact h (by decide)
  have hnewline : c ≠ '\n' := by
    rintro rfl
    exact hlarge (by decide)
  have hreturn : c ≠ '\r' := by
    rintro rfl
    exact hlarge (by decide)
  have htab : c ≠ '\t' := by
    rintro rfl
    exact hlarge (by decide)
  have hbackspace : c.toNat ≠ 8 := by omega
  have hfeed : c.toNat ≠ 12 := by omega
  simp [escapeChar, hquote, hslash, hnewline, hreturn, htab, hbackspace, hfeed, hlarge]

lemma escapes_start : escaped.all (fun c => (escapeChar c).toList.head? == some '\\') = true := by
  decide +kernel

lemma escapes_apart : escaped.all (fun c => escaped.all fun d =>
    !(escapeChar c).toList.isPrefixOf (escapeChar d).toList || c == d) = true := by
  decide +kernel

/-- An escape starts with a backslash, and none is the start of another. -/
lemma escapeChar_of_mem {c d : Char} (hc : c ∈ escaped) (hd : d ∈ escaped) :
    (escapeChar c).toList.head? = some '\\' ∧
      ((escapeChar c).toList.isPrefixOf (escapeChar d).toList = true → c = d) := by
  have hhead := List.all_eq_true.mp escapes_start c hc
  have hapart := List.all_eq_true.mp (List.all_eq_true.mp escapes_apart c hc) d hd
  refine ⟨eq_of_beq hhead, fun hstart => ?_⟩
  rw [hstart] at hapart
  exact eq_of_beq hapart

lemma escapeChar_ne_nil (c : Char) : (escapeChar c).toList ≠ [] := by
  by_cases h : c ∈ escaped
  · have hhead := (escapeChar_of_mem h h).1
    intro hnil
    rw [hnil] at hhead
    cases hhead
  · rw [escapeChar_of_not_mem h]
    exact List.cons_ne_nil c []

lemma escapeChar_append_inj {c d : Char} {xs ys : List Char}
    (h : (escapeChar c).toList ++ xs = (escapeChar d).toList ++ ys) : c = d := by
  by_cases hc : c ∈ escaped
  · by_cases hd : d ∈ escaped
    · rcases List.prefix_or_prefix_of_prefix ⟨xs, h⟩ (List.prefix_append _ ys) with hstart | hstart
      · exact (escapeChar_of_mem hc hd).2 (List.isPrefixOf_iff_prefix.mpr hstart)
      · exact ((escapeChar_of_mem hd hc).2 (List.isPrefixOf_iff_prefix.mpr hstart)).symm
    · have hhead := congrArg List.head? h
      rw [List.head?_append_of_ne_nil _ (escapeChar_ne_nil c), (escapeChar_of_mem hc hc).1,
        escapeChar_of_not_mem hd] at hhead
      obtain rfl := Option.some.inj hhead
      exact absurd (by decide) hd
  · by_cases hd : d ∈ escaped
    · have hhead := congrArg List.head? h
      rw [List.head?_append_of_ne_nil _ (escapeChar_ne_nil d), (escapeChar_of_mem hd hd).1,
        escapeChar_of_not_mem hc] at hhead
      obtain rfl := Option.some.inj hhead
      exact absurd (by decide) hc
    · rw [escapeChar_of_not_mem hc, escapeChar_of_not_mem hd] at h
      exact (List.cons.inj h).1

lemma escape_injective {s t : List Char}
    (h : (s.flatMap fun c => (escapeChar c).toList) = t.flatMap fun c => (escapeChar c).toList) :
    s = t := by
  induction s generalizing t with
  | nil =>
    cases t with
    | nil => rfl
    | cons d t => exact absurd (List.append_eq_nil_iff.mp h.symm).1 (escapeChar_ne_nil d)
  | cons c s ih =>
    cases t with
    | nil => exact absurd (List.append_eq_nil_iff.mp h).1 (escapeChar_ne_nil c)
    | cons d t =>
      rw [List.flatMap_cons, List.flatMap_cons] at h
      obtain rfl := escapeChar_append_inj h
      rw [ih (List.append_cancel_left h)]

lemma toList_quote (s : String) :
    (quote s).toList = '"' :: ((s.toList.flatMap fun c => (escapeChar c).toList) ++ ['"']) := by
  simp [quote, List.flatMap_map]

/-- A literal determines its string. -/
lemma quote_injective {s t : String} (h : quote s = quote t) : s = t := by
  have hlist := congrArg String.toList h
  rw [toList_quote, toList_quote] at hlist
  have hescaped := List.append_cancel_right (List.cons.inj hlist).2
  exact String.toList_inj.mp (escape_injective hescaped)

/-! ### No control character in a text -/

section

variable {control : Char}

lemma ne_of_control {c : Char} (hcontrol : control.toNat < 32) (hc : 32 ≤ c.toNat) :
    control ≠ c := by
  rintro rfl
  omega

lemma control_not_mem {text : String} (hcontrol : control.toNat < 32)
    (htext : text.toList.all (32 ≤ ·.toNat) = true) : control ∉ text.toList := by
  intro hmem
  exact absurd (of_decide_eq_true (List.all_eq_true.mp htext control hmem)) (by omega)

lemma le_hexDigit (n : Nat) : 32 ≤ (hexDigit n).toNat := by
  unfold hexDigit
  rw [List.getD_eq_getElem?_getD]
  cases h : "0123456789abcdef".toList[n]? with
  | none => decide
  | some c =>
    have hall : ("0123456789abcdef".toList.all fun c => 32 ≤ c.toNat) = true := by decide
    exact of_decide_eq_true (List.all_eq_true.mp hall c (List.mem_of_getElem? h))

lemma le_escapeChar {c : Char} (d : Char) (h : c ∈ (escapeChar d).toList) : 32 ≤ c.toNat := by
  have hall : ∀ text : String, text.toList.all (32 ≤ ·.toNat) = true → c ∈ text.toList →
      32 ≤ c.toNat := by
    intro text htext hc
    by_contra hlt
    exact control_not_mem (Nat.lt_of_not_le hlt) htext hc
  unfold escapeChar at h
  split at h
  · exact hall _ (by decide) h
  split at h
  · exact hall _ (by decide) h
  split at h
  · exact hall _ (by decide) h
  split at h
  · exact hall _ (by decide) h
  split at h
  · exact hall _ (by decide) h
  split at h
  · exact hall _ (by decide) h
  split at h
  · exact hall _ (by decide) h
  split at h
  · rw [String.toList_append, List.mem_append] at h
    rcases h with h | h
    · exact hall _ (by decide) h
    · rw [String.toList_ofList] at h
      rcases List.mem_cons.mp h with rfl | h
      · exact le_hexDigit _
      · rw [List.mem_singleton.mp h]
        exact le_hexDigit _
  · next hlarge =>
    obtain rfl : c = d := by simpa using h
    omega

lemma control_not_mem_quote (hcontrol : control.toNat < 32) (s : String) :
    control ∉ (quote s).toList := by
  have hescaped : ∀ c ∈ s.toList, control ∉ (escapeChar c).toList := by
    intro c _ hmem
    exact absurd (le_escapeChar c hmem) (by omega)
  have hquote : control ≠ '"' := ne_of_control hcontrol (by decide)
  simpa [quote, hquote] using hescaped

lemma control_not_mem_intercalate (hcontrol : control.toNat < 32) {texts : List String}
    (h : ∀ text ∈ texts, control ∉ text.toList) :
    control ∉ (",".intercalate texts).toList := by
  have hcomma : control ≠ ',' := ne_of_control hcontrol (by decide)
  induction texts with
  | nil => simp
  | cons text texts ih =>
    have hrest := ih fun text htext => h text (List.mem_cons_of_mem _ htext)
    have htext := h text List.mem_cons_self
    cases texts with
    | nil => simpa using htext
    | cons next texts =>
      rw [String.intercalate_cons_cons]
      simp only [String.toList_append, List.mem_append, not_or]
      exact ⟨⟨htext, by simpa using hcomma⟩, hrest⟩

end

end Value

lemma Number.control_not_mem_compact {control : Char} (hcontrol : control.toNat < 32)
    {n : Number} (h : n.Plain) : control ∉ n.compact.toList := by
  have hdigit : control.isDigit = false := by
    rw [Char.isDigit, Bool.and_eq_false_iff]
    left
    exact decide_eq_false fun hle => absurd (UInt32.le_iff_toNat_le.mp hle) (by
      show ¬48 ≤ control.toNat
      omega)
  cases n with
  | posInt n =>
    show control ∉ n.toNat.repr.toList
    rw [Nat.toList_repr]
    exact Decimal.not_mem_toDigits hdigit n.toNat
  | negInt n =>
    show control ∉ n.toInt.repr.toList
    rw [Int.repr_eq_if]
    split
    · rw [Nat.toList_repr]
      exact Decimal.not_mem_toDigits hdigit _
    · rw [String.toList_append, Nat.toList_repr, List.mem_append, not_or]
      refine ⟨?_, Decimal.not_mem_toDigits hdigit _⟩
      simpa using Value.ne_of_control hcontrol (c := '-') (by decide)
  | float text =>
    intro hmem
    exact Value.control_not_mem hcontrol (by decide) (h _ hmem)

namespace Value

mutual
lemma control_not_mem_compact {control : Char} (hcontrol : control.toNat < 32) : {v : Value} → v.Plain → control ∉ v.compact.toList
  | .null, _ => control_not_mem hcontrol (by decide)
  | .bool true, _ => control_not_mem hcontrol (by decide)
  | .bool false, _ => control_not_mem hcontrol (by decide)
  | .number _, h => Number.control_not_mem_compact hcontrol h
  | .string s, _ => control_not_mem_quote hcontrol s
  | .array xs, h => by
    have hitems := control_not_mem_intercalate hcontrol
      (control_not_mem_compactItems hcontrol (show PlainItems xs from h))
    have hopen : control ≠ '[' := ne_of_control hcontrol (by decide)
    have hclose : control ≠ ']' := ne_of_control hcontrol (by decide)
    unfold compact
    simp only [String.toList_append, List.mem_append, not_or]
    exact ⟨⟨by simpa using hopen, hitems⟩, by simpa using hclose⟩
  | .object fields, h => by
    have hfields := control_not_mem_intercalate hcontrol
      (control_not_mem_compactFields hcontrol (show PlainFields fields from h))
    have hopen : control ≠ '\x7b' := ne_of_control hcontrol (by decide)
    have hclose : control ≠ '\x7d' := ne_of_control hcontrol (by decide)
    unfold compact
    simp only [String.toList_append, List.mem_append, not_or]
    exact ⟨⟨by simpa using hopen, hfields⟩, by simpa using hclose⟩

lemma control_not_mem_compactItems {control : Char} (hcontrol : control.toNat < 32) : {xs : List Value} → PlainItems xs →
    ∀ text ∈ compactItems xs, control ∉ text.toList
  | [], _, text, htext => absurd htext List.not_mem_nil
  | x :: xs, h, text, htext => by
    rcases List.mem_cons.mp htext with rfl | htext
    · exact control_not_mem_compact hcontrol h.1
    · exact control_not_mem_compactItems hcontrol h.2 text htext

lemma control_not_mem_compactFields {control : Char} (hcontrol : control.toNat < 32) :
    {fields : List (String × Value)} → PlainFields fields →
    ∀ text ∈ compactFields fields, control ∉ text.toList
  | [], _, text, htext => absurd htext List.not_mem_nil
  | (key, x) :: fields, h, text, htext => by
    rcases List.mem_cons.mp htext with rfl | htext
    · have hcolon : control ≠ ':' := ne_of_control hcontrol (by decide)
      simp only [String.toList_append, List.mem_append, not_or]
      exact ⟨⟨control_not_mem_quote hcontrol key, by simpa using hcolon⟩,
        control_not_mem_compact hcontrol h.1⟩
    · exact control_not_mem_compactFields hcontrol h.2 text htext
end

lemma newline_not_mem_compact {v : Value} (h : v.Plain) : '\n' ∉ v.compact.toList :=
  control_not_mem_compact (by decide) h

end Value

/-! ### Bytes -/

/-- The byte of a line break. -/
def newline : UInt8 := 10

def utf8 (text : String) : List UInt8 := text.toList.flatMap String.utf8EncodeChar

/-- The bytes of a character other than the line break are not the one of a line break. -/
lemma newline_not_mem_utf8EncodeChar {c : Char} (h : c ≠ '\n') :
    newline ∉ String.utf8EncodeChar c := by
  have hval : c.toNat ≠ 10 := by
    intro heq
    exact h (Char.ext (UInt32.toNat_inj.mp heq))
  intro hmem
  unfold String.utf8EncodeChar newline at hmem
  dsimp only at hmem
  split at hmem
  · rename_i hle
    have hlt : c.toNat ≤ 127 := hle
    simp [← UInt8.toNat_inj] at hmem
    omega
  · split at hmem
    · simp [← UInt8.toNat_inj] at hmem
      omega
    · split at hmem
      · simp [← UInt8.toNat_inj] at hmem
        omega
      · simp [← UInt8.toNat_inj] at hmem
        omega

lemma newline_not_mem_utf8 {text : String} (h : '\n' ∉ text.toList) : newline ∉ utf8 text := by
  unfold utf8
  rw [List.mem_flatMap]
  rintro ⟨c, hc, hmem⟩
  refine newline_not_mem_utf8EncodeChar ?_ hmem
  rintro rfl
  exact h hc

namespace Document

/-- The bytes of a value, as one line. -/
def line (d : Document) : List UInt8 := utf8 d.value.compact ++ [newline]

lemma newline_not_mem (d : Document) : newline ∉ utf8 d.value.compact :=
  newline_not_mem_utf8 (Value.newline_not_mem_compact d.plain)

lemma getLast?_line (d : Document) : d.line.getLast? = some newline := by
  unfold line
  rw [List.getLast?_append_of_ne_nil _ (List.cons_ne_nil _ _)]
  rfl

end Document

end Json
