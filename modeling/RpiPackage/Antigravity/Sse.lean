import RpiPackage.Lib.Json
import Mathlib.Data.List.DropRight

/-!
# The values of an answer

The decoder of the event stream of an answer. What a read brings is decoded, its line breaks are
made one character each and it waits in a buffer; a frame ends at a blank line and its lines are
read one by one. The values are those of the lines of the whole text, however it was cut.
-/

namespace Antigravity

open Json Json.Value

/-- The characters that a trim removes. -/
def isBlank (c : Char) : Bool :=
  (0x9 ≤ c.toNat ∧ c.toNat ≤ 0xd) ∨ c.toNat ∈ [0x20, 0xa0, 0x1680] ∨
    (0x2000 ≤ c.toNat ∧ c.toNat ≤ 0x200a) ∨ c.toNat ∈ [0x2028, 0x2029, 0x202f, 0x205f, 0x3000, 0xfeff]

def trimBlanks (t : List Char) : List Char := (t.dropWhile isBlank).rdropWhile isBlank

/-- The decoder of the library is a parameter, and so is the reading of JSON. -/
structure Reading (σ : Type*) where
  decode : σ → List UInt8 → σ × List Char
  parse : List Char → Option Value

/-- A decoder that does not care how its input is cut. -/
structure Reading.Incremental {σ : Type*} (r : Reading σ) : Prop where
  nil : ∀ d, r.decode d [] = (d, [])
  append : ∀ d xs ys, r.decode d (xs ++ ys) =
    ((r.decode (r.decode d xs).1 ys).1, (r.decode d xs).2 ++ (r.decode (r.decode d xs).1 ys).2)

/-- `frame` is what is left of a frame, from the offset on. -/
structure DecoderState (σ : Type*) where
  decoder : σ
  buffer : List Char
  frame : Option (List Char)

/-- `text.replace("\r\n", "\n")`. -/
def joinBreaks : List Char → List Char
  | '\r' :: '\n' :: t => '\n' :: joinBreaks t
  | c :: t => c :: joinBreaks t
  | [] => []

/-- The text before the first blank line and the text after it. -/
def cutFrame : List Char → Option (List Char × List Char)
  | '\n' :: '\n' :: t => some ([], t)
  | c :: t => (cutFrame t).map fun (frame, rest) => (c :: frame, rest)
  | [] => none

namespace DecoderState

variable {σ : Type*} (r : Reading σ)

def push (s : DecoderState σ) (bytes : List UInt8) : DecoderState σ :=
  let (decoder, text) := r.decode s.decoder bytes
  { s with decoder, buffer := s.buffer ++ joinBreaks text }

/-- The object or array that a value holds as its response stands for the value. -/
def unwrap (value : Value) : Value :=
  match value.get "response" with
  | some (.object fields) => .object fields
  | some (.array items) => .array items
  | _ => value

/-- What a line of a frame says. -/
def lineValue (line : List Char) : Option Value :=
  if "data:".toList.isPrefixOf line then
    let data := trimBlanks (line.drop 5)
    if data = [] ∨ data = "[DONE]".toList then none else (r.parse data).map unwrap
  else none

/-- The next value of a frame, with what is left of the frame after its line. -/
def nextLine (left : List Char) : Option (Value × List Char) :=
  if left = [] then none
  else
    let rest := (left.dropWhile (· != '\n')).tail
    match lineValue r (left.takeWhile (· != '\n')) with
    | some value => some (value, rest)
    | none => nextLine rest
termination_by left.length
decreasing_by
  have hdrop := (List.dropWhile_suffix (l := left) (· != '\n')).length_le
  have hpos := List.length_pos_of_ne_nil ‹left ≠ []›
  rw [List.length_tail]
  omega

lemma eq_of_cutFrame {t frame rest : List Char} (h : cutFrame t = some (frame, rest)) :
    t = frame ++ '\n' :: '\n' :: rest := by
  fun_induction cutFrame t generalizing frame with
  | case1 t =>
    obtain ⟨rfl, rfl⟩ := Prod.mk.inj (Option.some.inj h)
    rfl
  | case2 c t _ ih =>
    obtain ⟨⟨frame', rest'⟩, hcut, heq⟩ := Option.map_eq_some_iff.mp h
    obtain ⟨rfl, rfl⟩ := Prod.mk.inj heq
    rw [ih hcut, List.cons_append]
  | case3 => cases h

/-- The loop reads on in the frame that is open, then opens the next. -/
def nextChunk (eof : Bool) (s : DecoderState σ) : Option Value × DecoderState σ :=
  match _hframe : s.frame with
  | some left =>
    match nextLine r left with
    | some (value, rest) => (some value, { s with frame := some rest })
    | none => nextChunk eof { s with frame := none }
  | none =>
    match _hcut : cutFrame s.buffer with
    | some (frame, rest) => nextChunk eof { s with buffer := rest, frame := some frame }
    | none =>
      if eof ∧ trimBlanks s.buffer ≠ [] then
        nextChunk eof { s with buffer := [], frame := some s.buffer }
      else (none, s)
termination_by 2 * s.buffer.length + s.frame.elim 0 fun _ => 1
decreasing_by
  · simp [_hframe]
  · have hlen := congrArg List.length (eq_of_cutFrame _hcut)
    simp only [List.length_append, List.length_cons] at hlen
    simp only [Option.elim_some, Option.elim_none, ‹s.frame = none›]
    omega
  · have hne : s.buffer ≠ [] := by
      rintro hnil
      simp [hnil, trimBlanks] at *
    have hpos := List.length_pos_of_ne_nil hne
    simp only [Option.elim_some, Option.elim_none, ‹s.frame = none›, List.length_nil]
    omega

/-! ### The values of a text -/

variable {r} {s s' : DecoderState σ} {eof : Bool}

/-- The values of the lines of a text. -/
def values (r : Reading σ) (t : List Char) : List Value := (t.splitOn '\n').filterMap (lineValue r)

lemma values_append_break (t u : List Char) : values r (t ++ '\n' :: u) = values r t ++ values r u := by
  rw [values, List.splitOn_eq_splitOnP, List.splitOnP_append_cons t u (by simp), List.filterMap_append]
  rfl

lemma values_of_not_mem {t : List Char} (h : '\n' ∉ t) : values r t = (lineValue r t).toList := by
  have hsplit : t.splitOn '\n' = [t] := by
    rw [List.splitOn_eq_splitOnP]
    apply List.splitOnP_eq_singleton
    intro c hc
    simpa using fun heq : c = '\n' => h (heq ▸ hc)
  rw [values, hsplit]
  cases hline : lineValue r t <;> simp [hline]

lemma trimBlanks_concat (t : List Char) : trimBlanks (t ++ ['\r']) = trimBlanks t := by
  have hblank : isBlank '\r' = true := by decide
  by_cases hall : ∀ c ∈ t, isBlank c = true
  · have hnone : t.dropWhile isBlank = [] := List.dropWhile_eq_nil_iff.mpr hall
    have hboth : (t ++ ['\r']).dropWhile isBlank = [] := by
      refine List.dropWhile_eq_nil_iff.mpr fun c hc => ?_
      rcases List.mem_append.mp hc with hc | hc
      · exact hall c hc
      · rw [List.mem_singleton.mp hc]
        exact hblank
    rw [trimBlanks, trimBlanks, hnone, hboth]
  · have hne : t.dropWhile isBlank ≠ [] := fun h => hall (List.dropWhile_eq_nil_iff.mp h)
    rw [trimBlanks, trimBlanks, List.dropWhile_append, if_neg (by simpa using hne),
      List.rdropWhile_concat_pos _ _ _ hblank]

/-- A carriage return at the end of a line does not count. -/
lemma lineValue_concat (line : List Char) : lineValue r (line ++ ['\r']) = lineValue r line := by
  have hprefix : "data:".toList.isPrefixOf (line ++ ['\r']) = "data:".toList.isPrefixOf line := by
    rw [Bool.eq_iff_iff, List.isPrefixOf_iff_prefix, List.isPrefixOf_iff_prefix]
    constructor
    · intro h
      rcases List.prefix_concat_iff.mp h with heq | h
      · exact absurd (congrArg List.getLast? heq) (by simp)
      · exact h
    · exact fun h => h.trans (List.prefix_append _ _)
  rw [lineValue, lineValue, hprefix]
  by_cases h : "data:".toList.isPrefixOf line = true
  · have hlen : 5 ≤ line.length := (List.isPrefixOf_iff_prefix.mp h).length_le
    rw [if_pos h, if_pos h, List.drop_append_of_le_length hlen, trimBlanks_concat]
  · rw [if_neg h, if_neg h]

lemma values_concat (t : List Char) : values r (t ++ ['\r']) = values r t := by
  by_cases hmem : '\n' ∈ t
  · obtain ⟨before, after, rfl⟩ := List.append_of_mem hmem
    rw [List.append_assoc, List.cons_append, values_append_break, values_append_break,
      values_concat after]
  · rw [values_of_not_mem, values_of_not_mem hmem, lineValue_concat]
    simpa using hmem
termination_by t.length
decreasing_by
  subst_vars
  rw [List.length_append, List.length_cons]
  omega

/-- Joined breaks leave the values as they are, also where a break is cut in two. -/
lemma values_joinBreaks (t u v : List Char) :
    values r (t ++ (joinBreaks u ++ v)) = values r (t ++ (u ++ v)) := by
  fun_induction joinBreaks u generalizing t with
  | case1 u ih =>
    have hjoined := ih []
    rw [List.nil_append, List.nil_append] at hjoined
    rw [List.cons_append, values_append_break, hjoined, ← values_concat t, ← values_append_break,
      List.append_assoc]
    rfl
  | case2 c u _ ih =>
    have hmoved := ih (t ++ [c])
    rwa [List.append_assoc, List.append_assoc] at hmoved
  | case3 => rfl

lemma values_nil : values r [] = [] := values_of_not_mem List.not_mem_nil

/-- A line of a frame is read with the rest after it. -/
lemma values_eq_nextLine (left : List Char) :
    values r left = (nextLine r left).elim [] fun p => p.1 :: values r p.2 := by
  have hcut : ∀ t : List Char, values r t = (lineValue r (t.takeWhile (· != '\n'))).toList ++
      values r (t.dropWhile (· != '\n')).tail := by
    intro t
    have hline : '\n' ∉ t.takeWhile (· != '\n') := fun hmem =>
      absurd (List.mem_takeWhile_imp hmem) (by simp)
    have hsplit := List.takeWhile_append_dropWhile (p := (· != '\n')) (l := t)
    cases hrest : t.dropWhile (· != '\n') with
    | nil =>
      rw [hrest, List.append_nil] at hsplit
      rw [List.tail_nil, values_nil, List.append_nil, ← values_of_not_mem hline, hsplit]
    | cons c rest =>
      have hc : c = '\n' := by
        have hhead := List.head_dropWhile_not (p := (· != '\n')) (l := t) (by simp [hrest])
        simpa [hrest] using hhead
      subst hc
      conv_lhs => rw [← hsplit, hrest]
      rw [values_append_break, values_of_not_mem hline, List.tail_cons]
  fun_induction nextLine r left with
  | case1 => exact values_nil
  | case2 left hne rest value hvalue =>
    rw [hcut, hvalue]
    rfl
  | case3 left hne rest hnone ih =>
    rw [hcut, hnone]
    exact ih

/-- What is still to be read, before some text that is still to come. -/
def ahead (r : Reading σ) (s : DecoderState σ) (t : List Char) : List Value :=
  s.frame.elim [] (values r) ++ values r (s.buffer ++ t)

/-- A text of blanks says nothing. -/
lemma values_of_blank {t : List Char} (h : ∀ c ∈ t, isBlank c = true) : values r t = [] := by
  by_cases hmem : '\n' ∈ t
  · obtain ⟨before, after, rfl⟩ := List.append_of_mem hmem
    rw [values_append_break, values_of_blank fun c hc => h c (List.mem_append_left _ hc),
      values_of_blank fun c hc => h c (List.mem_append_right _ (List.mem_cons_of_mem _ hc))]
    rfl
  · rw [values_of_not_mem hmem, lineValue, if_neg]
    · rfl
    · intro hprefix
      have hd := (List.isPrefixOf_iff_prefix.mp hprefix).subset (List.mem_cons_self (a := 'd'))
      exact absurd (h 'd' hd) (by decide)
termination_by t.length
decreasing_by
  all_goals
    subst_vars
    rw [List.length_append, List.length_cons]
    omega

lemma all_blank_of_trimBlanks {t : List Char} (h : trimBlanks t = []) : ∀ c ∈ t, isBlank c = true := by
  rw [trimBlanks, List.rdropWhile_eq_nil_iff] at h
  rw [← List.dropWhile_eq_nil_iff]
  by_contra hne
  have hhead := List.head_dropWhile_not (p := isBlank) (l := t) hne
  rw [h _ (List.head_mem hne)] at hhead
  exact absurd hhead (by simp)

/-- A call gives the next value of what is still to be read. The text that is still to come does
not matter, unless the text that is there is taken for the last. -/
lemma ahead_eq_nextChunk (s : DecoderState σ) {t : List Char} (ht : eof = true → t = []) :
    ahead r s t = (nextChunk r eof s).1.toList ++ ahead r (nextChunk r eof s).2 t := by
  fun_induction nextChunk r eof s with
  | case1 s left hframe value rest hline =>
    rw [ahead, ahead, hframe, Option.elim_some, values_eq_nextLine, hline]
    rfl
  | case2 s left hframe hline ih =>
    rw [← ih, ahead, ahead, hframe, Option.elim_some, values_eq_nextLine, hline]
    rfl
  | case3 s hframe frame rest hcut ih =>
    rw [← ih, ahead, ahead, hframe, eq_of_cutFrame hcut, List.append_assoc, List.cons_append,
      List.cons_append, values_append_break, ← List.nil_append ('\n' :: _), values_append_break,
      values_nil]
    rfl
  | case4 s hframe hcut hlast ih =>
    rw [← ih, ahead, ahead, hframe, ht hlast.1, List.append_nil, List.append_nil, values_nil]
    simp
  | case5 => rfl

/-- A call that gives nothing has read all there is. -/
lemma frame_of_nextChunk (s : DecoderState σ) (h : (nextChunk r eof s).1 = none) :
    (nextChunk r eof s).2.frame = none ∧
      (eof = true → values r (nextChunk r eof s).2.buffer = []) := by
  fun_induction nextChunk r eof s with
  | case1 => cases h
  | case2 s left hframe hline ih => exact ih h
  | case3 s hframe frame rest hcut ih => exact ih h
  | case4 s hframe hcut hlast ih => exact ih h
  | case5 s hframe hcut hlast =>
    refine ⟨hframe, fun heof => values_of_blank (all_blank_of_trimBlanks ?_)⟩
    by_contra hne
    exact hlast ⟨heof, hne⟩

/-! ### Reading to the end -/

def size (s : DecoderState σ) : Nat := (s.frame.elim 0 List.length) + s.buffer.length

lemma length_nextLine {left rest : List Char} {value : Value} (h : nextLine r left = some (value, rest)) :
    rest.length < left.length := by
  fun_induction nextLine r left with
  | case1 => cases h
  | case2 left hne after value' hvalue =>
    obtain ⟨rfl, rfl⟩ := Prod.mk.inj (Option.some.inj h)
    have hdrop := (List.dropWhile_suffix (l := left) (· != '\n')).length_le
    have hpos := List.length_pos_of_ne_nil hne
    rw [List.length_tail]
    omega
  | case3 left hne after hnone ih =>
    have hdrop := (List.dropWhile_suffix (l := left) (· != '\n')).length_le
    have hlt := ih h
    rw [List.length_tail] at hlt
    omega

lemma size_nextChunk (s : DecoderState σ) {value : Value} (h : (nextChunk r eof s).1 = some value) :
    size (nextChunk r eof s).2 < size s := by
  fun_induction nextChunk r eof s with
  | case1 s left hframe value rest hline =>
    have hlt := length_nextLine hline
    simp only [size, hframe, Option.elim_some]
    omega
  | case2 s left hframe hline ih =>
    refine Nat.lt_of_lt_of_le (ih h) ?_
    simp [size]
  | case3 s hframe frame rest hcut ih =>
    refine Nat.lt_of_lt_of_le (ih h) ?_
    have hlen := congrArg List.length (eq_of_cutFrame hcut)
    simp only [List.length_append, List.length_cons] at hlen
    simp only [size, hframe, Option.elim_some, Option.elim_none]
    omega
  | case4 s hframe hcut hlast ih =>
    refine Nat.lt_of_lt_of_le (ih h) ?_
    simp [size, hframe]
  | case5 => cases h

/-- `next_chunk` until it gives nothing. -/
def drain (r : Reading σ) (eof : Bool) (s : DecoderState σ) : List Value × DecoderState σ :=
  match _hvalue : (nextChunk r eof s).1 with
  | none => ([], (nextChunk r eof s).2)
  | some value =>
    let (rest, last) := drain r eof (nextChunk r eof s).2
    (value :: rest, last)
termination_by size s
decreasing_by exact size_nextChunk s _hvalue

def start (decoder : σ) : DecoderState σ := ⟨decoder, [], none⟩

/-- Reads one after the other, each drained before the next. -/
def readAll (r : Reading σ) (s : DecoderState σ) : List (List UInt8) → List Value × DecoderState σ
  | [] => ([], s)
  | chunk :: chunks =>
    let (values, s) := drain r false (push r s chunk)
    let (rest, s) := readAll r s chunks
    (values ++ rest, s)

/-- The values of an answer: those of its reads and those of what is left at its end. -/
def decodeAll (r : Reading σ) (decoder : σ) (chunks : List (List UInt8)) : List Value :=
  let (values, s) := readAll r (start decoder) chunks
  values ++ (drain r true s).1

lemma drain_spec (s : DecoderState σ) :
    (∀ t, (eof = true → t = []) → ahead r s t = (drain r eof s).1 ++ ahead r (drain r eof s).2 t) ∧
    (drain r eof s).2.frame = none ∧ (eof = true → values r (drain r eof s).2.buffer = []) := by
  fun_induction drain r eof s with
  | case1 s hnone =>
    refine ⟨fun t ht => ?_, frame_of_nextChunk s hnone⟩
    rw [ahead_eq_nextChunk s ht, hnone]
    rfl
  | case2 s value hsome rest last hdrain ih =>
    rw [hdrain] at ih
    refine ⟨fun t ht => ?_, ih.2⟩
    rw [ahead_eq_nextChunk s ht, hsome, ih.1 t ht]
    rfl

lemma decoder_nextChunk (s : DecoderState σ) : (nextChunk r eof s).2.decoder = s.decoder := by
  fun_induction nextChunk r eof s with
  | case1 => rfl
  | case2 s left hframe hline ih => exact ih
  | case3 s hframe frame rest hcut ih => exact ih
  | case4 s hframe hcut hlast ih => exact ih
  | case5 => rfl

lemma decoder_drain (s : DecoderState σ) : (drain r eof s).2.decoder = s.decoder := by
  fun_induction drain r eof s with
  | case1 s hnone => exact decoder_nextChunk s
  | case2 s value hsome rest last hdrain ih =>
    rw [hdrain] at ih
    exact ih.trans (decoder_nextChunk s)

/-- What reads have brought is what was given and what is still in the buffer. -/
lemma readAll_spec (hr : r.Incremental) (chunks : List (List UInt8)) (s : DecoderState σ)
    (hframe : s.frame = none) :
    (readAll r s chunks).2.frame = none ∧
    ∀ t, values r (s.buffer ++ ((r.decode s.decoder chunks.flatten).2 ++ t)) =
      (readAll r s chunks).1 ++ values r ((readAll r s chunks).2.buffer ++ t) := by
  induction chunks generalizing s with
  | nil =>
    refine ⟨hframe, fun t => ?_⟩
    rw [List.flatten_nil, hr.nil]
    rfl
  | cons chunk chunks ih =>
    obtain ⟨hahead, hclosed, -⟩ := @drain_spec _ r false (push r s chunk)
    obtain ⟨hlast, hrest⟩ := ih (drain r false (push r s chunk)).2 hclosed
    refine ⟨hlast, fun t => ?_⟩
    rw [decoder_drain] at hrest
    have hpushed := fun u => hahead u (fun h => absurd h Bool.false_ne_true)
    simp only [ahead, hclosed, Option.elim_none, List.nil_append] at hpushed
    rw [List.flatten_cons, hr.append, readAll]
    dsimp only
    rw [List.append_assoc, List.append_assoc, ← hrest, ← hpushed]
    show _ = (s.frame.elim [] (values r)) ++
      values r ((s.buffer ++ joinBreaks (r.decode s.decoder chunk).2) ++ _)
    rw [hframe, Option.elim_none, List.nil_append, List.append_assoc, values_joinBreaks]
    rfl

/-! ### The lines of the text -/

/-- A line as it is without the carriage return of its break. -/
def dropReturn (line : List Char) : List Char :=
  if line.getLast? = some '\r' then line.dropLast else line

/-- What the lines of a text say. -/
def said (r : Reading σ) (text : List Char) : List Value :=
  (text.splitOn '\n').filterMap fun line => lineValue r (dropReturn line)

lemma lineValue_dropReturn (line : List Char) : lineValue r (dropReturn line) = lineValue r line := by
  rw [dropReturn]
  split
  · rename_i hlast
    conv_rhs => rw [← List.dropLast_append_getLast? '\r' hlast]
    exact (lineValue_concat _).symm
  · rfl

/-- However an answer is cut into reads, its values are what the lines of its text say, as they are
when it comes in one read. -/
theorem decodeAll_eq (r : Reading σ) (decoder : σ) (hr : r.Incremental) (chunks : List (List UInt8)) :
    decodeAll r decoder chunks = said r (r.decode decoder chunks.flatten).2 ∧
    decodeAll r decoder chunks = decodeAll r decoder [chunks.flatten] := by
  have hsaid : ∀ chunks, decodeAll r decoder chunks = said r (r.decode decoder chunks.flatten).2 := by
    intro chunks
    obtain ⟨hframe, hread⟩ := readAll_spec hr chunks (start decoder) rfl
    obtain ⟨hahead, hclosed, hlast⟩ :=
      @drain_spec _ r true (readAll r (start decoder) chunks).2
    have hleft := hahead [] fun _ => rfl
    have hall := hread []
    rw [ahead, hframe, ahead, hclosed, List.append_nil, List.append_nil, hlast rfl,
      List.append_nil, Option.elim_none, List.nil_append, List.append_nil] at hleft
    rw [List.append_nil, List.append_nil] at hall
    have hsame : said r (r.decode decoder chunks.flatten).2 =
        values r (r.decode decoder chunks.flatten).2 := by
      rw [said, values]
      exact congrArg (fun f => List.filterMap f _) (funext lineValue_dropReturn)
    rw [hsame]
    show (readAll r (start decoder) chunks).1 ++ (drain r true _).1 = _
    rw [← hleft]
    exact hall.symm
  refine ⟨hsaid chunks, ?_⟩
  rw [hsaid chunks, hsaid [chunks.flatten], List.flatten_cons, List.flatten_nil, List.append_nil]

/-- A decoder of plain bytes and a parser of one text. -/
def plainReading : Reading Unit where
  decode := fun _ bytes => ((), bytes.map fun b => Char.ofNat b.toNat)
  parse := fun t => if t = ['1'] then some (.string "one") else none

/-- `data: 1`, a break that is cut in two, a blank line, and a last line without a break. -/
theorem decodeAll_eq_of_cut :
    decodeAll plainReading () [[100, 97, 116, 97, 58, 32, 49, 13], [10, 13, 10, 100, 97, 116],
      [97, 58, 49]] = [.string "one", .string "one"] := by
  have hincremental : plainReading.Incremental :=
    ⟨fun _ => rfl, fun _ xs ys => congrArg (Prod.mk ()) List.map_append⟩
  rw [(decodeAll_eq plainReading () hincremental _).1]
  rfl

end DecoderState

end Antigravity
