import RpiPackage.Lib.Result
import RpiPackage.Lib.Utf8Bytes

/-!
# The events of an HTTP response

The decoder of a server-sent event stream, which is fed with the chunks of a response as they
arrive. Cut anywhere, in a character, between the two bytes of a line break or in a byte order
mark, a stream gives the events of its lines.
-/

namespace Mcp

open Result

/-- `first` holds once a line has been read; `skipLf` after a carriage return. -/
structure SseDecoder where
  buffer : List UInt8
  data : List String
  first : Bool
  skipLf : Bool
  deriving DecidableEq, Repr

namespace SseDecoder

def default : SseDecoder := ⟨[], [], false, false⟩

def lf : UInt8 := 10
def cr : UInt8 := 13
def bom : Char := Char.ofNat 0xfeff

def fromUtf8 (bytes : List UInt8) : Option String := String.fromUTF8? bytes.toByteArray

def trimBoms (line : String) : String := String.ofList (line.toList.dropWhile (· == bom))

/-- What a line adds to the data of an event. -/
def dataOf (line : String) : Option String :=
  match Rust.stripPrefix line "data:" with
  | some data => some ((Rust.stripPrefix data " ").getD data)
  | none => if line = "data" then some "" else none

/-- A line has been read. -/
def endLine (d : SseDecoder) (line : String) : SseDecoder × List String :=
  if line = "" then
    if d.data = [] then (d, []) else ({ d with data := [] }, [String.intercalate "\n" d.data])
  else ({ d with data := d.data ++ (dataOf line).toList }, [])

/-- A byte that is not skipped. The text of an error is that of the library. -/
def take (describe : List UInt8 → String) (d : SseDecoder) (byte : UInt8) :
    Except String (SseDecoder × List String) :=
  if byte = lf ∨ byte = cr then do
    let line ← okOr (fromUtf8 d.buffer) s!"invalid SSE UTF-8: {describe d.buffer}"
    let line := if d.first then line else trimBoms line
    return ({ d with buffer := [], first := true, skipLf := byte == cr }).endLine line
  else return ({ d with buffer := d.buffer ++ [byte] }, [])

def feedByte (describe : List UInt8 → String) (d : SseDecoder) (byte : UInt8) :
    Except String (SseDecoder × List String) :=
  if d.skipLf then
    if byte = lf then .ok ({ d with skipLf := false }, [])
    else ({ d with skipLf := false }).take describe byte
  else d.take describe byte

def feed (describe : List UInt8 → String) (d : SseDecoder) :
    List UInt8 → Except String (SseDecoder × List String)
  | [] => .ok (d, [])
  | byte :: bytes => do
    let (d, events) ← feedByte describe d byte
    let (d, rest) ← feed describe d bytes
    return (d, events ++ rest)

/-- The chunks of a response, one after the other. -/
def feedAll (describe : List UInt8 → String) (d : SseDecoder) :
    List (List UInt8) → Except String (SseDecoder × List String)
  | [] => .ok (d, [])
  | chunk :: chunks => do
    let (d, events) ← feed describe d chunk
    let (d, rest) ← feedAll describe d chunks
    return (d, events ++ rest)

end SseDecoder

/-! ### What a stream says -/

namespace EventStream

open SseDecoder (lf cr dataOf)

/-- The lines that end in a stream, at a carriage return, a line feed or the two of them; the first
of them begins with what is there already. -/
def lines (line : List UInt8) : List UInt8 → List (List UInt8)
  | [] => []
  | byte :: bytes =>
    if byte = lf then line :: lines [] bytes
    else if byte = cr then
      match bytes with
      | [] => [line]
      | next :: rest => line :: (if next = lf then lines [] rest else lines [] (next :: rest))
    else lines (line ++ [byte]) bytes

/-- The events that end at a blank line; the first of them begins with the data there already. -/
def events (data : List String) : List String → List String
  | [] => []
  | line :: lines =>
    if line = "" then
      if data = [] then events [] lines else String.intercalate "\n" data :: events [] lines
    else events (data ++ (dataOf line).toList) lines

/-- The lines of a stream, the first without the marks it begins with. -/
def unmarked (strip : String → String) : List String → List String
  | [] => []
  | line :: lines => strip line :: lines

end EventStream

namespace SseDecoder

variable {describe : List UInt8 → String} {d d' : SseDecoder} {bytes : List UInt8}
  {ls : List String}

/-- What a decoder still reads of the bytes that come. -/
def pending (d : SseDecoder) (bytes : List UInt8) : List UInt8 :=
  if d.skipLf ∧ bytes.head? = some lf then bytes.tail else bytes

/-- The lines that a decoder reads out of them. -/
def texts (d : SseDecoder) (bytes : List UInt8) : Option (List String) :=
  ((EventStream.lines d.buffer (d.pending bytes)).mapM fromUtf8).map fun lines =>
    if d.first then lines else EventStream.unmarked trimBoms lines

lemma lines_cr (line bytes : List UInt8) : EventStream.lines line (cr :: bytes) =
    line :: EventStream.lines [] (if bytes.head? = some lf then bytes.tail else bytes) := by
  cases bytes with
  | nil => simp [EventStream.lines, lf, cr]
  | cons next rest =>
    rw [EventStream.lines, if_neg (by decide), if_pos rfl]
    by_cases h : next = lf
    · simp [h]
    · simp [h]

/-- A break ends the line that was begun; what is left to read depends on the break. -/
lemma lines_break {line bytes : List UInt8} {byte : UInt8} (h : byte = lf ∨ byte = cr) :
    EventStream.lines line (byte :: bytes) =
      line :: EventStream.lines [] (({ d with skipLf := byte == cr } : SseDecoder).pending bytes) := by
  rcases h with rfl | rfl
  · have hpending : ({ d with skipLf := lf == cr } : SseDecoder).pending bytes = bytes :=
      if_neg fun h => absurd (show (lf == cr) = true from h.1) (by decide)
    rw [hpending]
    cases bytes <;> rfl
  · rw [lines_cr]
    simp [pending]

lemma lines_other {line bytes : List UInt8} {byte : UInt8} (h : ¬(byte = lf ∨ byte = cr)) :
    EventStream.lines line (byte :: bytes) = EventStream.lines (line ++ [byte]) bytes := by
  rw [not_or] at h
  cases bytes <;> simp only [EventStream.lines, if_neg h.1, if_neg h.2]

lemma feedByte_of_skip {byte : UInt8} (hskip : d.skipLf = true) (hbyte : byte = lf) :
    feedByte describe d byte = .ok ({ d with skipLf := false }, []) := by
  rw [feedByte, if_pos hskip, if_pos hbyte]

lemma feedByte_of_not_skip {byte : UInt8} (h : ¬(d.skipLf = true ∧ byte = lf)) :
    feedByte describe d byte = ({ d with skipLf := false } : SseDecoder).take describe byte := by
  rw [feedByte]
  split
  · rename_i hskip
    rw [if_neg fun hbyte => h ⟨hskip, hbyte⟩]
  · rename_i hskip
    rw [Bool.not_eq_true] at hskip
    rw [← hskip]

/-- What reading one line does to the events. -/
lemma events_endLine (d : SseDecoder) (line : String) (rest : List String) :
    EventStream.events d.data (line :: rest) =
      (d.endLine line).2 ++ EventStream.events (d.endLine line).1.data rest := by
  rw [EventStream.events, endLine]
  split
  · split
    · rename_i hdata
      simp [hdata]
    · rfl
  · rfl

/-- Reading on at a break: the line that ends there and what comes after it. -/
lemma texts_break {byte : UInt8} (hskip : d.skipLf = false) (hbyte : byte = lf ∨ byte = cr)
    (h : d.texts (byte :: bytes) = some ls) :
    ∃ line rest, fromUtf8 d.buffer = some line ∧
      (⟨[], d.data, true, byte == cr⟩ : SseDecoder).texts bytes = some rest ∧
      ls = (if d.first then line else trimBoms line) :: rest := by
  have hpending : d.pending (byte :: bytes) = byte :: bytes := if_neg fun h => by simp [hskip] at h
  rw [texts, hpending, @lines_break d _ _ _ hbyte, List.mapM_cons] at h
  obtain ⟨all, hall, rfl⟩ := Option.map_eq_some_iff.mp h
  obtain ⟨line, hline, hmore⟩ := Option.bind_eq_some_iff.mp hall
  obtain ⟨rest, hrest, heq⟩ := Option.bind_eq_some_iff.mp hmore
  obtain rfl := Option.some.inj heq
  refine ⟨line, rest, hline, Option.map_eq_some_iff.mpr ⟨rest, hrest, rfl⟩, ?_⟩
  cases d.first <;> rfl

/-- What is read further does not depend on the data. -/
lemma texts_endLine (line : String) : (d.endLine line).1.texts bytes = d.texts bytes := by
  rw [endLine]
  split
  · split <;> rfl
  · rfl

lemma take_break {byte : UInt8} {line : String} (hbyte : byte = lf ∨ byte = cr)
    (hline : fromUtf8 d.buffer = some line) :
    d.take describe byte = .ok ((⟨[], d.data, true, byte == cr⟩ : SseDecoder).endLine
      (if d.first then line else trimBoms line)) := by
  rw [take, if_pos hbyte, hline]
  rfl

lemma feed_cons {byte : UInt8} {p q : SseDecoder × List String}
    (hbyte : feedByte describe d byte = .ok p) (hrest : feed describe p.1 bytes = .ok q) :
    feed describe d (byte :: bytes) = .ok (q.1, p.2 ++ q.2) := by
  rw [feed, hbyte]
  show (feed describe p.1 bytes).bind _ = _
  rw [hrest]
  rfl

/-- The bytes of a stream give the events of the lines that end in it. -/
lemma feed_spec (h : d.texts bytes = some ls) :
    ∃ d', feed describe d bytes = .ok (d', EventStream.events d.data ls) := by
  induction bytes generalizing d ls with
  | nil =>
    have hnone : d.pending [] = [] := by simp [pending]
    rw [texts, hnone] at h
    obtain rfl : ls = [] := by
      cases hfirst : d.first <;> simpa [EventStream.lines, EventStream.unmarked, hfirst] using h.symm
    exact ⟨d, rfl⟩
  | cons byte bytes ih =>
    by_cases hskip : d.skipLf = true ∧ byte = lf
    · have hpending : d.pending (byte :: bytes) = bytes := by
        rw [pending, if_pos ⟨hskip.1, by simp [hskip.2]⟩, List.tail_cons]
      have htexts : ({ d with skipLf := false } : SseDecoder).texts bytes = some ls := by
        rw [texts, hpending] at h
        exact h
      obtain ⟨d', hfeed⟩ := ih htexts
      exact ⟨d', feed_cons (feedByte_of_skip hskip.1 hskip.2) hfeed⟩
    · have hpending : d.pending (byte :: bytes) = byte :: bytes := by
        refine if_neg fun h => hskip ⟨h.1, ?_⟩
        exact Option.some.inj h.2
      have htexts : ({ d with skipLf := false } : SseDecoder).texts (byte :: bytes) = some ls := by
        rw [texts, hpending] at h
        exact h
      have hbyteq := @feedByte_of_not_skip describe d byte hskip
      by_cases hbyte : byte = lf ∨ byte = cr
      · obtain ⟨line, rest, hline, hrest, rfl⟩ := texts_break rfl hbyte htexts
        rw [take_break hbyte hline] at hbyteq
        obtain ⟨d', hfeed⟩ := ih ((texts_endLine _).trans hrest)
        refine ⟨d', ?_⟩
        rw [feed_cons hbyteq hfeed]
        exact congrArg (fun events => Except.ok (d', events)) (events_endLine _ _ rest).symm
      · rw [take, if_neg hbyte] at hbyteq
        have hrest : (⟨d.buffer ++ [byte], d.data, d.first, false⟩ : SseDecoder).texts bytes =
            some ls := by
          rw [← htexts, texts, texts]
          have hpending' : ({ d with skipLf := false } : SseDecoder).pending (byte :: bytes) =
              byte :: bytes := if_neg fun h => absurd h.1 Bool.false_ne_true
          rw [hpending', lines_other hbyte]
          rfl
        obtain ⟨d', hfeed⟩ := ih hrest
        exact ⟨d', feed_cons hbyteq hfeed⟩

/-- Chunks are read as the stream that they are pieces of. -/
lemma feed_append (xs ys : List UInt8) : feed describe d (xs ++ ys) = do
    let (d', events) ← feed describe d xs
    let (d'', rest) ← feed describe d' ys
    return (d'', events ++ rest) := by
  induction xs generalizing d with
  | nil =>
    show feed describe d ys = (feed describe d ys).bind _
    cases feed describe d ys with
    | error e => rfl
    | ok p => rfl
  | cons x xs ih =>
    rw [List.cons_append, feed, feed]
    cases feedByte describe d x with
    | error e => rfl
    | ok p =>
      show (feed describe p.1 (xs ++ ys)).bind _ = ((feed describe p.1 xs).bind _).bind _
      rw [ih]
      cases feed describe p.1 xs with
      | error e => rfl
      | ok q =>
        show ((feed describe q.1 ys).bind _).bind _ = (feed describe q.1 ys).bind _
        cases feed describe q.1 ys with
        | error e => rfl
        | ok r =>
          show Except.ok (r.1, p.2 ++ (q.2 ++ r.2)) = .ok (r.1, p.2 ++ q.2 ++ r.2)
          rw [List.append_assoc]

lemma feedAll_eq (chunks : List (List UInt8)) :
    feedAll describe d chunks = feed describe d chunks.flatten := by
  induction chunks generalizing d with
  | nil => rfl
  | cons chunk chunks ih =>
    rw [List.flatten_cons, feed_append, feedAll]
    cases feed describe d chunk with
    | error e => rfl
    | ok p =>
      show (feedAll describe p.1 chunks).bind _ = (feed describe p.1 chunks.flatten).bind _
      rw [ih]

/-- However a stream is cut, the decoder gives the events of its lines, of which the first is read
without the byte order marks it begins with. -/
theorem feedAll_spec (describe : List UInt8 → String) (chunks : List (List UInt8))
    (ls : List String) (h : (EventStream.lines [] chunks.flatten).mapM fromUtf8 = some ls) :
    (feedAll describe default chunks).map Prod.snd =
      .ok (EventStream.events [] (EventStream.unmarked trimBoms ls)) := by
  have hpending : default.pending chunks.flatten = chunks.flatten :=
    if_neg fun h => absurd h.1 Bool.false_ne_true
  have htexts : default.texts chunks.flatten = some (EventStream.unmarked trimBoms ls) := by
    rw [texts, hpending]
    show ((EventStream.lines [] chunks.flatten).mapM fromUtf8).map _ = _
    rw [h]
    rfl
  obtain ⟨d', hfeed⟩ := @feed_spec describe default chunks.flatten _ htexts
  rw [feedAll_eq, hfeed]
  rfl

/-- `data: 你` with its line break and a blank line, cut within the character and within the break. -/
theorem feedAll_spec_of_cuts :
    (feedAll (fun _ => "") default
      [[100, 97, 116, 97, 58, 32, 0xe4, 0xbd], [0xa0, 13], [10, 13], [10]]).map Prod.snd =
        .ok ["你"] :=
  feedAll_spec _ _ ["data: 你", ""] (by decide +kernel)

/-- The bytes of two byte order marks, of a line of data and of a blank line. -/
def twoMarks : List UInt8 :=
  [0xef, 0xbb, 0xbf, 0xef, 0xbb, 0xbf, 100, 97, 116, 97, 58, 32, 120, 10, 10]

/-- With just one mark stripped the stream would have no line of data. -/
theorem feedAll_twoMarks :
    (feedAll (fun _ => "") default [twoMarks]).map Prod.snd = .ok ["x"] ∧
    ((EventStream.lines [] twoMarks).mapM fromUtf8).map (fun ls => EventStream.events []
      (EventStream.unmarked (fun line => (Rust.stripPrefix line "\ufeff").getD line) ls)) =
        some [] := by
  have hlines : (EventStream.lines [] twoMarks).mapM fromUtf8 = some ["\ufeff\ufeffdata: x", ""] := by
    decide +kernel
  constructor
  · decide +kernel
  · rw [hlines]
    decide +kernel

end SseDecoder

end Mcp
