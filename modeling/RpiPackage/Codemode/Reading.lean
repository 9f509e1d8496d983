import Mathlib.Data.List.Perm.Subperm
import RpiPackage.Codemode.Bridge

/-!
# Reading from the host

The two loops that an untrusted host answers: the chunks of a retained result, and the pages of the
catalog. Each answer is accepted only if it goes on where the last one ended, and so both loops end
whatever the host says, and a result is read as a whole or not at all.
-/

namespace Codemode

open Json Result

namespace Bridge

/-! ### The catalog -/

def capabilities : List String :=
  ["resultEnvelope", "hostAccounting", "parentProgress", "losslessValues", "resultReferences",
    "contentAttachments"]

def listRequest (offset limit : Nat) : Value :=
  .object [("op", .string "list"), ("offset", natValue offset), ("limit", natValue limit)]

def checkTool (tool : Value) : Except String Unit :=
  failIf (((tool.get "name").bind Value.asStr).all (fun n => n = "" ∨ 200 < n.utf8ByteSize) ∨
      ((tool.get "description").bind Value.asStr) = none ∨
      (tool.get "parameters").any Value.isObject = false)
    "invalid tool catalog entry"

def catalogLimit : String := "invalid catalog nextOffset (extension catalog limit: 1024 entries)"

/-- Where the next page starts; the field is there even if there is none. -/
def nextOffset (page : Value) (offset : Nat) : Except String (Option Nat) :=
  match page.get "nextOffset" with
  | some .null => .ok none
  | some n =>
    match (asNat n).filter fun n => offset < n && n ≤ 1024 with
    | some n => .ok (some n)
    | none => .error catalogLimit
  | none => .error catalogLimit

def publicTool (tool : Value) : Value :=
  .object [("name", tool.index "name"), ("description", tool.index "description"),
    ("parameters", tool.index "parameters")]

/-- The tools of a page, without what else the host says of them, and where the next one starts. -/
def checkPage (page : Value) (offset limit : Nat) : Except String (List Value × Option Nat) := do
  failIf (maxJson < page.compactSize) "catalog page exceeds 1 MiB"
  failIf ((page.get "protocolVersion").bind asNat ≠ some 1)
    "unsupported ToolProgram protocol; host must implement v1"
  capabilities.forM fun capability =>
    failIf (asNat ((page.index "capabilities").index capability) ≠ some 1)
      ("ToolProgram requires capability " ++ capability ++ ":1; upgrade the host (no fallback)")
  let tools ← okOr ((page.get "tools").bind Value.asArray) "invalid catalog tools"
  failIf (limit < tools.length) "catalog page exceeds requested limit"
  failIf (1024 < offset + tools.length) "catalog exceeds extension limit: 1024 entries"
  tools.forM checkTool
  let next ← nextOffset page offset
  return (tools.map publicTool, next)

def listPage (host : Host) (s : Bridge) (offset limit : Nat) :
    Except String (List Value × Option Nat) × Bridge :=
  match s.action host (listRequest offset limit) with
  | (.error e, s) =>
    (.error ("ToolProgram (action 30) unavailable: " ++ e ++
      ". Upgrade to a host implementing protocol v1; no direct-call fallback."), s)
  | (.ok page, s) => (checkPage page offset limit, s)

lemma checkPage_next {page : Value} {offset limit next : Nat} {tools : List Value}
    (h : checkPage page offset limit = .ok (tools, some next)) : offset < next ∧ next ≤ 1024 := by
  unfold checkPage at h
  simp only [bind_eq_ok, pure_eq_ok, Except.ok.injEq, Prod.mk.injEq] at h
  obtain ⟨_, -, _, -, _, -, _, -, _, -, _, -, _, -, next', hnext, -, rfl⟩ := h
  unfold nextOffset at hnext
  split at hnext
  · cases hnext
  · split at hnext
    · next n hn =>
      obtain rfl := Option.some.inj (Except.ok.inj hnext)
      have hrange := (Option.mem_filter_iff.mp hn).2
      simpa using hrange
    · cases hnext
  · cases hnext

lemma listPage_next {host : Host} {s s' : Bridge} {offset limit next : Nat} {tools : List Value}
    (h : s.listPage host offset limit = (.ok (tools, some next), s')) :
    offset < next ∧ next ≤ 1024 := by
  unfold listPage at h
  split at h
  · cases h
  · exact checkPage_next (Prod.mk.inj h).1

/-- The catalog from an offset on, behind the tools of the pages before. -/
def catalogFrom (host : Host) (s : Bridge) (offset : Nat) (catalog : List Value) :
    Except String (List Value) × Bridge :=
  match s.check host with
  | (.error e, s) => (.error e, s)
  | (.ok (), s) =>
    match h : s.listPage host offset 32 with
    | (.error e, s) => (.error e, s)
    | (.ok (tools, next), s) =>
      if 1024 < (catalog ++ tools).length ∨
          maxJson < (Value.array (catalog ++ tools)).compactSize then
        (.error "full catalog budget exceeded", s)
      else match next, h with
        | some next, h =>
          have := listPage_next h
          catalogFrom host s next (catalog ++ tools)
        | none, _ => (.ok (catalog ++ tools), s)
termination_by 1024 - offset

/-- The start of `run`: the names that a program may call. -/
def loadCatalog (host : Host) (s : Bridge) : Except String Unit × Bridge :=
  andThen (s.catalogFrom host 0 []) fun catalog s =>
    (.ok (), { s with names := catalog.filterMap fun tool => (tool.index "name").asStr })

/-! ### Chunks -/

/-- A reply that carries the data of a result at an offset. -/
structure Accepts (reference : Reference) (offset : Nat) (reply : Value) (data : String) : Prop where
  frame : reply.compactSize ≤ maxJson
  carries : (reply.index "data").asStr = some data
  resultId : (reply.index "resultId").asStr = some reference.id
  start : asNat (reply.index "offset") = some offset
  byteLength : asNat (reply.index "byteLength") = some reference.bytes
  nonempty : data ≠ ""
  short : data.utf8ByteSize ≤ 65536
  inside : offset + data.utf8ByteSize ≤ reference.bytes
  noResult : reply.get "result" = none
  noReference : reply.get "resultReference" = none
  cursor : if offset + data.utf8ByteSize = reference.bytes then reply.get "nextOffset" = some .null
    else asNat (reply.index "nextOffset") = some (offset + data.utf8ByteSize)

/-- Requests for consecutive chunks from an offset on, each with a reply that was accepted, and the
text that they add up to. -/
inductive Reads (reference : Reference) : Nat → List Exchange → String → Prop
  | nil (offset : Nat) : Reads reference offset [] ""
  | cons {offset : Nat} {reply : Value} {data text : String} {reads : List Exchange}
      (accepts : Accepts reference offset reply data)
      (rest : Reads reference (offset + data.utf8ByteSize) reads text) :
      Reads reference offset (⟨readRequest reference.id offset, .ok reply⟩ :: reads) (data ++ text)

/-- A value that has what the manifest of a result says. -/
structure Agrees (reference : Reference) (value : Value) : Prop where
  object : value.isObject = true
  blocks : (value.index "content").asArray.map List.length = some reference.blocks
  terminate : isTrue (value.index "terminate") = reference.terminate
  isError : value.get "isError" = none ∨ value.get "isError" = some (.bool reference.isError)

section

variable {fromStr : String → Option Value} {host : Host} {s s' : Bridge} {reference : Reference}
  {offset token : Nat} {reply value : Value} {data text : String} {reads : List Exchange}

lemma exchanges_of_check {r : Except String Unit} (h : s.check host = (r, s')) :
    s'.exchanges = s.exchanges := by
  obtain rfl : (s.check host).2 = s' := congrArg Prod.snd h
  rfl

lemma exchanges_of_action {request : Value} {r : Except String Value}
    (h : s.action host request = (r, s')) :
    s'.exchanges = s.exchanges ++ [⟨request, r⟩] := by
  obtain rfl : (s.action host request).1 = r := congrArg Prod.fst h
  obtain rfl : (s.action host request).2 = s' := congrArg Prod.snd h
  rfl

lemma any_isNull {o : Option Value} : o.any Value.isNull = true ↔ o = some .null := by
  cases o with
  | none => simp
  | some v => cases v <;> simp [Value.isNull]

lemma chunk_eq_ok : chunk reference offset reply = .ok data ↔ Accepts reference offset reply data := by
  unfold chunk
  rw [check_bind_eq_ok, failIf_eq_ok, not_lt, bind_eq_ok]
  constructor
  · rintro ⟨hframe, data', hdata, h⟩
    rw [check_bind_eq_ok, failIf_eq_ok, pure_eq_ok, Except.ok.injEq] at h
    obtain ⟨hchecks, rfl⟩ := h
    simp only [not_or, not_not, not_lt, Option.not_isSome_iff_eq_none] at hchecks
    obtain ⟨hid, hoffset, hbytes, hne, hshort, hinside, hresult, hreference, hcursor⟩ := hchecks
    refine ⟨hframe, okOr_eq_ok.mp hdata, hid, hoffset, hbytes, hne, hshort, hinside, hresult,
      hreference, ?_⟩
    split
    · next hlast =>
      rw [if_pos hlast, Bool.not_eq_false] at hcursor
      exact any_isNull.mp hcursor
    · next hlast =>
      rw [if_neg hlast, not_not] at hcursor
      exact hcursor
  · intro h
    refine ⟨h.frame, data, okOr_eq_ok.mpr h.carries, ?_⟩
    rw [check_bind_eq_ok, failIf_eq_ok, pure_eq_ok]
    simp only [not_or, not_not, not_lt, Option.not_isSome_iff_eq_none]
    refine ⟨⟨h.resultId, h.start, h.byteLength, h.nonempty, h.short, h.inside, h.noResult, h.noReference, ?_⟩,
      trivial⟩
    have hcursor := h.cursor
    split
    · next hlast =>
      rw [if_pos hlast] at hcursor
      rw [Bool.not_eq_false]
      exact any_isNull.mpr hcursor
    · next hlast =>
      rw [if_neg hlast] at hcursor
      rw [not_not]
      exact hcursor

lemma size_pos_of_ne_empty (h : text ≠ "") : 0 < text.utf8ByteSize :=
  Nat.pos_of_ne_zero fun hzero => h (String.utf8ByteSize_eq_zero_iff.mp hzero)

lemma Reads.length_le (h : Reads reference offset reads text) :
    reads.length ≤ text.utf8ByteSize := by
  induction h with
  | nil => exact Nat.zero_le _
  | cons accepts _ ih =>
    have hpos := size_pos_of_ne_empty accepts.nonempty
    rw [List.length_cons, String.utf8ByteSize_append]
    omega

/-- Whatever the host answers, a read asks for chunks that follow each other, for each only after
the ones before it were accepted, and gives a text only if all of it was accepted. -/
lemma readFrom_spec (hoffset : offset ≤ reference.bytes) :
    ∃ accepted last read,
      (s.readFrom host reference offset text).2.exchanges = s.exchanges ++ (accepted ++ last) ∧
      Reads reference offset accepted read ∧ offset + read.utf8ByteSize ≤ reference.bytes ∧
      ((last = [] ∧ (s.readFrom host reference offset text).1 = .ok (text ++ read) ∧
          offset + read.utf8ByteSize = reference.bytes) ∨
        ((∃ e, (s.readFrom host reference offset text).1 = .error e) ∧
          (last = [] ∨ offset + read.utf8ByteSize < reference.bytes ∧
            ∃ reply, last = [⟨readRequest reference.id (offset + read.utf8ByteSize), reply⟩]))) := by
  fun_induction readFrom host s reference offset text with
  | case1 s offset text hlt e s₁ hcheck =>
    refine ⟨[], [], "", ?_, .nil _, by simpa using hoffset, .inr ⟨⟨e, rfl⟩, .inl rfl⟩⟩
    rw [exchanges_of_check hcheck, List.append_nil, List.append_nil]
  | case2 s offset text hlt s₁ hcheck e s₂ haction =>
    refine ⟨[], [⟨readRequest reference.id offset, .error e⟩], "", ?_, .nil _,
      by simpa using hoffset, .inr ⟨⟨e, rfl⟩, .inr ⟨by simpa using hlt, _, rfl⟩⟩⟩
    rw [exchanges_of_action haction, exchanges_of_check hcheck, List.nil_append]
  | case3 s offset text hlt s₁ hcheck reply s₂ haction e s₃ hcheck' =>
    refine ⟨[], [⟨readRequest reference.id offset, .ok reply⟩], "", ?_, .nil _,
      by simpa using hoffset, .inr ⟨⟨e, rfl⟩, .inr ⟨by simpa using hlt, _, rfl⟩⟩⟩
    rw [exchanges_of_check hcheck', exchanges_of_action haction, exchanges_of_check hcheck,
      List.nil_append]
  | case4 s offset text hlt s₁ hcheck reply s₂ haction s₃ hcheck' e hchunk =>
    refine ⟨[], [⟨readRequest reference.id offset, .ok reply⟩], "", ?_, .nil _,
      by simpa using hoffset, .inr ⟨⟨e, rfl⟩, .inr ⟨by simpa using hlt, _, rfl⟩⟩⟩
    rw [exchanges_of_check hcheck', exchanges_of_action haction, exchanges_of_check hcheck,
      List.nil_append]
  | case5 s offset text hlt s₁ hcheck reply s₂ haction s₃ hcheck' data hchunk _ ih =>
    have haccepts := chunk_eq_ok.mp hchunk
    obtain ⟨accepted, last, read, hexchanges, hreads, hinside, hresult⟩ := ih haccepts.inside
    refine ⟨⟨readRequest reference.id offset, .ok reply⟩ :: accepted, last, data ++ read, ?_,
      .cons haccepts hreads, ?_, ?_⟩
    · rw [hexchanges, exchanges_of_check hcheck', exchanges_of_action haction,
        exchanges_of_check hcheck, List.append_assoc]
      rfl
    · rw [String.utf8ByteSize_append]
      omega
    · rw [String.utf8ByteSize_append, ← Nat.add_assoc, ← String.append_assoc]
      exact hresult
  | case6 s offset text hlt =>
    refine ⟨[], [], "", (List.append_nil _).symm, .nil _, by simpa using hoffset, .inl ⟨rfl, ?_, ?_⟩⟩
    · rw [String.append_empty]
    · show offset + 0 = _
      omega

lemma exists_bool {v : Value} {b : Bool} (h : v.asBool = some b) : v = .bool b := by
  cases v with
  | bool b' => rw [Option.some.inj h]
  | null | number | string | array | object => cases h

lemma Agrees.of_agrees (h : agrees reference value = true) : Agrees reference value := by
  unfold agrees at h
  simp only [Bool.and_eq_true, beq_iff_eq] at h
  obtain ⟨⟨⟨⟨hobject, hblocks⟩, hterminate⟩, hset⟩, hisError⟩ := h
  refine ⟨hobject, hblocks, ?_, ?_⟩
  · cases hget : value.get "terminate" with
    | none => simpa [Value.index, hget, isTrue] using hset
    | some v =>
      rw [hget, Option.all_some, beq_iff_eq] at hterminate
      rw [Value.index, hget, Option.getD_some, exists_bool hterminate]
      cases reference.terminate <;> rfl
  · cases hget : value.get "isError" with
    | none => exact .inl rfl
    | some v =>
      rw [hget, Option.all_some, beq_iff_eq] at hisError
      rw [exists_bool hisError]
      exact .inr rfl

/-- What a read of a retained result comes to. It asks for no more chunks than the result has bytes,
each chunk that was accepted starts where the one before it ended, and either all that was asked for
was accepted and makes up a whole result as its manifest describes it, or the error stays. -/
def ReadOutcome (fromStr : String → Option Value) (reference : Reference) (s : Bridge)
    (r : Except String String × Bridge) : Prop :=
  ∃ accepted last read, r.2.exchanges = s.exchanges ++ (accepted ++ last) ∧
    (accepted ++ last).length ≤ reference.bytes ∧ Reads reference 0 accepted read ∧
    ((last = [] ∧ r.1 = .ok read ∧ read.utf8ByteSize = reference.bytes ∧
        ∃ value, fromStr read = some value ∧ Agrees reference value) ∨
      ((∃ e, r.1 = .error e ∧ r.2.fatal = some e) ∧ last.length ≤ 1 ∧
        ∀ exchange ∈ last, exchange.request = readRequest reference.id read.utf8ByteSize))

lemma readReference_outcome (hget : s.references.get token = some reference) :
    ReadOutcome fromStr reference s (s.readReference fromStr host token true) := by
  unfold readReference
  cases hcheck : s.check host with
  | mk r s₁ =>
    have hlog := exchanges_of_check hcheck
    have hget' : s₁.references.get token = some reference := by
      obtain rfl : (s.check host).2 = s₁ := congrArg Prod.snd hcheck
      exact hget
    cases r with
    | error e =>
      refine ⟨[], [], "", ?_, Nat.zero_le _, .nil _, .inr ⟨⟨e, rfl, rfl⟩, Nat.zero_le _, ?_⟩⟩
      · rw [List.append_nil, List.append_nil]
        exact hlog
      · intro exchange hmem
        cases hmem
    | ok u =>
      obtain ⟨accepted, last, read, hexchanges, hreads, hinside, hresult⟩ :=
        @readFrom_spec host s₁ reference 0 "" (Nat.zero_le reference.bytes)
      rw [Nat.zero_add] at hinside hresult
      simp only [andThen, hget', if_neg (show ¬true = false by decide)]
      cases hread : s₁.readFrom host reference 0 "" with
      | mk r s₂ =>
        rw [hread] at hexchanges hresult
        have hlength := hreads.length_le
        rcases hresult with ⟨rfl, hok, hsize⟩ | ⟨⟨e, herror⟩, hlast⟩
        · obtain rfl : r = .ok read := by rw [show r = _ from hok, String.empty_append]
          rw [List.append_nil, hlog] at hexchanges
          have herrors : ∀ e s₃, s₃.exchanges = s₂.exchanges →
              ReadOutcome fromStr reference s (latch (.error e, s₃)) := by
            intro e s₃ hsame
            refine ⟨accepted, [], read, ?_, ?_, hreads, .inr ⟨⟨e, rfl, rfl⟩, Nat.zero_le _, ?_⟩⟩
            · rw [List.append_nil]
              exact hsame.trans hexchanges
            · rw [List.append_nil]
              omega
            · intro exchange hmem
              cases hmem
          show ReadOutcome fromStr reference s (latch (andThen (s₂.check host) _))
          cases hcheck' : s₂.check host with
          | mk r s₃ =>
            have hsame := exchanges_of_check hcheck'
            cases r with
            | error e => exact herrors e s₃ hsame
            | ok u =>
              dsimp only [andThen]
              cases hparse : fromStr read with
              | none => exact herrors _ s₃ hsame
              | some value =>
                dsimp only
                by_cases hagrees : agrees reference value = false
                · rw [if_pos hagrees]
                  exact herrors _ s₃ hsame
                · rw [if_neg hagrees]
                  refine ⟨accepted, [], read, ?_, ?_, hreads,
                    .inl ⟨rfl, rfl, hsize, value, hparse, .of_agrees ?_⟩⟩
                  · rw [List.append_nil]
                    exact hsame.trans hexchanges
                  · rw [List.append_nil]
                    omega
                  · rwa [Bool.not_eq_false] at hagrees
        · obtain rfl : r = .error e := herror
          refine ⟨accepted, last, read, ?_, ?_, hreads, .inr ⟨⟨e, rfl, rfl⟩, ?_, ?_⟩⟩
          · rw [← hlog]
            exact hexchanges
          · rw [List.length_append]
            rcases hlast with rfl | ⟨hlt, reply, rfl⟩
            · rw [List.length_nil]
              omega
            · rw [List.length_singleton]
              omega
          · rcases hlast with rfl | ⟨hlt, reply, rfl⟩
            · exact Nat.zero_le 1
            · exact Nat.le_refl 1
          · intro exchange hmem
            rcases hlast with rfl | ⟨hlt, reply, rfl⟩
            · cases hmem
            · rw [List.mem_singleton.mp hmem]

/-! ### Pages -/

variable {limit : Nat} {catalog : List Value}

/-- A page is one request, whatever comes of it. -/
lemma exchanges_listPage {r : Except String (List Value × Option Nat)} {s₁ : Bridge}
    {u : Except String Unit} (hcheck : s.check host = (u, s₁))
    (hlist : s₁.listPage host offset limit = (r, s')) :
    ∃ reply, s'.exchanges = s.exchanges ++ [⟨listRequest offset limit, reply⟩] := by
  rw [← exchanges_of_check hcheck]
  unfold listPage at hlist
  split at hlist
  · next e s₂ haction =>
    obtain rfl := (Prod.mk.inj hlist).2
    exact ⟨_, exchanges_of_action haction⟩
  · next page s₂ haction =>
    obtain rfl := (Prod.mk.inj hlist).2
    exact ⟨_, exchanges_of_action haction⟩

/-- The pages of the catalog are asked for at ever greater offsets. -/
lemma catalogFrom_spec : ∃ (pages : List Exchange) (offsets : List Nat),
    (s.catalogFrom host offset catalog).2.exchanges = s.exchanges ++ pages ∧
      pages.map Exchange.request = offsets.map (listRequest · 32) ∧ offsets.Pairwise (· < ·) ∧
      ∀ o ∈ offsets, offset ≤ o ∧ (o = offset ∨ o ≤ 1024) := by
  fun_induction catalogFrom host s offset catalog with
  | case1 s offset catalog e s₁ hcheck =>
    exact ⟨[], [], by rw [exchanges_of_check hcheck, List.append_nil], rfl, .nil, by simp⟩
  | case2 s offset catalog s₁ hcheck e s₂ hlist =>
    obtain ⟨reply, hlog⟩ := exchanges_listPage hcheck hlist
    exact ⟨_, [offset], hlog, rfl, List.pairwise_singleton _ _, by simp⟩
  | case3 s offset catalog s₁ hcheck tools next s₂ hlist hbudget =>
    obtain ⟨reply, hlog⟩ := exchanges_listPage hcheck hlist
    exact ⟨_, [offset], hlog, rfl, List.pairwise_singleton _ _, by simp⟩
  | case4 s offset catalog s₁ hcheck tools s₂ hbudget next hlist hrange _ ih =>
    obtain ⟨reply, hlog⟩ := exchanges_listPage hcheck hlist
    obtain ⟨pages, offsets, hexchanges, hrequests, hpairwise, hoffsets⟩ := ih
    refine ⟨⟨listRequest offset 32, reply⟩ :: pages, offset :: offsets, ?_, ?_, ?_, ?_⟩
    · rw [hexchanges, hlog, List.append_assoc]
      rfl
    · rw [List.map_cons, List.map_cons, hrequests]
    · refine List.pairwise_cons.mpr ⟨fun o ho => ?_, hpairwise⟩
      exact hrange.1.trans_le (hoffsets o ho).1
    · intro o ho
      rcases List.mem_cons.mp ho with rfl | ho
      · exact ⟨Nat.le_refl _, .inl rfl⟩
      · obtain ⟨hle, hlast⟩ := hoffsets o ho
        refine ⟨hrange.1.le.trans hle, .inr ?_⟩
        rcases hlast with rfl | hlast
        · exact hrange.2
        · exact hlast
  | case5 s offset catalog s₁ hcheck tools s₂ hbudget hlist =>
    obtain ⟨reply, hlog⟩ := exchanges_listPage hcheck hlist
    exact ⟨_, [offset], hlog, rfl, List.pairwise_singleton _ _, by simp⟩

lemma exchanges_loadCatalog :
    (s.loadCatalog host).2.exchanges = (s.catalogFrom host 0 []).2.exchanges := by
  unfold loadCatalog
  cases s.catalogFrom host 0 [] with
  | mk r s' => cases r <;> rfl

end

/-- Both loops end for every host. A retained result is read with at most as many requests as it has
bytes, as a whole that its manifest describes, or not at all; and the catalog is read with at most
1025 requests, each at a greater offset than the one before. -/
theorem readReference_catalog_spec (fromStr : String → Option Value) (host : Host) (s : Bridge)
    (token : Nat) (reference : Reference) (hget : s.references.get token = some reference) :
    ReadOutcome fromStr reference s (s.readReference fromStr host token true) ∧
      ∃ (pages : List Exchange) (offsets : List Nat),
        (s.loadCatalog host).2.exchanges = s.exchanges ++ pages ∧
          pages.map Exchange.request = offsets.map (listRequest · 32) ∧
            offsets.Pairwise (· < ·) ∧ offsets.length ≤ 1025 := by
  refine ⟨readReference_outcome hget, ?_⟩
  obtain ⟨pages, offsets, hexchanges, hrequests, hpairwise, hoffsets⟩ :=
    @catalogFrom_spec host s 0 []
  refine ⟨pages, offsets, exchanges_loadCatalog.trans hexchanges, hrequests, hpairwise, ?_⟩
  have hsubset : offsets ⊆ List.range 1025 := by
    intro o ho
    rw [List.mem_range]
    rcases (hoffsets o ho).2 with h | h <;> omega
  have hnodup : offsets.Nodup := hpairwise.imp fun h => Nat.ne_of_lt h
  simpa using (List.subperm_of_subset hnodup hsubset).length_le

/-- A host that is never in a hurry and answers each request in one way. -/
def steadyHost (reply : Value → Except String Value) : Host where
  reply := fun _ request => reply request
  flags := fun _ => ⟨false, false, false⟩
  millis := fun _ => 30000
  cancelled_sticky := fun _ _ _ h => h
  late_sticky := fun _ _ _ h => h
  memory_sticky := fun _ _ _ h => h

def emptyResult : String := "\x7b\"content\":[]\x7d"

def parseEmptyResult (text : String) : Option Value :=
  if text = emptyResult then some (.object [("content", .array [])]) else none

def wholeChunk : Value :=
  .object [("resultId", .string "r"), ("offset", natValue 0), ("byteLength", natValue 14),
    ("data", .string emptyResult), ("nextOffset", .null)]

def sampleReference : Reference := ⟨"r", 14, 0, false, false⟩

def retaining : Bridge := { new with references := Table.empty.put 1 sampleReference }

theorem readReference_of_chunk :
    retaining.references.get 1 = some sampleReference ∧
      ReadOutcome parseEmptyResult sampleReference retaining
        (retaining.readReference parseEmptyResult (steadyHost fun _ => .ok wholeChunk) 1 true) ∧
      (retaining.readReference parseEmptyResult (steadyHost fun _ => .ok wholeChunk) 1 true).1 =
        .ok emptyResult := by
  have hget : retaining.references.get 1 = some sampleReference := rfl
  refine ⟨hget, (readReference_catalog_spec _ _ _ _ _ hget).1, ?_⟩
  decide +kernel

end Bridge

end Codemode
