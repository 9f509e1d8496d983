import RpiPackage.Timings.Query
import RpiPackage.Lib.Run

/-!
# A scan in pieces is a scan at once

However a transcript grows and however its scan is spread over queries, reads and partial lines,
the scan holds what recording the complete lines of the bytes it has read gives.
-/

namespace Timings

open Json Service Result

section Parser

variable (parse : List UInt8 → Option Value)

/-- The effect of one complete line. -/
def Lanes.recordLine (s : Lanes) (line : List UInt8) : Except ServiceError Lanes := do
  let value ← okOr (parse line) (failure .unavailable "invalid native JSONL record")
  s.record value

/-- The complete lines of a text, recorded one after the other from the empty state. -/
def recordLines (text : List UInt8) : Except ServiceError Lanes :=
  (Lines.split newline text).1.foldlM (Lanes.recordLine parse) Lanes.empty

/-- The scan has read a beginning of the file, and holds what its lines record. -/
structure Scan.Tracks (scan : Scan) (file : List UInt8) : Prop where
  offset_le : scan.offset ≤ file.length
  pending : (Lines.split newline (file.take scan.offset)).2 = scan.pending
  records : recordLines parse (file.take scan.offset) = .ok scan.toLanes

variable {parse} {scan scan' : Scan} {file : List UInt8} {id : String}

lemma Scan.start_tracks (m : Metadata) (generation : String) :
    (Scan.start m generation).Tracks parse file :=
  ⟨Nat.zero_le _, rfl, rfl⟩

/-- A file that grows keeps what was read of it. -/
lemma Scan.Tracks.append (h : scan.Tracks parse file) (more : List UInt8) :
    scan.Tracks parse (file ++ more) := by
  have htake : (file ++ more).take scan.offset = file.take scan.offset :=
    List.take_append_of_le_length h.offset_le
  refine ⟨?_, ?_, ?_⟩
  · rw [List.length_append]
    exact Nat.le_trans h.offset_le (Nat.le_add_right _ _)
  · rw [htake, h.pending]
  · rw [htake, h.records]

/-- A complete line is recorded, unless it is the header, which records nothing. -/
lemma Scan.finishLine_eq_ok (h : scan.finishLine parse id = .ok scan') :
    scan.toLanes.recordLine parse scan.pending = .ok scan'.toLanes ∧ scan'.pending = [] ∧
      scan'.offset = scan.offset := by
  simp only [Scan.finishLine, bind_eq_ok, okOr_eq_ok] at h
  obtain ⟨value, hvalue, h⟩ := h
  simp only [Lanes.recordLine, hvalue, okOr, ok_bind]
  split at h
  · obtain ⟨lanes, hlanes, h⟩ := bind_eq_ok.mp h
    obtain rfl := Except.ok.inj h
    exact ⟨hlanes, rfl, rfl⟩
  · obtain ⟨hheader, h⟩ := check_bind_eq_ok.mp h
    obtain rfl := Except.ok.inj h
    exact ⟨Lanes.record_header hheader, rfl, rfl⟩

/-- After a read the pending bytes are the last line or the rest of what has been read. -/
lemma Scan.Tracks.split_consume (h : scan.Tracks parse file) {chunk : List UInt8}
    (hchunk : chunk <+: file.drop scan.offset) (hne : chunk ≠ []) {next : Scan}
    (hnext : scan.consume (Lines.takeLine newline chunk) = next) :
    next.offset ≤ file.length ∧ Lines.split newline (file.take next.offset) =
      if next.pending.getLast? = some newline then
        ((Lines.split newline (file.take scan.offset)).1 ++ [next.pending], [])
      else ((Lines.split newline (file.take scan.offset)).1, next.pending) := by
  subst hnext
  have hprefix : Lines.takeLine newline chunk <+: file.drop scan.offset :=
    (Lines.takeLine_prefix chunk).trans hchunk
  have htake : file.take (scan.consume (Lines.takeLine newline chunk)).offset =
      file.take scan.offset ++ Lines.takeLine newline chunk := by
    show file.take (scan.offset + _) = _
    rw [List.take_add, ← List.prefix_iff_eq_take.mp hprefix]
  have hline : Lines.takeLine newline chunk ≠ [] := Lines.takeLine_ne_nil hne
  have hsplit := Lines.split_append_takeLine (file.take scan.offset) chunk
    hline
  rw [h.pending, ← htake] at hsplit
  refine ⟨?_, hsplit⟩
  have hlength := hprefix.length_le
  rw [List.length_drop] at hlength
  have hle := h.offset_le
  show scan.offset + _ ≤ _
  omega

/-- The reads of a query keep the scan on track. -/
lemma Scan.Tracks.readLines {total : Nat} {available : Nat → Except ServiceError Nat}
    {fuel bytes records : Nat} (h : scan.Tracks parse file)
    (hread : scan.readLines parse id file total available fuel bytes records = .ok scan') :
    scan'.Tracks parse file := by
  induction fuel generalizing scan bytes records with
  | zero =>
    obtain rfl := Except.ok.inj hread
    exact h
  | succ fuel ih =>
    unfold Scan.readLines at hread
    split at hread
    · rename_i hmore
      simp only [bind_eq_ok, failIf_eq_ok] at hread
      obtain ⟨length, -, -, hbuffer, -, -, hread⟩ := hread
      have hchunk : ((file.drop scan.offset).take length).take
          (min (byteBudget - bytes) (total - scan.offset)) <+: file.drop scan.offset :=
        (List.take_prefix _ _).trans (List.take_prefix _ _)
      have hne : ((file.drop scan.offset).take length).take
          (min (byteBudget - bytes) (total - scan.offset)) ≠ [] := by
        intro hnil
        rcases List.take_eq_nil_iff.mp hnil with hzero | hnil
        · omega
        · exact hbuffer hnil
      generalize ((file.drop scan.offset).take length).take
        (min (byteBudget - bytes) (total - scan.offset)) = chunk at hchunk hne hread
      generalize hnext : scan.consume (Lines.takeLine newline chunk) = next at hread
      obtain ⟨hoffset, hsplit⟩ := h.split_consume hchunk hne hnext
      have hlanes : next.toLanes = scan.toLanes := hnext ▸ rfl
      have hrecords := h.records
      rw [recordLines] at hrecords
      split at hread
      · rename_i hline
        rw [if_pos hline] at hsplit
        obtain ⟨finished, hfinish, hread⟩ := bind_eq_ok.mp hread
        obtain ⟨hrecord, hpending, hfinished⟩ := Scan.finishLine_eq_ok hfinish
        refine ih ⟨hfinished ▸ hoffset, ?_, ?_⟩ hread
        · rw [hfinished, hsplit, hpending]
        · rw [hlanes] at hrecord
          rw [hfinished, recordLines, hsplit, List.foldlM_append, hrecords, ok_bind,
            List.foldlM_cons, hrecord]
          rfl
      · rename_i hline
        rw [if_neg hline] at hsplit
        refine ih ⟨hoffset, ?_, ?_⟩ hread
        · rw [hsplit]
        · rw [recordLines, hsplit, hrecords, hlanes]
    · obtain rfl := Except.ok.inj hread
      exact h

/-! ### Queries -/

/-- What a query that succeeds has done to its scan, and what it answers. -/
lemma Scan.advance_eq_ok {query : RunTimingsQuery} {attempt : Attempt} {page : RunTimingsPage}
    (h : scan.Tracks parse file)
    (hadvance : scan.advance parse id file query attempt = .ok (page, scan')) :
    scan'.Tracks parse file ∧ page.scannedBytes = scan'.offset ∧
      page.timings = scan'.timings.filter (fun t => query.entryIds.contains t.finalEntryId) ∧
      page.complete = (scan'.header && scan'.offset == page.totalBytes && scan'.pending.isEmpty) := by
  simp only [Scan.advance, bind_eq_ok, failIf_eq_ok, okOr_eq_ok, pure_eq_ok] at hadvance
  obtain ⟨m, -, -, -, -, -, -, -, read, hread, anchor, -, after, -, -, -, hadvance⟩ := hadvance
  obtain ⟨rfl, rfl⟩ := Prod.mk.inj (Except.ok.inj hadvance)
  have htracks := h.readLines hread
  exact ⟨⟨htracks.offset_le, htracks.pending, htracks.records⟩, rfl, rfl, rfl⟩

/-! ### Runs -/

/-- The transcripts on disk, and the cache. -/
structure Watch where
  files : String → List UInt8
  cache : RunTimingCache

inductive Event where
  | append (id : String) (bytes : List UInt8)
  | query (id : String) (query : RunTimingsQuery) (attempt : Attempt)

variable (parse) in
def Watch.step (w : Watch) : Event → Watch
  | .append id bytes => { w with files := Function.update w.files id (w.files id ++ bytes) }
  | .query id query attempt =>
    { w with cache := (w.cache.query parse id (w.files id) query attempt).2 }

variable (parse) in
/-- Transcripts that only grow, and queries of any session. -/
def Watch.run (files : String → List UInt8) (events : List Event) : Watch :=
  Run.after (Watch.step parse) ⟨files, ⟨[]⟩⟩ events

variable (parse) in
def Watch.Tracks (w : Watch) : Prop := ∀ p ∈ w.cache.scans, p.2.Tracks parse (w.files p.1)

lemma RunTimingCache.remove_eq_some {cache rest : RunTimingCache}
    (h : cache.remove id = some (scan, rest)) :
    (id, scan) ∈ cache.scans ∧ ∀ p ∈ rest.scans, p ∈ cache.scans := by
  unfold RunTimingCache.remove at h
  rcases hindex : cache.scans.findIdx? (fun p => p.1 == id) with _ | index
  · simp [hindex] at h
  · simp only [hindex, Option.map_eq_some_iff] at h
    obtain ⟨p, hp, h⟩ := h
    obtain ⟨rfl, rfl⟩ := Prod.mk.inj h
    obtain ⟨hlt, hid, -⟩ := List.findIdx?_eq_some_iff_getElem.mp hindex
    obtain ⟨-, rfl⟩ := List.getElem?_eq_some_iff.mp hp
    refine ⟨?_, fun q hq => List.mem_of_mem_eraseIdx hq⟩
    rw [beq_iff_eq] at hid
    exact hid ▸ List.getElem_mem hlt

/-- A query takes a cached scan or starts one, and either is on track. -/
lemma Watch.Tracks.takeScan {w : Watch} (h : w.Tracks parse) {query : RunTimingsQuery}
    {attempt : Attempt} {rest : RunTimingCache}
    (htake : w.cache.takeScan id query attempt = .ok (scan, rest)) :
    scan.Tracks parse (w.files id) ∧ ∀ p ∈ rest.scans, p ∈ w.cache.scans := by
  obtain ⟨-, htake⟩ := check_bind_eq_ok.mp htake
  rcases hremove : w.cache.remove id with _ | ⟨cached, others⟩
  · simp only [hremove, bind_eq_ok, pure_eq_ok] at htake
    obtain ⟨-, -, ⟨m, generation⟩, -, htake⟩ := htake
    obtain ⟨rfl, rfl⟩ := Prod.mk.inj (Except.ok.inj htake)
    exact ⟨Scan.start_tracks m generation, fun p hp => hp⟩
  · simp only [hremove, bind_eq_ok, pure_eq_ok] at htake
    obtain ⟨-, -, htake⟩ := htake
    obtain ⟨rfl, rfl⟩ := Prod.mk.inj (Except.ok.inj htake)
    obtain ⟨hmem, hrest⟩ := RunTimingCache.remove_eq_some hremove
    exact ⟨h (id, cached) hmem, hrest⟩

lemma Watch.Tracks.query {w : Watch} (h : w.Tracks parse) (id : String) (query : RunTimingsQuery)
    (attempt : Attempt) : (w.step parse (.query id query attempt)).Tracks parse := by
  intro p hp
  simp only [Watch.step, RunTimingCache.query] at hp
  rcases htake : w.cache.takeScan id query attempt with error | ⟨scan, rest⟩
  · rw [htake] at hp
    exact h p hp
  obtain ⟨hscan, hrest⟩ := h.takeScan htake
  rcases hadvance : scan.advance parse id (w.files id) query attempt with error | ⟨page, scan'⟩
  · simp only [htake, hadvance] at hp
    exact h p (hrest p hp)
  · simp only [htake, hadvance, RunTimingCache.store] at hp
    rcases List.mem_append.mp (List.mem_of_mem_drop hp) with hp | hp
    · exact h p (hrest p hp)
    · obtain rfl := List.mem_singleton.mp hp
      exact (Scan.advance_eq_ok hscan hadvance).1

lemma Watch.Tracks.append {w : Watch} (h : w.Tracks parse) (id : String) (bytes : List UInt8) :
    (w.step parse (.append id bytes)).Tracks parse := by
  intro p hp
  show p.2.Tracks parse (Function.update w.files id (w.files id ++ bytes) p.1)
  by_cases hid : p.1 = id
  · rw [hid, Function.update_self]
    exact (hid ▸ h p hp).append bytes
  · rw [Function.update_of_ne hid]
    exact h p hp

lemma Watch.run_tracks (files : String → List UInt8) (events : List Event) :
    (Watch.run parse files events).Tracks parse := by
  have hstart : Watch.Tracks parse ⟨files, ⟨[]⟩⟩ := fun p hp => absurd hp List.not_mem_nil
  refine Run.invariant (fun w event h => ?_) hstart events
  cases event with
  | append id bytes => exact h.append id bytes
  | query id query attempt => exact h.query id query attempt

/-- After any appends and queries, every cached scan holds what the complete lines of the bytes it
has read record from the empty state. A query that succeeds answers from such a scan, and calls it
complete only when the file it has seen ends with a complete line and all of it has been read. -/
theorem Watch.run_incremental (parse : List UInt8 → Option Value) (files : String → List UInt8)
    (events : List Event) :
    (∀ id scan, (id, scan) ∈ (Watch.run parse files events).cache.scans →
      recordLines parse (((Watch.run parse files events).files id).take scan.offset) =
        .ok scan.toLanes) ∧
    ∀ id query attempt page, ((Watch.run parse files events).cache.query parse id
        ((Watch.run parse files events).files id) query attempt).1 = .ok page →
      page.scannedBytes ≤ ((Watch.run parse files events).files id).length ∧
      (∃ lanes,
        recordLines parse (((Watch.run parse files events).files id).take page.scannedBytes) =
          .ok lanes ∧
        page.timings = lanes.timings.filter fun t => query.entryIds.contains t.finalEntryId) ∧
      (page.complete = true → page.scannedBytes = page.totalBytes ∧
        (Lines.split newline
            (((Watch.run parse files events).files id).take page.totalBytes)).1.flatten =
          ((Watch.run parse files events).files id).take page.totalBytes) := by
  have htracks : (Watch.run parse files events).Tracks parse := Watch.run_tracks files events
  refine ⟨fun id scan hscan => (htracks (id, scan) hscan).records, ?_⟩
  intro id query attempt page hquery
  rcases htake : (Watch.run parse files events).cache.takeScan id query attempt with
    error | ⟨scan, rest⟩
  · simp only [RunTimingCache.query, htake, reduceCtorEq] at hquery
  rcases hadvance : scan.advance parse id ((Watch.run parse files events).files id) query attempt
    with error | ⟨page', scan'⟩
  · simp only [RunTimingCache.query, htake, hadvance, reduceCtorEq] at hquery
  simp only [RunTimingCache.query, htake, hadvance, Except.ok.injEq] at hquery
  subst hquery
  obtain ⟨hscan', hscanned, htimings, hcomplete⟩ :=
    Scan.advance_eq_ok (htracks.takeScan htake).1 hadvance
  refine ⟨hscanned ▸ hscan'.offset_le, ⟨scan'.toLanes, hscanned ▸ hscan'.records, htimings⟩, ?_⟩
  intro hpage
  rw [hcomplete, Bool.and_eq_true, Bool.and_eq_true, beq_iff_eq, List.isEmpty_iff] at hpage
  obtain ⟨⟨-, htotal⟩, hpending⟩ := hpage
  refine ⟨hscanned.trans htotal, ?_⟩
  have hflatten := @Lines.flatten_split UInt8 _ newline
    (((Watch.run parse files events).files id).take page'.totalBytes)
  rw [← htotal] at hflatten ⊢
  rwa [hscan'.pending, hpending, List.append_nil] at hflatten

end Parser

end Timings
