import RpiPackage.Child.Query
import RpiPackage.Lib.Paging

/-!
# Traversals of child pages

A chain of accepted pages, each asked for with the cursor the page before it ended at, lists its
entries in order, stays with one session, lane, leaf and child, and ends. The chunks of a chain of
body pages tile the body.
-/

namespace Child

open Json Result Service

/-- Numbers in the direction of a query. -/
def Follows (direction : Direction) (before after : UInt64) : Prop :=
  ordered direction before after = true

lemma follows_oldestFirst {before after : UInt64} :
    Follows .oldestFirst before after ↔ before < after := decide_eq_true_iff

lemma follows_newestFirst {before after : UInt64} :
    Follows .newestFirst before after ↔ after < before := decide_eq_true_iff

instance (direction : Direction) : IsTrans UInt64 (Follows direction) where
  trans a b c hab hbc := by
    cases direction with
    | oldestFirst =>
      rw [follows_oldestFirst] at *
      exact UInt64.lt_trans hab hbc
    | newestFirst =>
      rw [follows_newestFirst] at *
      exact UInt64.lt_trans hbc hab

lemma not_follows_self (direction : Direction) (seq : UInt64) : ¬Follows direction seq seq := by
  cases direction with
  | oldestFirst =>
    rw [follows_oldestFirst]
    exact UInt64.lt_irrefl seq
  | newestFirst =>
    rw [follows_newestFirst]
    exact UInt64.lt_irrefl seq

/-- A list that goes on from a cursor is in order, and after the cursor. -/
lemma follows_of_isChain {direction : Direction} {last : Option UInt64} {seqs : List UInt64}
    (h : (last.toList ++ seqs).IsChain (Follows direction)) :
    seqs.Pairwise (Follows direction) ∧ ∀ seq ∈ last, ∀ next ∈ seqs, Follows direction seq next := by
  rw [List.isChain_iff_pairwise, List.pairwise_append] at h
  refine ⟨h.2.1, ?_⟩
  intro seq hseq next hnext
  exact h.2.2 seq (Option.mem_toList.mpr hseq) next hnext

lemma last_of_pairwise {direction : Direction} {seqs : List UInt64} {last : UInt64}
    (h : seqs.Pairwise (Follows direction)) (hlast : seqs.getLast? = some last) :
    ∀ seq ∈ seqs, seq = last ∨ Follows direction seq last := by
  obtain ⟨init, rfl⟩ := List.getLast?_eq_some_iff.mp hlast
  intro seq hseq
  rcases List.mem_append.mp hseq with hseq | hseq
  · exact .inr ((List.pairwise_append.mp h).2.2 seq hseq last (List.mem_singleton_self last))
  · exact .inl (List.mem_singleton.mp hseq)

section

variable {uuid4 : String → Bool}

/-! ### Cursors -/

lemma queryCursor_eq_ok {id : String} {leaf : Option String} {dir : Direction}
    {child : Option String} {c : ChildCursor} {u : Unit}
    (h : queryCursor uuid4 id leaf dir child (some c) = .ok u) :
    c.sessionId = id ∧ c.direction = dir ∧ c.childId = child ∧ ∀ s ∈ leaf, s = c.leafId := by
  simp only [queryCursor, failIf_eq_ok, not_or, ne_eq, Classical.not_not] at h
  obtain ⟨-, hsession, hdirection, hchild, hleaf, -⟩ := h
  refine ⟨hsession, hdirection, hchild, ?_⟩
  intro s hs
  rw [hs] at hleaf
  simpa using hleaf

lemma nextCursor_eq_ok {id leaf : String} {dir : Direction} {child : Option String}
    {previous : Option ChildCursor} {next : ChildCursor} {u : Unit}
    (h : nextCursor uuid4 id leaf dir child previous next = .ok u) :
    (next.sessionId = id ∧ next.leafId = leaf ∧ next.childId = child) ∧
      ∀ prev ∈ previous, prev.lane = next.lane ∧ Follows dir prev.afterSeq next.afterSeq := by
  simp only [nextCursor, bind_eq_ok, mapError_eq_ok] at h
  obtain ⟨_, hquery, hprevious⟩ := h
  obtain ⟨hsession, -, hchild, hleaf⟩ := queryCursor_eq_ok hquery
  refine ⟨⟨hsession, (hleaf leaf rfl).symm, hchild⟩, ?_⟩
  rintro prev hprev
  rw [hprev] at hprevious
  simp only [ensure_eq_ok, Bool.and_eq_true, beq_iff_eq] at hprevious
  exact ⟨hprevious.1.1, hprevious.1.2⟩

lemma leafMatches_pinned {leaf : String} {q : Option String} {cursor : Option ChildCursor}
    (h : leafMatches (some leaf) (pinned q cursor) = true) {c : ChildCursor}
    (hc : cursor = some c) (hq : ∀ s ∈ q, s = c.leafId) : c.leafId = leaf := by
  rw [leafMatches, Bool.and_eq_true] at h
  rcases q with _ | s
  · simp only [hc, pinned, Option.map_some, Option.none_or, Option.all_some, beq_iff_eq,
      Option.some.injEq] at h
    exact h.2.symm
  · simp only [pinned, Option.some_or, Option.all_some, beq_iff_eq, Option.some.injEq] at h
    rw [h.2, hq s rfl]

/-! ### Summaries -/

lemma validateChildren_eq_ok {q : ChildPageQuery} {ids : List String} {last : Option UInt64}
    {children : List ChildSummary} {u : Unit}
    (h : validateChildren uuid4 q ids last children = .ok u) :
    (last.toList ++ children.map ChildSummary.seq).IsChain (Follows q.direction) ∧
      (children.map ChildSummary.childId).Nodup ∧
      ∀ s ∈ children, s.childId ∉ ids ∧ ∀ c ∈ q.cursor, c.afterEntryId ≠ s.childId := by
  induction children generalizing ids last with
  | nil => cases last <;> simp
  | cons s children ih =>
    simp only [validateChildren, check_bind_eq_ok, ensure_eq_ok, Bool.and_eq_true] at h
    obtain ⟨-, ⟨⟨hids, hseq⟩, hcursor⟩, hrest⟩ := h
    obtain ⟨hchain, hnodup, hfresh⟩ := ih hrest
    have hids : s.childId ∉ ids := by simpa using hids
    have hcursor : ∀ c ∈ q.cursor, c.afterEntryId ≠ s.childId := by
      intro c hc
      rw [hc] at hcursor
      simpa using hcursor
    refine ⟨?_, ?_, ?_⟩
    · rcases last with _ | last
      · exact hchain
      · exact List.IsChain.cons_cons hseq hchain
    · rw [List.map_cons, List.nodup_cons]
      refine ⟨?_, hnodup⟩
      intro hmem
      obtain ⟨t, ht, heq⟩ := List.mem_map.mp hmem
      exact (hfresh t ht).1 (heq ▸ List.mem_cons_self)
    · intro t ht
      rcases List.mem_cons.mp ht with rfl | ht
      · exact ⟨hids, hcursor⟩
      · exact ⟨fun hmem => (hfresh t ht).1 (List.mem_cons_of_mem _ hmem), (hfresh t ht).2⟩

lemma validateSummaries_eq_ok {id : String} {q : ChildPageQuery} {p : ChildPage} {u : Unit}
    (h : validateSummaries uuid4 id q p = .ok u) :
    validateChildren uuid4 q [] (q.cursor.map ChildCursor.afterSeq) p.children = .ok () ∧
      ∀ c ∈ p.nextCursor, (∃ last, p.children.getLast? = some last ∧ c.afterSeq = last.seq) ∧
        ∀ prev ∈ q.cursor, Follows q.direction prev.afterSeq c.afterSeq := by
  simp only [validateSummaries, check_bind_eq_ok] at h
  obtain ⟨-, hchildren, -, hnext⟩ := h
  refine ⟨hchildren, ?_⟩
  intro c hc
  simp only [show p.nextCursor = some c from hc, bind_eq_ok, okOr_eq_ok, ensure_eq_ok,
    Bool.and_eq_true, beq_iff_eq] at hnext
  obtain ⟨leaf, -, _, hcursor, last, hlast, -, hseq⟩ := hnext
  exact ⟨⟨last, hlast, hseq⟩, fun prev hprev => ((nextCursor_eq_ok hcursor).2 prev hprev).2⟩

variable (uuid4) in
/-- An accepted page of summaries. -/
structure SummaryRead where
  id : String
  query : ChildPageQuery
  page : ChildPage
  accepted : childSummaries uuid4 id query page = .ok page

namespace SummaryRead

def cursor (r : SummaryRead uuid4) : Option ChildCursor := r.query.cursor

def next (r : SummaryRead uuid4) : Option ChildCursor := r.page.nextCursor

def seqs (r : SummaryRead uuid4) : List UInt64 := r.page.children.map ChildSummary.seq

lemma validated (r : SummaryRead uuid4) :
    validateSummaries uuid4 r.id r.query r.page = .ok () := by
  have h := r.accepted
  simp only [childSummaries, check_bind_eq_ok] at h
  exact h.2.2.1

lemma ordered (r : SummaryRead uuid4) :
    Paging.Ordered (Follows r.query.direction) ChildCursor.afterSeq cursor next seqs r := by
  obtain ⟨hchildren, hnext⟩ := validateSummaries_eq_ok r.validated
  obtain ⟨hrises, hafter⟩ := follows_of_isChain (validateChildren_eq_ok hchildren).1
  refine ⟨hrises, ?_, ?_, ?_⟩
  · intro c hc seq hseq
    exact hafter c.afterSeq (Option.mem_map_of_mem _ hc) seq hseq
  · intro c hc seq hseq
    obtain ⟨⟨last, hlast, heq⟩, -⟩ := hnext c hc
    rw [heq]
    refine last_of_pairwise hrises ?_ seq hseq
    rw [List.getLast?_map, hlast]
    rfl
  · intro c hc c' hc'
    exact (hnext c' hc').2 c hc

/-- The ids of a page are distinct, and none of them is the one its query goes on from. -/
lemma distinct (r : SummaryRead uuid4) :
    (r.page.children.map ChildSummary.childId).Nodup ∧
      ∀ c ∈ r.query.cursor, c.afterEntryId ∉ r.page.children.map ChildSummary.childId := by
  obtain ⟨-, hnodup, hfresh⟩ := validateChildren_eq_ok (validateSummaries_eq_ok r.validated).1
  refine ⟨hnodup, ?_⟩
  intro c hc hmem
  obtain ⟨s, hs, heq⟩ := List.mem_map.mp hmem
  exact (hfresh s hs).2 c hc heq.symm

end SummaryRead

/-- A chain of pages ends: its cursors have distinct numbers. -/
lemma length_le_of_ordered {σ : Type*} {dir : Direction} {cursor next : σ → Option ChildCursor}
    {seqs : σ → List UInt64} {reads : List σ}
    (hchain : reads.IsChain (Paging.Continues cursor next))
    (hordered : ∀ r ∈ reads,
      Paging.Ordered (Follows dir) ChildCursor.afterSeq cursor next seqs r) :
    reads.length ≤ 2 ^ 64 + 1 := by
  have hnodup : ((reads.filterMap next).map ChildCursor.afterSeq).Nodup := by
    refine List.Pairwise.imp ?_ (Paging.pairwise_cursors hchain hordered)
    rintro seq seq' hfollows rfl
    exact not_follows_self dir seq hfollows
  have hcursors := Paging.length_le_of_nodup hnodup
  rw [List.length_map] at hcursors
  have hlength := Paging.length_le_cursors hchain
  omega

/-! ### Phases -/

lemma validatePhaseList_eq_ok {q : ChildPhaseQuery} {ids : List String}
    {last index : Option UInt64} {phases : List ChildPhase} {u : Unit}
    (h : validatePhaseList uuid4 q ids last index phases = .ok u) :
    (last.toList ++ phases.map ChildPhase.seq).IsChain (Follows q.direction) ∧
      (phases.map ChildPhase.entryId).Nodup ∧
      ∀ v ∈ phases, v.childId = q.childId ∧ v.entryId ∉ ids ∧
        ∀ c ∈ q.cursor, c.afterEntryId ≠ v.entryId := by
  induction phases generalizing ids last index with
  | nil => cases last <;> simp
  | cons v phases ih =>
    simp only [validatePhaseList, check_bind_eq_ok, ensure_eq_ok, Bool.and_eq_true] at h
    obtain ⟨hphase, ⟨⟨⟨hids, hcursor⟩, hseq⟩, -⟩, hrest⟩ := h
    obtain ⟨hchain, hnodup, hfresh⟩ := ih hrest
    have hids : v.entryId ∉ ids := by simpa using hids
    have hcursor : ∀ c ∈ q.cursor, c.afterEntryId ≠ v.entryId := by
      intro c hc
      rw [hc] at hcursor
      simpa using hcursor
    have hchild : v.childId = q.childId := by
      simp only [phase, check_bind_eq_ok, ensure_eq_ok, Bool.and_eq_true, beq_iff_eq] at hphase
      exact hphase.1.1.1.1.1.1.1.1.2
    refine ⟨?_, ?_, ?_⟩
    · rcases last with _ | last
      · exact hchain
      · exact List.IsChain.cons_cons hseq hchain
    · rw [List.map_cons, List.nodup_cons]
      refine ⟨?_, hnodup⟩
      intro hmem
      obtain ⟨t, ht, heq⟩ := List.mem_map.mp hmem
      exact (hfresh t ht).2.1 (heq ▸ List.mem_cons_self)
    · intro t ht
      rcases List.mem_cons.mp ht with rfl | ht
      · exact ⟨hchild, hids, hcursor⟩
      · obtain ⟨hchild, hids, hcursor⟩ := hfresh t ht
        exact ⟨hchild, fun hmem => hids (List.mem_cons_of_mem _ hmem), hcursor⟩

lemma validateScan_eq_ok {q : ChildPhaseQuery} {p : ChildPhasePage} {c : ChildCursor} {u : Unit}
    (h : validateScan q p c = .ok u) {last : ChildPhase} (hlast : p.phases.getLast? = some last) :
    last.seq = c.afterSeq ∨ Follows q.direction last.seq c.afterSeq := by
  simp only [validateScan, hlast, check_bind_eq_ok, ensure_eq_ok, Bool.or_eq_true,
    Bool.and_eq_true, beq_iff_eq] at h
  rcases h.1 with hseq | hscan
  · exact .inl hseq.1.symm
  · exact .inr hscan.2

lemma validatePhases_eq_ok {id : String} {q : ChildPhaseQuery} {p : ChildPhasePage} {u : Unit}
    (h : validatePhases uuid4 id q p = .ok u) :
    (p.childId = q.childId ∧ leafMatches (some p.leafId) (pinned q.leafId q.cursor) = true) ∧
      validatePhaseList uuid4 q [] (q.cursor.map ChildCursor.afterSeq) none p.phases = .ok () ∧
      ∀ c ∈ p.nextCursor,
        nextCursor uuid4 id p.leafId q.direction (some q.childId) q.cursor c = .ok () ∧
          validateScan q p c = .ok () := by
  simp only [validatePhases, check_bind_eq_ok, ensure_eq_ok, Bool.and_eq_true, beq_iff_eq] at h
  obtain ⟨⟨⟨⟨⟨⟨⟨⟨⟨⟨hchild, -⟩, hleaf⟩, -⟩, -⟩, -⟩, -⟩, -⟩, -⟩, -⟩, hphases, hnext⟩ := h
  refine ⟨⟨hchild, hleaf⟩, hphases, ?_⟩
  intro c hc
  simp only [show p.nextCursor = some c from hc, check_bind_eq_ok] at hnext
  exact hnext

variable (uuid4) in
/-- An accepted page of phases. -/
structure PhaseRead where
  id : String
  query : ChildPhaseQuery
  page : ChildPhasePage
  accepted : childPhases uuid4 id query page = .ok page

namespace PhaseRead

def cursor (r : PhaseRead uuid4) : Option ChildCursor := r.query.cursor

def next (r : PhaseRead uuid4) : Option ChildCursor := r.page.nextCursor

def seqs (r : PhaseRead uuid4) : List UInt64 := r.page.phases.map ChildPhase.seq

lemma validated (r : PhaseRead uuid4) :
    queryCursor uuid4 r.id r.query.leafId r.query.direction (some r.query.childId) r.query.cursor =
        .ok () ∧ validatePhases uuid4 r.id r.query r.page = .ok () := by
  have h := r.accepted
  simp only [childPhases, check_bind_eq_ok] at h
  exact ⟨h.2.2.1, h.2.2.2.1⟩

lemma ordered (r : PhaseRead uuid4) :
    Paging.Ordered (Follows r.query.direction) ChildCursor.afterSeq cursor next seqs r := by
  obtain ⟨-, hphases, hnext⟩ := validatePhases_eq_ok r.validated.2
  obtain ⟨hrises, hafter⟩ := follows_of_isChain (validatePhaseList_eq_ok hphases).1
  refine ⟨hrises, ?_, ?_, ?_⟩
  · intro c hc seq hseq
    exact hafter c.afterSeq (Option.mem_map_of_mem _ hc) seq hseq
  · intro c hc seq hseq
    -- the cursor may be at a later candidate than the last phase
    obtain ⟨last, hlast⟩ : ∃ last, r.page.phases.getLast? = some last := by
      rw [← Option.isSome_iff_exists, List.getLast?_isSome]
      rintro hnil
      rw [seqs, hnil] at hseq
      exact List.not_mem_nil hseq
    have hscan := validateScan_eq_ok (hnext c hc).2 hlast
    have hle := last_of_pairwise hrises (by rw [List.getLast?_map, hlast]; rfl) seq hseq
    rcases hle with rfl | hlt
    · exact hscan
    · rcases hscan with heq | hscan
      · rw [← heq]
        exact .inr hlt
      · exact .inr (trans_of _ hlt hscan)
  · intro c hc c' hc'
    exact ((nextCursor_eq_ok (hnext c' hc').1).2 c hc).2

/-- The ids of a page are distinct, and none of them is the one its query goes on from. -/
lemma distinct (r : PhaseRead uuid4) :
    (r.page.phases.map ChildPhase.entryId).Nodup ∧
      ∀ c ∈ r.query.cursor, c.afterEntryId ∉ r.page.phases.map ChildPhase.entryId := by
  obtain ⟨-, hnodup, hfresh⟩ := validatePhaseList_eq_ok (validatePhases_eq_ok r.validated.2).2.1
  refine ⟨hnodup, ?_⟩
  intro c hc hmem
  obtain ⟨v, hv, heq⟩ := List.mem_map.mp hmem
  exact (hfresh v hv).2.2 c hc heq.symm

/-- What a page is bound to. -/
structure Binding where
  session : String
  lane : String
  leaf : String

structure Bound (b : Binding) (child : String) (r : PhaseRead uuid4) : Prop where
  ofSession : r.id = b.session
  atLeaf : r.page.leafId = b.leaf
  ofChild : r.page.childId = child
  phases : ∀ v ∈ r.page.phases, v.childId = child
  cursors : ∀ c, c ∈ r.cursor ∨ c ∈ r.next →
    c.sessionId = b.session ∧ c.lane = b.lane ∧ c.leafId = b.leaf ∧ c.childId = some child

/-- The lane a page is in, if one of its cursors tells. -/
def lane (r : PhaseRead uuid4) : String :=
  ((r.next.or r.cursor).map ChildCursor.lane).getD ""

def binding (r : PhaseRead uuid4) : Binding := ⟨r.id, r.lane, r.page.leafId⟩

lemma bound (r : PhaseRead uuid4) : r.Bound r.binding r.query.childId := by
  obtain ⟨hquery, hvalid⟩ := r.validated
  obtain ⟨⟨hchild, hleaf⟩, hphases, hnext⟩ := validatePhases_eq_ok hvalid
  refine ⟨rfl, rfl, hchild, fun v hv => ((validatePhaseList_eq_ok hphases).2.2 v hv).1, ?_⟩
  rintro c (hc | hc)
  · have hc : r.query.cursor = some c := hc
    rw [hc] at hquery
    obtain ⟨hsession, -, hchild, hpinned⟩ := queryCursor_eq_ok hquery
    refine ⟨hsession, ?_, leafMatches_pinned hleaf hc hpinned, hchild⟩
    rcases hnextc : r.page.nextCursor with _ | c'
    · simp [binding, lane, cursor, next, hnextc, hc]
    · have hlane := ((nextCursor_eq_ok (hnext c' hnextc).1).2 c hc).1
      simp [binding, lane, next, hnextc, hlane]
  · have hc : r.page.nextCursor = some c := hc
    obtain ⟨⟨hsession, hleaf, hchild⟩, -⟩ := nextCursor_eq_ok (hnext c hc).1
    exact ⟨hsession, by simp [binding, lane, next, hc], hleaf, hchild⟩

/-- The pages of a chain are bound to the same. -/
lemma bound_of_isChain {reads : List (PhaseRead uuid4)}
    (hchain : reads.IsChain (Paging.Continues cursor next)) {child : String}
    (hchild : ∀ r ∈ reads, r.query.childId = child) : ∃ b, ∀ r ∈ reads, r.Bound b child := by
  induction reads with
  | nil => exact ⟨⟨"", "", ""⟩, fun _ hnil => absurd hnil List.not_mem_nil⟩
  | cons r reads ih =>
    have hr := r.bound
    rw [hchild r List.mem_cons_self] at hr
    rcases reads with _ | ⟨t, reads⟩
    · refine ⟨r.binding, ?_⟩
      intro r' hr'
      rw [List.mem_singleton.mp hr']
      exact hr
    · obtain ⟨⟨c, hnext, hcursor⟩, hchain⟩ := List.isChain_cons_cons.mp hchain
      obtain ⟨b, hb⟩ := ih hchain fun r' hr' => hchild r' (List.mem_cons_of_mem _ hr')
      obtain ⟨hsession, hlane, hleaf, -⟩ := (hb t List.mem_cons_self).cursors c (.inl hcursor)
      obtain ⟨hsession', hlane', hleaf', -⟩ := hr.cursors c (.inr hnext)
      have heq : r.binding = b :=
        congr (congr (congrArg Binding.mk (hsession'.symm.trans hsession))
          (hlane'.symm.trans hlane)) (hleaf'.symm.trans hleaf)
      refine ⟨b, ?_⟩
      intro r' hr'
      rcases List.mem_cons.mp hr' with rfl | hr'
      · rw [← heq]
        exact hr
      · exact hb r' hr'

end PhaseRead

/-! ### Bodies -/

/-- Chunks begin within the body. -/
lemma chunk_lt {d : BodyDescriptor} {child : String} {u : Unit}
    (h : descriptor uuid4 d child = .ok u) {index : Nat} (hindex : index < d.chunks) :
    index * chunkBytes < d.byteLength := by
  simp only [descriptor, ensure_eq_ok, Bool.and_eq_true, beq_iff_eq] at h
  have hchunks := h.1.2
  rw [hchunks, divCeil] at hindex
  simp only [chunkBytes] at hindex ⊢
  omega

lemma byteLength_le {d : BodyDescriptor} {child : String} {u : Unit}
    (h : descriptor uuid4 d child = .ok u) :
    d.byteLength ≤ d.chunks * chunkBytes ∧ d.chunks ≤ maxChunks := by
  simp only [descriptor, ensure_eq_ok, Bool.and_eq_true, beq_iff_eq, decide_eq_true_eq] at h
  have hchunks := h.1.2
  refine ⟨?_, h.1.1.2.2⟩
  rw [hchunks, divCeil]
  simp only [chunkBytes]
  omega

/-- Where a chunk begins. -/
def offsetOf (d : BodyDescriptor) (index : Nat) : Nat := min (index * chunkBytes) d.byteLength

lemma offsetOf_succ {d : BodyDescriptor} {index : Nat} (h : index * chunkBytes < d.byteLength) :
    offsetOf d index = index * chunkBytes ∧
      offsetOf d index + chunkLength d index = offsetOf d (index + 1) ∧ 0 < chunkLength d index := by
  simp only [offsetOf, chunkLength, chunkBytes] at h ⊢
  omega

section Encoding

variable {decode : String → Option (List UInt8)} {encode : List UInt8 → String}
  {sha256 : List UInt8 → String}

variable (decode) in
/-- The bytes of a body that a chunk brings. -/
def segment (c : BodyPageChunk) : Nat × Nat := (c.byteOffset, ((decode c.data).getD []).length)

lemma validateChunks_eq_ok {q : ChildBodyQuery} {d : BodyDescriptor} {child : String} {u : Unit}
    (hd : descriptor uuid4 d child = .ok u) {index length total : Nat} {chunks : List BodyPageChunk}
    (h : validateChunks decode encode sha256 q d index length chunks = .ok total)
    (hindex : index ≤ d.chunks) :
    index + chunks.length ≤ d.chunks ∧
      (∀ c ∈ chunks, c.index * chunkBytes < d.byteLength ∧ ∃ bytes, decode c.data = some bytes ∧
        sha256 bytes = c.sha256) ∧
      Paging.Tiles (offsetOf d index) (offsetOf d (index + chunks.length))
        (chunks.map (segment decode)) := by
  induction chunks generalizing index length with
  | nil => exact ⟨hindex, fun _ hnil => absurd hnil List.not_mem_nil, rfl⟩
  | cons c chunks ih =>
    simp only [validateChunks, ensure_eq_ok, bind_eq_ok, okOr_eq_ok, Bool.and_eq_true,
      decide_eq_true_eq, beq_iff_eq] at h
    obtain ⟨_, hlt, _, -, _, ⟨⟨⟨⟨hindex', hoffset⟩, -⟩, -⟩, -⟩, bytes, hdecode, _,
      ⟨⟨hbytes, -⟩, hsha⟩, hrest⟩ := h
    obtain ⟨hend, hchunks, htiles⟩ := ih hrest hlt
    have hbegin := chunk_lt hd hlt
    obtain ⟨hat, hnext, hpos⟩ := offsetOf_succ hbegin
    have hcount : index + (c :: chunks).length = index + 1 + chunks.length := by
      rw [List.length_cons]
      omega
    rw [hcount]
    refine ⟨hend, ?_, ?_⟩
    · intro c' hc'
      rcases List.mem_cons.mp hc' with rfl | hc'
      · rw [hindex']
        exact ⟨hbegin, bytes, hdecode, hsha⟩
      · exact hchunks c' hc'
    · have hsegment : segment decode c = (index * chunkBytes, chunkLength d index) := by
        rw [segment, hdecode, hoffset, Option.getD_some, hbytes]
      rw [List.map_cons, hsegment]
      refine ⟨hat.symm, hpos, ?_⟩
      rw [hnext]
      exact htiles

variable (uuid4 decode encode sha256) in
/-- An accepted page of a body. -/
structure BodyRead where
  id : String
  query : ChildBodyQuery
  page : ChildBodyPage
  accepted : childBody uuid4 decode encode sha256 id query page = .ok page

namespace BodyRead

variable {d : BodyDescriptor}

def cursor (r : BodyRead uuid4 decode encode sha256) : Option ChildBodyCursor := r.query.cursor

def next (r : BodyRead uuid4 decode encode sha256) : Option ChildBodyCursor := r.page.nextCursor

def chunks (r : BodyRead uuid4 decode encode sha256) : List BodyPageChunk := r.page.body.chunks

def stop (r : BodyRead uuid4 decode encode sha256) : Nat := r.query.start + r.chunks.length

/-- What holds of an accepted page. -/
structure Sound (r : BodyRead uuid4 decode encode sha256) (d : BodyDescriptor) : Prop where
  descriptor : ∃ child, descriptor uuid4 d child = .ok ()
  start_lt : r.query.start < r.stop
  stop_le : r.stop ≤ d.chunks
  chunks : ∀ c ∈ r.chunks, c.index * chunkBytes < d.byteLength ∧
    ∃ bytes, decode c.data = some bytes ∧ sha256 bytes = c.sha256
  tiles : Paging.Tiles (offsetOf d r.query.start) (offsetOf d r.stop)
    (r.chunks.map (segment decode))
  next : r.next = none ↔ r.stop = d.chunks
  nextIndex : ∀ c ∈ r.next, c.body.nextIndex = r.stop

lemma sound (r : BodyRead uuid4 decode encode sha256) (hd : r.page.body.descriptor = d) :
    r.Sound d := by
  have h := r.accepted
  simp only [childBody, check_bind_eq_ok] at h
  obtain ⟨-, -, hvalid, -⟩ := h
  simp only [validateBody, hd, bind_eq_ok, ensure_eq_ok] at hvalid
  obtain ⟨_, hdescriptor, _, hpage, _, hstart, total, hchunks, _, -, _, hsome, hnext⟩ := hvalid
  simp only [Bool.and_eq_true, decide_eq_true_eq, beq_iff_eq, Bool.not_eq_true',
    List.isEmpty_eq_false_iff] at hpage hstart hsome
  obtain ⟨hstop, hall, htiles⟩ := validateChunks_eq_ok hdescriptor hchunks (Nat.le_of_lt hstart.1)
  have hne : 0 < r.page.body.chunks.length := List.length_pos_of_ne_nil hpage.1.1.1.1.2
  refine ⟨⟨_, hdescriptor⟩, Nat.lt_add_of_pos_right hne, hstop, hall, htiles, ?_, ?_⟩
  · have hstop : r.stop ≤ d.chunks := hstop
    show r.page.nextCursor = none ↔ r.stop = d.chunks
    have hsome : r.page.nextCursor.isSome = decide (r.stop < d.chunks) := hsome
    rcases hcursor : r.page.nextCursor with _ | c
    · rw [hcursor] at hsome
      have hnot : ¬r.stop < d.chunks := of_decide_eq_false hsome.symm
      simp only [true_iff]
      omega
    · rw [hcursor] at hsome
      have hlt : r.stop < d.chunks := of_decide_eq_true hsome.symm
      simp only [reduceCtorEq, false_iff]
      omega
  · intro c hc
    have hc : r.page.nextCursor = some c := hc
    simp only [hc, ensure_eq_ok, Bool.and_eq_true, beq_iff_eq] at hnext
    exact hnext.1.2

/-- The chunks of a chain of pages, from the first on. -/
lemma tiles_of_isChain {r : BodyRead uuid4 decode encode sha256}
    {reads : List (BodyRead uuid4 decode encode sha256)}
    (hchain : (r :: reads).IsChain (Paging.Continues cursor next))
    (hd : ∀ r' ∈ r :: reads, r'.page.body.descriptor = d) :
    ∃ last, (r :: reads).getLast? = some last ∧
      r.query.start + (r :: reads).length ≤ last.stop ∧
      Paging.Tiles (offsetOf d r.query.start) (offsetOf d last.stop)
        ((r :: reads).flatMap fun r' => r'.chunks.map (segment decode)) := by
  induction reads generalizing r with
  | nil =>
    have hr := r.sound (hd r List.mem_cons_self)
    refine ⟨r, rfl, hr.start_lt, ?_⟩
    simpa using hr.tiles
  | cons t reads ih =>
    have hr := r.sound (hd r List.mem_cons_self)
    obtain ⟨⟨c, hnext, hcursor⟩, hchain⟩ := List.isChain_cons_cons.mp hchain
    have hstart : t.query.start = r.stop := by
      have hcursor : t.query.cursor = some c := hcursor
      rw [ChildBodyQuery.start, hcursor]
      exact hr.nextIndex c hnext
    obtain ⟨last, hlast, hstop, htiles⟩ := ih hchain fun r' hr' => hd r' (List.mem_cons_of_mem _ hr')
    rw [hstart] at hstop htiles
    refine ⟨last, ?_, ?_, ?_⟩
    · rw [List.getLast?_cons_cons]
      exact hlast
    · have hlt := hr.start_lt
      rw [List.length_cons]
      omega
    · rw [List.flatMap_cons]
      exact hr.tiles.append htiles

end BodyRead

end Encoding

/-! ### Traversals -/

variable (uuid4) in
/-- A chain of accepted pages of summaries. -/
structure SummaryChain (dir : Direction) where
  reads : List (SummaryRead uuid4)
  continues : reads.IsChain (Paging.Continues SummaryRead.cursor SummaryRead.next)
  direction : ∀ r ∈ reads, r.query.direction = dir

def SummaryChain.children {dir : Direction} (chain : SummaryChain uuid4 dir) : List ChildSummary :=
  chain.reads.flatMap fun r => r.page.children

variable (uuid4) in
/-- A chain of accepted pages of the phases of a child. -/
structure PhaseChain (dir : Direction) (child : String) where
  reads : List (PhaseRead uuid4)
  continues : reads.IsChain (Paging.Continues PhaseRead.cursor PhaseRead.next)
  direction : ∀ r ∈ reads, r.query.direction = dir
  child : ∀ r ∈ reads, r.query.childId = child

def PhaseChain.phases {dir : Direction} {child : String} (chain : PhaseChain uuid4 dir child) :
    List ChildPhase :=
  chain.reads.flatMap fun r => r.page.phases

lemma pairwise_of_seqs {α σ : Type*} {dir : Direction} {seq : α → UInt64} {entries : σ → List α}
    {reads : List σ}
    (h : (reads.flatMap fun r => (entries r).map seq).Pairwise (Follows dir)) :
    (reads.flatMap entries).Pairwise fun a b => Follows dir (seq a) (seq b) := by
  rw [← List.map_flatMap, List.pairwise_map] at h
  exact h

lemma nodup_of_follows {α : Type*} {dir : Direction} {seq : α → UInt64} {entries : List α}
    (h : entries.Pairwise fun a b => Follows dir (seq a) (seq b)) : entries.Nodup := by
  refine h.imp ?_
  rintro a _ hfollows rfl
  exact not_follows_self dir (seq a) hfollows

lemma SummaryChain.traverses {dir : Direction} (chain : SummaryChain uuid4 dir) :
    chain.children.Pairwise (fun s t => Follows dir s.seq t.seq) ∧ chain.reads.length ≤ 2 ^ 64 + 1 := by
  have hordered : ∀ r ∈ chain.reads, Paging.Ordered (Follows dir) ChildCursor.afterSeq
      SummaryRead.cursor SummaryRead.next SummaryRead.seqs r := by
    intro r hr
    rw [← chain.direction r hr]
    exact r.ordered
  exact ⟨pairwise_of_seqs (Paging.pairwise_of_isChain chain.continues hordered),
    length_le_of_ordered chain.continues hordered⟩

lemma PhaseChain.traverses {dir : Direction} {child : String}
    (chain : PhaseChain uuid4 dir child) :
    chain.phases.Pairwise (fun v w => Follows dir v.seq w.seq) ∧
      chain.reads.length ≤ 2 ^ 64 + 1 := by
  have hordered : ∀ r ∈ chain.reads, Paging.Ordered (Follows dir) ChildCursor.afterSeq
      PhaseRead.cursor PhaseRead.next PhaseRead.seqs r := by
    intro r hr
    rw [← chain.direction r hr]
    exact r.ordered
  exact ⟨pairwise_of_seqs (Paging.pairwise_of_isChain chain.continues hordered),
    length_le_of_ordered chain.continues hordered⟩

section Encoding

variable {decode : String → Option (List UInt8)} {encode : List UInt8 → String}
  {sha256 : List UInt8 → String}

variable (uuid4 decode encode sha256) in
/-- A chain of accepted pages of a body, from its first chunk on. -/
structure BodyChain (d : BodyDescriptor) where
  reads : List (BodyRead uuid4 decode encode sha256)
  continues : reads.IsChain (Paging.Continues BodyRead.cursor BodyRead.next)
  descriptor : ∀ r ∈ reads, r.page.body.descriptor = d
  first : ∀ r ∈ reads.head?, r.query.cursor = none

namespace BodyChain

variable {d : BodyDescriptor} (chain : BodyChain uuid4 decode encode sha256 d)

/-- The bytes up to the end of the last page. -/
def covered : Nat := (chain.reads.getLast?.map fun r => offsetOf d r.stop).getD 0

def segments : List (Nat × Nat) :=
  chain.reads.flatMap fun r => r.chunks.map (segment decode)

def Complete : Prop := ∃ last, chain.reads.getLast? = some last ∧ last.next = none

lemma traverses :
    Paging.Tiles 0 chain.covered chain.segments ∧ chain.reads.length ≤ maxChunks := by
  rcases hreads : chain.reads with _ | ⟨r, reads⟩
  · refine ⟨?_, Nat.zero_le _⟩
    rw [covered, segments, hreads]
    rfl
  · have hchain := chain.continues
    have hd := chain.descriptor
    have hfirst := chain.first
    rw [hreads] at hchain hd hfirst
    obtain ⟨last, hlast, hstop, htiles⟩ := BodyRead.tiles_of_isChain hchain hd
    have hstart : r.query.start = 0 := by
      rw [ChildBodyQuery.start, hfirst r rfl]
      rfl
    have hsound := last.sound (hd last (List.mem_of_getLast? hlast))
    obtain ⟨child, hdescriptor⟩ := hsound.descriptor
    have hle := hsound.stop_le
    have hmax := (byteLength_le hdescriptor).2
    refine ⟨?_, by omega⟩
    rw [hstart, offsetOf, Nat.zero_mul, Nat.zero_min] at htiles
    rw [covered, segments, hreads, hlast]
    exact htiles

/-- A chain that has come to its end covers the body. -/
lemma covered_of_complete (h : chain.Complete) : chain.covered = d.byteLength := by
  obtain ⟨last, hlast, hnext⟩ := h
  have hsound := last.sound (chain.descriptor last (List.mem_of_getLast? hlast))
  obtain ⟨child, hdescriptor⟩ := hsound.descriptor
  rw [covered, hlast, Option.map_some, Option.getD_some, hsound.next.mp hnext, offsetOf]
  exact Nat.min_eq_right (byteLength_le hdescriptor).1

end BodyChain

end Encoding

variable (uuid4) in
/-- Accepted pages compose: their entries are in order, each at a number of its own, phases are
bound to one session, lane, leaf and child, chunks tile the body, and every chain ends. An id is
only kept from coming twice within a page. -/
theorem pages_traverse (decode : String → Option (List UInt8)) (encode : List UInt8 → String)
    (sha256 : List UInt8 → String) :
    (∀ (dir : Direction) (chain : SummaryChain uuid4 dir),
      chain.children.Pairwise (fun s t => Follows dir s.seq t.seq) ∧ chain.children.Nodup ∧
        (∀ r ∈ chain.reads, (r.page.children.map ChildSummary.childId).Nodup ∧
          ∀ c ∈ r.query.cursor, c.afterEntryId ∉ r.page.children.map ChildSummary.childId) ∧
        chain.reads.length ≤ 2 ^ 64 + 1) ∧
    (∀ (dir : Direction) (child : String) (chain : PhaseChain uuid4 dir child),
      chain.phases.Pairwise (fun v w => Follows dir v.seq w.seq) ∧ chain.phases.Nodup ∧
        (∀ r ∈ chain.reads, (r.page.phases.map ChildPhase.entryId).Nodup ∧
          ∀ c ∈ r.query.cursor, c.afterEntryId ∉ r.page.phases.map ChildPhase.entryId) ∧
        (∃ b, ∀ r ∈ chain.reads, r.Bound b child) ∧ chain.reads.length ≤ 2 ^ 64 + 1) ∧
    ∀ (d : BodyDescriptor) (chain : BodyChain uuid4 decode encode sha256 d),
      Paging.Tiles 0 chain.covered chain.segments ∧
        (chain.Complete → chain.covered = d.byteLength) ∧
        (∀ r ∈ chain.reads, ∀ c ∈ r.chunks, c.index * chunkBytes < d.byteLength ∧
          ∃ bytes, decode c.data = some bytes ∧ sha256 bytes = c.sha256) ∧
        chain.reads.length ≤ maxChunks := by
  refine ⟨?_, ?_, ?_⟩
  · intro dir chain
    obtain ⟨hpairwise, hlength⟩ := chain.traverses
    exact ⟨hpairwise, nodup_of_follows hpairwise, fun r _ => r.distinct, hlength⟩
  · intro dir child chain
    obtain ⟨hpairwise, hlength⟩ := chain.traverses
    exact ⟨hpairwise, nodup_of_follows hpairwise, fun r _ => r.distinct,
      PhaseRead.bound_of_isChain chain.continues chain.child, hlength⟩
  · intro d chain
    obtain ⟨htiles, hlength⟩ := chain.traverses
    exact ⟨htiles, chain.covered_of_complete,
      fun r hr => (r.sound (chain.descriptor r hr)).chunks, hlength⟩

end

/-! ### An id on two pages -/

def firstUuid : String := "00000000-0000-4000-8000-000000000001"

def secondUuid : String := "00000000-0000-4000-8000-000000000002"

def summaryAt (uuid : String) (seq : UInt64) : ChildSummary :=
  ⟨1, "tpchild-" ++ uuid, seq, ⟨"run", "entry", 0⟩, .nativeCheckpoint, "call", "tool", "tool", 0, none⟩

def afterSecond : ChildCursor :=
  ⟨"session", "main", "leaf", .oldestFirst, none, "tpchild-" ++ secondUuid, 2⟩

def firstRead : SummaryRead fun s => s == firstUuid || s == secondUuid where
  id := "session"
  query := ⟨none, none, .oldestFirst, 2, 4096⟩
  page := ⟨some "leaf", [summaryAt firstUuid 1, summaryAt secondUuid 2], some afterSecond, false⟩
  accepted := by rfl

/-- The first child once more, under another number. -/
def secondRead : SummaryRead fun s => s == firstUuid || s == secondUuid where
  id := "session"
  query := ⟨none, some afterSecond, .oldestFirst, 2, 4096⟩
  page := ⟨some "leaf", [summaryAt firstUuid 3], none, true⟩
  accepted := by rfl

def repeatingChain : SummaryChain (fun s => s == firstUuid || s == secondUuid) .oldestFirst where
  reads := [firstRead, secondRead]
  continues := List.IsChain.cons_cons ⟨afterSecond, rfl, rfl⟩ (List.IsChain.singleton secondRead)
  direction := by
    intro r hr
    rcases List.mem_pair.mp hr with rfl | rfl
    · rfl
    · rfl

theorem summaries_repeat :
    ¬∀ (uuid4 : String → Bool) (dir : Direction) (chain : SummaryChain uuid4 dir),
      (chain.children.map ChildSummary.childId).Nodup := by
  intro h
  have hnodup := h _ _ repeatingChain
  exact absurd hnodup (by decide)

end Child
