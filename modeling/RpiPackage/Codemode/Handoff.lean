import Mathlib.Data.List.Dedup
import RpiPackage.Codemode.Accounts

/-!
# Calls and results

How an invocation ends: the results that were emitted are kept if the host still has them, the others
are released, and a summary says what came of it. Every call that the host accepted is disposed of
once, and every result that it retains is released once or handed over, whatever a program does,
however the host answers and whenever it is cancelled.
-/

namespace Codemode

open Json Relation Result Bridge

/-! ### The end of an invocation -/

/-- A part of the content that is handed over, where a retained result has its id. -/
inductive ContentPart where
  | inline (blocks : List Value)
  | reference (id : String) (indices : Value)

structure Summary where
  status : Status
  result : Value
  error : Option String
  terminate : Bool
  isError : Bool
  nativeResultReference : Option String
  nativeResult : Option Value
  nativeContentParts : Option (List ContentPart)
  nativeContent : Option (List Value)

def emittedToken : OutputPart → Option Nat
  | .reference token _ => some token
  | .inline _ => none

namespace Bridge

variable (host : Host)

/-- The cancellation as it is found now; it may come before it is looked at again. -/
def loadCancelled (s : Bridge) : Bool × Bridge :=
  ((host.flags s.steps).cancelled, { s with steps := s.steps + 1 })

def emittedTokens (s : Bridge) : List Nat := (s.outputParts.filterMap emittedToken).dedup

/-- A result that was not selected is released; the flag tells whether all of them were. -/
def releaseRetained (r : Bool × Bridge) (token : Nat) : Bool × Bridge :=
  let (ok, s) := r
  match s.references.get token with
  | none => (ok, s)
  | some reference =>
    let (reply, s) := { s with references := s.references.erase token }.action host
      (releaseRequest reference.id)
    (ok && reply.toOption.any (released reference.id), s)

/-- Whether the host still has a result, asked with an empty selection of it. -/
def owned (reference : Reference) (reply : Value) : Bool :=
  reply.compactSize ≤ maxJson &&
    (match reply with
      | .object fields => fields.length == 3
      | _ => false) &&
    (reply.index "resultId").asStr == some reference.id &&
    asNat (reply.index "contentBlocks") == some 0 && asNat (reply.index "encodedBytes") == some 0

def probe (s : Bridge) : List Nat → Bool × Bridge
  | [] => (true, s)
  | token :: tokens =>
    match s.loadCancelled host with
    | (true, s) => (false, s)
    | (false, s) =>
      match s.references.get token with
      | none => (false, s)
      | some reference =>
        match s.action host (measureRequest reference.id (.array [])) with
        | (reply, s) => if reply.toOption.any (owned reference) then probe s tokens else (false, s)

/-- The results that were not emitted are released, before the host is asked about the others. -/
def prepareEmittedHandoff (s : Bridge) : Bool × Bridge :=
  let tokens := s.emittedTokens
  if tokens.isEmpty then (false, s)
  else
    match s.loadCancelled host with
    | (true, s) => (false, s)
    | (false, s) =>
      let (ok, s) := (s.references.keys.filter (· ∉ tokens)).foldl (releaseRetained host) (true, s)
      if !ok || s.referenceCleanupFailed then
        (false, { s with referenceCleanupFailed := true, hostLive := false })
      else if s.hostLive then
        let (cancelled, s) := s.loadCancelled host
        (!cancelled, s)
      else
        match s.probe host tokens with
        | (false, s) => (false, s)
        | (true, s) =>
          match s.loadCancelled host with
          | (true, s) => (false, s)
          | (false, s) =>
            let (cancelled, s) := { s with hostLive := true }.loadCancelled host
            (!cancelled, s)

/-- A part with the id of its result; a token without a result panics. -/
def contentPart (references : Table Nat Reference) : OutputPart → Option ContentPart
  | .inline blocks => some (.inline blocks)
  | .reference token indices => (references.get token).map fun r => .reference r.id indices

def handoffContentParts (s : Bridge) (keep : Bool) : Option (Option (List ContentPart) × Bridge) :=
  if !keep || s.outputParts.all (fun part => (emittedToken part).isNone) then some (none, s)
  else do
    let parts ← s.outputParts.mapM (contentPart s.references)
    return (some parts, { s with references := s.emittedTokens.foldl Table.erase s.references })

/-- A result that is left over is released, unless it is the one that is handed over. -/
def cleanupReference (handoff : Option Nat) (r : Option String × Bridge) (entry : Nat × Reference) :
    Option String × Bridge :=
  let (selected, s) := r
  if some entry.1 = handoff then (some entry.2.id, s)
  else
    match s.action host (releaseRequest entry.2.id) with
    | (.ok _, s) => (selected, s)
    | (.error _, s) => (selected, { s with hostLive := false })

def cleanupReferences (s : Bridge) (handoff : Option Nat) : Option String × Bridge :=
  s.references.entries.foldl (cleanupReference host handoff)
    (none, { s with references := .empty })

def attachmentLost : String := "native attachment owner unavailable after cleanup"

/-- The retained result that is handed over. -/
def handoff (s : Bridge) : Status → Option Nat
  | .terminated => s.terminalReference
  | .completed => s.selectedReference
  | _ => none

def exactResult (s : Bridge) (status : Status) : Option Value :=
  if status = .completed then s.selectedResult else none

/-- Whether nothing else is handed over than what was emitted. -/
def mayKeep (s : Bridge) (status : Status) (terminate : Bool) : Bool :=
  s.outputParts.any (fun part => (emittedToken part).isSome) && (s.handoff status).isNone &&
    (s.exactResult status).isNone && s.selectedReference.isNone && s.terminalReference.isNone &&
    !terminate

/-- What is handed over; `refused` is of an attempt to keep the results that were emitted. -/
structure Handover where
  exact : Option Value
  reference : Option String
  parts : Option (List ContentPart)
  referenceError : Bool
  refused : Bool

/-- What is said of an invocation, once it is known whether the host is still there. -/
def summarize (selection : Selection) (terminate terminalError live : Bool) (h : Handover) : Summary :=
  let lost := (h.parts.isSome || h.refused) && !live
  let o := if lost then ⟨.error, .null, some attachmentLost⟩ else selection.outcome
  let parts := if live then h.parts else none
  { status := o.status
    result := o.result
    error := if terminalError && o.error.isNone then some "terminal tool returned isError" else o.error
    terminate
    isError := h.referenceError || terminalError ||
      h.exact.any (fun v => isTrue (v.index "isError")) ||
      !(o.status == .completed || o.status == .terminated)
    nativeResultReference := h.reference
    nativeResult := h.exact
    nativeContentParts := parts
    nativeContent :=
      if parts.isNone && selection.hasSelection then some selection.selected else none }

/-- The end of an invocation; `terminate` is of its first decision. -/
def finish (s : Bridge) (terminate : Bool) (selection : Selection) : Option (Summary × Bridge) := do
  let status := selection.outcome.status
  let handoff := s.handoff status
  let exact := s.exactResult status
  let referenceError := (handoff.bind s.references.get).any Reference.isError
  let candidate := s.mayKeep status terminate
  let (cancelled, s) := s.loadCancelled host
  let mayKeep := candidate && !cancelled
  let (keep, s) := if mayKeep then s.prepareEmittedHandoff host else (false, s)
  let (parts, s) ← s.handoffContentParts keep
  let (reference, s) := s.cleanupReferences host handoff
  let (cancelled, s) := s.loadCancelled host
  return (summarize selection terminate s.terminalError (!cancelled && s.hostLive)
    ⟨exact, reference, parts, referenceError, mayKeep && !keep⟩, s)

end Bridge

/-- An invocation: the program, and what is made of the result that its run has come to. -/
def execute (fromStr : String → Option Value) (host : Host) (ops : List Op)
    (run : Except String Value) : Option (Summary × Bridge) :=
  let (o, s) := ((program fromStr host ops).cleanup host).outcome host run
  let (selection, s) := s.selection o
  s.finish host (o.status == .terminated) (guarded selection)

/-! ### Cleaning up -/

section

variable {α β : Type} {x : β}

/-- What passes a test is kept apart from what does not. -/
lemma nodup_partition {entries : List α} {f : α → β} {rest : List β} (p : α → Bool)
    (h : (entries.map f ++ rest).Nodup) :
    (rest ++ (entries.filter fun e => !p e).map f).Nodup ∧
      ∀ x ∈ entries.map f ++ rest,
        (x ∈ rest ++ (entries.filter fun e => !p e).map f ↔ x ∉ (entries.filter p).map f) := by
  have hperm : ((entries.filter p).map f ++ (rest ++ (entries.filter fun e => !p e).map f)).Perm
      (entries.map f ++ rest) := by
    have hfilter := (List.filter_append_perm p entries).map f
    rw [List.map_append] at hfilter
    refine List.Perm.trans ?_ (hfilter.append_right rest)
    rw [List.append_assoc]
    exact List.perm_append_comm.append_left _
  have hnodup := hperm.nodup_iff.mpr h
  refine ⟨(List.nodup_append.mp hnodup).2.1, fun x hx => ⟨?_, ?_⟩⟩
  · exact fun hrest hfilter => List.disjoint_of_nodup_append hnodup hfilter hrest
  · intro hfilter
    exact (List.mem_append.mp (hperm.mem_iff.mpr hx)).resolve_left hfilter

end

/-- The id of the result in a part. -/
def ContentPart.resultId : ContentPart → Option String
  | .inline _ => none
  | .reference id _ => some id

/-- The results that a summary hands over. -/
def Summary.handed (m : Summary) : List String :=
  m.nativeResultReference.toList ++ (m.nativeContentParts.getD []).filterMap ContentPart.resultId

/-- Nothing has happened but that results were released. -/
structure Accounts.Releases (a a' : Accounts) : Prop where
  deals : Deals a a'
  known : a'.known.Perm a.known
  pending : a'.pending = a.pending
  seen : a'.seen = a.seen
  disposed : a'.disposed = a.disposed
  terminalError : a'.terminalError = a.terminalError

lemma Accounts.Releases.of_eq {a a' : Accounts} (h : a' = a) : a.Releases a' := by
  rw [h]
  exact ⟨.refl, .refl _, rfl, rfl, rfl, rfl⟩

lemma Accounts.Releases.trans {a b c : Accounts} (h : a.Releases b) (h' : b.Releases c) :
    a.Releases c :=
  ⟨h.deals.trans h'.deals, h'.known.trans h.known, h'.pending.trans h.pending, h'.seen.trans h.seen,
    h'.disposed.trans h.disposed, h'.terminalError.trans h.terminalError⟩

namespace Bridge

section

variable {fromStr : String → Option Value} {host : Host} {s : Bridge}

lemma mem_emittedTokens {token : Nat} :
    token ∈ s.emittedTokens ↔ s.outputParts.any (isEmitted token) = true := by
  rw [emittedTokens, List.mem_dedup, List.mem_filterMap, List.any_eq_true]
  constructor
  · rintro ⟨part, hpart, htoken⟩
    refine ⟨part, hpart, ?_⟩
    cases part with
    | inline blocks => cases htoken
    | reference emitted indices => simpa [isEmitted, emittedToken] using htoken
  · rintro ⟨part, hpart, htoken⟩
    refine ⟨part, hpart, ?_⟩
    cases part with
    | inline blocks => cases htoken
    | reference emitted indices => simpa [isEmitted, emittedToken] using htoken

/-- A result that was not emitted is let go of. -/
lemma released_releaseRetained {ok : Bool} {token : Nat}
    (hfree : s.accounts.parts.any (isEmitted token) = false) (hselected : s.accounts.selected = none) :
    s.accounts.Releases (releaseRetained host (ok, s) token).2.accounts ∧
      (releaseRetained host (ok, s) token).2.accounts.parts = s.accounts.parts ∧
      (releaseRetained host (ok, s) token).2.accounts.selected = s.accounts.selected := by
  unfold releaseRetained
  dsimp only
  split
  · exact ⟨.of_eq rfl, rfl, rfl⟩
  next reference hget =>
  have haccounts : ({ s with references := s.references.erase token }.action host
      (releaseRequest reference.id)).2.accounts =
        { s.accounts with
          references := s.accounts.references.erase token
          released := s.accounts.released ++ [reference.id] } := accounts_release _
  rw [haccounts]
  refine ⟨⟨.single (.released token reference hget hfree ?_), Accounts.known_release hget, rfl, rfl,
    rfl, rfl⟩, rfl, rfl⟩
  rw [hselected]
  exact nofun

lemma released_foldl {tokens : List Nat} {r : Bool × Bridge}
    (hfree : ∀ token ∈ tokens, r.2.accounts.parts.any (isEmitted token) = false)
    (hselected : r.2.accounts.selected = none) :
    r.2.accounts.Releases (tokens.foldl (releaseRetained host) r).2.accounts := by
  induction tokens generalizing r with
  | nil => exact .of_eq rfl
  | cons token tokens ih =>
    obtain ⟨ok, s⟩ := r
    obtain ⟨hreleases, hparts, hsame⟩ := @released_releaseRetained host s ok token
      (hfree token List.mem_cons_self) hselected
    exact hreleases.trans (@ih (releaseRetained host (ok, s) token)
      (fun other hother => hparts ▸ hfree other (List.mem_cons_of_mem _ hother))
      (hsame.trans hselected))

lemma accounts_probe (tokens : List Nat) : (s.probe host tokens).2.accounts = s.accounts := by
  induction tokens generalizing s with
  | nil => rfl
  | cons token tokens ih =>
    unfold probe loadCancelled
    split
    · next s₁ h =>
      rw [← (Prod.mk.inj h).2]
      rfl
    next s₁ h =>
    have hs₁ : s₁.accounts = s.accounts := by
      rw [← (Prod.mk.inj h).2]
      rfl
    split
    · exact hs₁
    split
    next reply s₂ haction =>
    have hs₂ := (accounts_of_action (keeps_measure _ _) haction).trans hs₁
    split
    · exact ih.trans hs₂
    · exact hs₂

/-- Only what was not emitted is released ahead of the others. -/
lemma prepareEmittedHandoff_spec (hselected : s.selectedReference = none) :
    s.accounts.Releases (s.prepareEmittedHandoff host).2.accounts := by
  unfold prepareEmittedHandoff
  dsimp only
  split
  · exact .of_eq rfl
  split
  · next s₁ h =>
    exact .of_eq (congrArg (fun r => r.2.accounts) h).symm
  next s₁ h =>
  have hs₁ : s₁.accounts = s.accounts := (congrArg (fun r => r.2.accounts) h).symm
  have hfold := @released_foldl host (s₁.references.keys.filter (· ∉ s.emittedTokens)) (true, s₁)
    (by
      intro token htoken
      have hnot := of_decide_eq_true (List.mem_filter.mp htoken).2
      rw [mem_emittedTokens, Bool.not_eq_true] at hnot
      rw [hs₁]
      exact hnot)
    (by rw [hs₁]; exact hselected)
  rw [hs₁] at hfold
  generalize (s₁.references.keys.filter (· ∉ s.emittedTokens)).foldl (releaseRetained host)
    (true, s₁) = r at hfold ⊢
  obtain ⟨ok, s₂⟩ := r
  dsimp only at hfold ⊢
  split
  · exact hfold
  split
  · exact hfold
  have hprobe := @accounts_probe host s₂ s.emittedTokens
  split
  · next s₃ hs₃ =>
    rw [hs₃] at hprobe
    rw [hprobe]
    exact hfold
  next s₃ hs₃ =>
  rw [hs₃] at hprobe
  rw [← hprobe] at hfold
  split
  · next s₄ hs₄ =>
    rw [← show s₃.accounts = s₄.accounts from congrArg (fun r => r.2.accounts) hs₄]
    exact hfold
  next s₄ hs₄ =>
  rw [show s₃.accounts = s₄.accounts from congrArg (fun r => r.2.accounts) hs₄] at hfold
  exact hfold

/-- Each part finds its result, and no other result is named. -/
lemma mapM_contentPart {references : Table Nat Reference} {parts : List OutputPart}
    (h : ∀ token ∈ parts.filterMap emittedToken, references.get token ≠ none) :
    ∃ contents, parts.mapM (contentPart references) = some contents ∧
      ∀ id, id ∈ contents.filterMap ContentPart.resultId ↔
        ∃ token ∈ parts.filterMap emittedToken, ∃ reference,
          references.get token = some reference ∧ reference.id = id := by
  induction parts with
  | nil => exact ⟨[], rfl, fun id => by simp⟩
  | cons part parts ih =>
    cases part with
    | inline blocks =>
      obtain ⟨contents, hcontents, hids⟩ := ih h
      refine ⟨.inline blocks :: contents, ?_, hids⟩
      rw [List.mapM_cons, hcontents]
      rfl
    | reference token indices =>
      obtain ⟨contents, hcontents, hids⟩ := ih fun other hother =>
        h other (List.mem_cons_of_mem _ hother)
      obtain ⟨reference, hget⟩ := Option.ne_none_iff_exists'.mp (h token List.mem_cons_self)
      refine ⟨.reference reference.id indices :: contents, ?_, fun id => ?_⟩
      · rw [List.mapM_cons, hcontents, contentPart, hget]
        rfl
      · show id ∈ reference.id :: contents.filterMap ContentPart.resultId ↔
          ∃ other ∈ token :: parts.filterMap emittedToken, _
        rw [List.mem_cons, hids]
        constructor
        · rintro (rfl | ⟨other, hother, hid⟩)
          · exact ⟨token, List.mem_cons_self, reference, hget, rfl⟩
          · exact ⟨other, List.mem_cons_of_mem _ hother, hid⟩
        · rintro ⟨other, hother, found, hfound, hid⟩
          rcases List.mem_cons.mp hother with rfl | hother
          · rw [hget] at hfound
            exact .inl (Option.some.inj hfound ▸ hid.symm)
          · exact .inr ⟨other, hother, found, hfound, hid⟩

lemma entries_foldl_erase (tokens : List Nat) (references : Table Nat Reference) :
    (tokens.foldl Table.erase references).entries =
      references.entries.filter fun entry => entry.1 ∉ tokens := by
  induction tokens generalizing references with
  | nil => exact (List.filter_eq_self.mpr fun _ _ => by simp).symm
  | cons token tokens ih =>
    rw [List.foldl_cons, ih]
    show (references.entries.filter fun p => p.1 != token).filter _ = _
    rw [List.filter_filter]
    refine List.filter_congr fun entry _ => ?_
    rw [Bool.eq_iff_iff, Bool.and_eq_true, decide_eq_true_iff, decide_eq_true_iff, bne_iff_ne,
      List.mem_cons, not_or]
    exact And.comm

/-- The results whose ids go out with the parts are no longer cleaned up. -/
lemma handoffContentParts_spec (keep : Bool)
    (hparts : ∀ token, s.outputParts.any (isEmitted token) = true → s.references.get token ≠ none) :
    ∃ parts s', s.handoffContentParts keep = some (parts, s') ∧
      ∃ tokens, s' = { s with references := tokens.foldl Table.erase s.references } ∧
        (parts = none ∧ tokens = [] ∨ keep = true ∧ ∃ contents, parts = some contents ∧
          ∀ id, id ∈ contents.filterMap ContentPart.resultId ↔
            ∃ token ∈ tokens, ∃ reference, s.references.get token = some reference ∧
              reference.id = id) := by
  unfold handoffContentParts
  split
  · exact ⟨none, s, rfl, [], rfl, .inl ⟨rfl, rfl⟩⟩
  next hkeep =>
  rw [Bool.or_eq_true, not_or, Bool.not_eq_true', Bool.not_eq_false] at hkeep
  obtain ⟨contents, hcontents, hids⟩ := @mapM_contentPart s.references s.outputParts (by
    intro token htoken
    refine hparts token (mem_emittedTokens.mp ?_)
    rw [emittedTokens, List.mem_dedup]
    exact htoken)
  refine ⟨some contents, _, ?_, s.emittedTokens, rfl, .inr ⟨hkeep.1, contents, rfl, ?_⟩⟩
  · rw [hcontents]
    rfl
  · intro id
    rw [hids, emittedTokens]
    simp only [List.mem_dedup]

/-- All results but the one that is handed over are released. -/
lemma cleanupReferences_fold {handoff : Option Nat} (entries : List (Nat × Reference))
    (hnodup : (entries.map Prod.fst).Nodup) (r : Option String × Bridge) :
    (entries.foldl (cleanupReference host handoff) r).1 =
        (((entries.filter fun entry => some entry.1 == handoff).head?.map fun entry => entry.2.id).or
          r.1) ∧
      (entries.foldl (cleanupReference host handoff) r).2.accounts =
        { r.2.accounts with
          released := r.2.accounts.released ++
            (entries.filter fun entry => !(some entry.1 == handoff)).map fun entry => entry.2.id } := by
  induction entries generalizing r with
  | nil =>
    refine ⟨rfl, ?_⟩
    rw [List.filter_nil, List.map_nil, List.append_nil]
    rfl
  | cons entry entries ih =>
    obtain ⟨selected, s⟩ := r
    rw [List.map_cons, List.nodup_cons] at hnodup
    rw [List.foldl_cons]
    by_cases hentry : some entry.1 = handoff
    · obtain ⟨hfst, hsnd⟩ := ih hnodup.2 (some entry.2.id, s)
      have hnone : entries.filter (fun entry => some entry.1 == handoff) = [] := by
        rw [List.filter_eq_nil_iff]
        intro other hother heq
        rw [beq_iff_eq, ← hentry, Option.some.injEq] at heq
        exact hnodup.1 (List.mem_map.mpr ⟨other, hother, heq⟩)
      have hstep : cleanupReference host handoff (selected, s) entry = (some entry.2.id, s) := by
        unfold cleanupReference
        exact if_pos hentry
      rw [hstep, hfst, hsnd, hnone, List.filter_cons_of_pos (by rw [beq_iff_eq]; exact hentry),
        List.filter_cons_of_neg (by rw [Bool.not_eq_true', beq_eq_false_iff_ne, not_not]; exact hentry)]
      exact ⟨rfl, rfl⟩
    · have hstep : (cleanupReference host handoff (selected, s) entry).1 = selected ∧
          (cleanupReference host handoff (selected, s) entry).2.accounts =
            { s.accounts with released := s.accounts.released ++ [entry.2.id] } := by
        have hrelease := @accounts_release host s entry.2.id
        unfold cleanupReference
        dsimp only
        rw [if_neg hentry]
        split
        · next s₁ haction =>
          rw [haction] at hrelease
          exact ⟨rfl, hrelease⟩
        · next s₁ haction =>
          rw [haction] at hrelease
          exact ⟨rfl, hrelease⟩
      generalize cleanupReference host handoff (selected, s) entry = r at hstep
      obtain ⟨rfl, haccounts⟩ := hstep
      obtain ⟨hfst, hsnd⟩ := ih hnodup.2 r
      rw [hfst, hsnd, haccounts, List.filter_cons_of_neg (by rw [beq_iff_eq]; exact hentry),
        List.filter_cons_of_pos (by rw [Bool.not_eq_true', beq_eq_false_iff_ne]; exact hentry),
        List.map_cons, List.append_assoc]
      exact ⟨rfl, rfl⟩

lemma cleanupReferences_spec (handoff : Option Nat) :
    (s.cleanupReferences host handoff).1 =
        ((s.references.entries.filter fun entry => some entry.1 == handoff).head?.map
          fun entry => entry.2.id) ∧
      (s.cleanupReferences host handoff).2.accounts =
        { s.accounts with
          references := .empty
          released := s.accounts.released ++ (s.references.entries.filter
            fun entry => !(some entry.1 == handoff)).map fun entry => entry.2.id } := by
  obtain ⟨hfst, hsnd⟩ := @cleanupReferences_fold host handoff s.references.entries
    s.references.nodup (none, { s with references := .empty })
  rw [Option.or_none] at hfst
  exact ⟨hfst, hsnd⟩

lemma nothing_of_mayKeep {status : Status} {terminate : Bool}
    (h : s.mayKeep status terminate = true) :
    s.handoff status = none ∧ s.exactResult status = none ∧ s.selectedReference = none ∧
      terminate = false := by
  unfold mayKeep at h
  simp only [Bool.and_eq_true, Option.isNone_iff_eq_none, Bool.not_eq_true'] at h
  exact ⟨h.1.1.1.1.2, h.1.1.1.2, h.1.1.2, h.2⟩

/-- The steps of the end, with what was kept of the results that were emitted. -/
lemma finish_eq (h : s.accounts.Balanced) (terminate : Bool) (selection : Selection) :
    ∃ (keep live referenceError refused : Bool) (s₂ s₃ s' : Bridge)
        (parts : Option (List ContentPart)),
      s.finish host terminate selection =
          some (summarize selection terminate s.terminalError live
            ⟨s.exactResult selection.outcome.status,
              (s₃.cleanupReferences host (s.handoff selection.outcome.status)).1, parts,
              referenceError, refused⟩, s') ∧
        s'.accounts =
          (s₃.cleanupReferences host (s.handoff selection.outcome.status)).2.accounts ∧
        (s.mayKeep selection.outcome.status terminate = false →
          keep = false ∧ refused = false ∧ s₂.references = s.references) ∧
        s₂.handoffContentParts keep = some (parts, s₃) ∧
        s.accounts.Releases s₂.accounts := by
  have hkeep : ∃ keep s₂,
      (if (s.mayKeep selection.outcome.status terminate && !(host.flags s.steps).cancelled) = true
        then (s.loadCancelled host).2.prepareEmittedHandoff host
        else (false, (s.loadCancelled host).2)) = (keep, s₂) ∧
        (s.mayKeep selection.outcome.status terminate = false →
          keep = false ∧ s₂.references = s.references) ∧
        s.accounts.Releases s₂.accounts := by
    by_cases hmay :
        (s.mayKeep selection.outcome.status terminate && !(host.flags s.steps).cancelled) = true
    · have hcandidate := (Bool.and_eq_true_iff.mp hmay).1
      have hselected := (nothing_of_mayKeep hcandidate).2.2.1
      have hspec := @prepareEmittedHandoff_spec host (s.loadCancelled host).2 hselected
      refine ⟨_, _, if_pos hmay, fun hno => ?_, hspec⟩
      rw [hcandidate] at hno
      cases hno
    · exact ⟨_, _, if_neg hmay, fun _ => ⟨rfl, rfl⟩, .of_eq rfl⟩
  obtain ⟨keep, s₂, hkeep, hcandidate, hreleases⟩ := hkeep
  obtain ⟨parts, s₃, hparts, tokens, hs₃, -⟩ :=
    @handoffContentParts_spec s₂ keep (h.deals hreleases.deals).parts
  have hterminal :
      (s₃.cleanupReferences host (s.handoff selection.outcome.status)).2.terminalError =
        s.terminalError := by
    have hcleanup := congrArg Accounts.terminalError
      (@cleanupReferences_spec host s₃ (s.handoff selection.outcome.status)).2
    rw [hs₃] at hcleanup ⊢
    exact hcleanup.trans hreleases.terminalError
  have hfinish : s.finish host terminate selection =
      some (summarize selection terminate
        (s₃.cleanupReferences host (s.handoff selection.outcome.status)).2.terminalError
        (!(host.flags (s₃.cleanupReferences host
            (s.handoff selection.outcome.status)).2.steps).cancelled &&
          (s₃.cleanupReferences host (s.handoff selection.outcome.status)).2.hostLive)
        ⟨s.exactResult selection.outcome.status,
          (s₃.cleanupReferences host (s.handoff selection.outcome.status)).1, parts,
          ((s.handoff selection.outcome.status).bind s.references.get).any Reference.isError,
          (s.mayKeep selection.outcome.status terminate && !(host.flags s.steps).cancelled) && !keep⟩,
        ((s₃.cleanupReferences host
          (s.handoff selection.outcome.status)).2.loadCancelled host).2) := by
    have hload : s.loadCancelled host =
        ((host.flags s.steps).cancelled, (s.loadCancelled host).2) := rfl
    unfold finish
    rw [hload]
    dsimp only
    rw [hkeep]
    dsimp only
    rw [hparts]
    rfl
  rw [hterminal] at hfinish
  refine ⟨_, _, _, _, _, _, _, _, hfinish, rfl, fun hno => ?_, hparts, hreleases⟩
  obtain ⟨hkept, hreferences⟩ := hcandidate hno
  refine ⟨hkept, ?_, hreferences⟩
  rw [hno, Bool.false_and, Bool.false_and]

end

end Bridge

/-- The results that were emitted went out with a host that was no longer there. -/
def Summary.Abandons (m : Summary) : Prop :=
  m.status = .error ∧ m.error = some attachmentLost ∧ m.nativeContentParts = none

section

variable {fromStr : String → Option Value} {host : Host} {s : Bridge}

/-- There is one result under a token. -/
lemma head_filter {references : Table Nat Reference} {handoff : Option Nat} {id : String} :
    (references.entries.filter fun entry => some entry.1 == handoff).head?.map
        (fun entry => entry.2.id) = some id ↔
      ∃ entry ∈ references.entries, some entry.1 = handoff ∧ entry.2.id = id := by
  rw [Option.map_eq_some_iff]
  constructor
  · rintro ⟨entry, hhead, hid⟩
    obtain ⟨hmem, htoken⟩ := List.mem_filter.mp (List.mem_of_head? hhead)
    exact ⟨entry, hmem, beq_iff_eq.mp htoken, hid⟩
  · rintro ⟨⟨token, reference⟩, hmem, rfl, hid⟩
    have hfilter : (token, reference) ∈
        references.entries.filter fun entry => some entry.1 == some token :=
      List.mem_filter.mpr ⟨hmem, beq_self_eq_true _⟩
    cases hlist : references.entries.filter fun entry => some entry.1 == some token with
    | nil =>
      rw [hlist] at hfilter
      cases hfilter
    | cons first rest =>
      have hfirst : first ∈ references.entries.filter fun entry => some entry.1 == some token := by
        rw [hlist]
        exact List.mem_cons_self
      obtain ⟨hmem', htoken⟩ := List.mem_filter.mp hfirst
      obtain ⟨other, reference'⟩ := first
      obtain rfl : other = token := Option.some.inj (beq_iff_eq.mp htoken)
      have hsame := (Table.get_of_mem_entries hmem').symm.trans (Table.get_of_mem_entries hmem)
      obtain rfl := Option.some.inj hsame
      exact ⟨_, rfl, hid⟩

/-- What a summary hands over is what was not cleaned up. -/
lemma handed_summarize {s₂ s₃ : Bridge} {keep live terminalError referenceError refused terminate : Bool}
    {selection : Selection} {exact : Option Value} {parts : Option (List ContentPart)}
    {handoff : Option Nat} (hbalanced : s₂.accounts.Balanced)
    (hparts : s₂.handoffContentParts keep = some (parts, s₃)) (hkeep : keep = true → handoff = none) :
    ∃ p : Nat × Reference → Bool,
      (s₃.cleanupReferences host handoff).2.accounts = { s₂.accounts with
        references := .empty
        released := s₂.accounts.released ++
          (s₂.references.entries.filter fun entry => !p entry).map fun entry => entry.2.id } ∧
      ∀ summary, summary = summarize selection terminate terminalError live
          ⟨exact, (s₃.cleanupReferences host handoff).1, parts, referenceError, refused⟩ →
        (summary.nativeResultReference = none ∨ summary.nativeContentParts = none) ∧
        (∀ id ∈ summary.handed, id ∈ (s₂.references.entries.filter p).map fun entry => entry.2.id) ∧
        ((∀ id ∈ (s₂.references.entries.filter p).map fun entry => entry.2.id, id ∈ summary.handed) ∨
          summary.Abandons) := by
  obtain ⟨parts', s₃', hparts', tokens, hs₃, hcase⟩ := @handoffContentParts_spec s₂ keep hbalanced.parts
  rw [hparts, Option.some.injEq, Prod.mk.injEq] at hparts'
  obtain ⟨rfl, rfl⟩ := hparts'
  obtain ⟨hfst, hsnd⟩ := @cleanupReferences_spec host s₃ handoff
  have hentries : s₃.references.entries =
      s₂.references.entries.filter fun entry => entry.1 ∉ tokens := by
    rw [hs₃]
    exact entries_foldl_erase tokens s₂.references
  have hrest : (s₃.references.entries.filter fun entry => !(some entry.1 == handoff)) =
      s₂.references.entries.filter
        fun entry => !(decide (entry.1 ∈ tokens) || some entry.1 == handoff) := by
    rw [hentries, List.filter_filter]
    refine List.filter_congr fun entry _ => ?_
    rw [Bool.not_or, Bool.and_comm, decide_not]
  refine ⟨fun entry => entry.1 ∈ tokens || some entry.1 == handoff, ?_, ?_⟩
  · rw [hsnd, hrest, hs₃]
    rfl
  rintro summary rfl
  have hmem : ∀ id, id ∈ (s₂.references.entries.filter
      fun entry => decide (entry.1 ∈ tokens) || some entry.1 == handoff).map
        (fun entry => entry.2.id) ↔ ∃ entry ∈ s₂.references.entries,
          (entry.1 ∈ tokens ∨ some entry.1 = handoff) ∧ entry.2.id = id := by
    intro id
    simp only [List.mem_map, List.mem_filter, Bool.or_eq_true, decide_eq_true_iff, beq_iff_eq,
      and_assoc]
  rcases hcase with ⟨rfl, rfl⟩ | ⟨hkept, contents, rfl, hids⟩
  · -- nothing was handed over but the selected result
    have hreference : ∀ id, (s₃.cleanupReferences host handoff).1 = some id ↔
        ∃ entry ∈ s₂.references.entries, some entry.1 = handoff ∧ entry.2.id = id := by
      intro id
      rw [hfst, head_filter, hentries]
      simp only [List.not_mem_nil, not_false_eq_true, decide_true, List.filter_true]
    have hhanded : (summarize selection terminate terminalError live
        ⟨exact, (s₃.cleanupReferences host handoff).1, none, referenceError, refused⟩).handed =
          (s₃.cleanupReferences host handoff).1.toList := by
      unfold Summary.handed summarize
      dsimp only
      rw [ite_self]
      exact List.append_nil _
    rw [hhanded]
    refine ⟨.inr (by unfold summarize; exact ite_self _), ?_, .inl ?_⟩
    · intro id hid
      obtain ⟨entry, hentry, hselected, rfl⟩ := (hreference id).mp (Option.mem_toList.mp hid)
      exact (hmem _).mpr ⟨entry, hentry, .inr hselected, rfl⟩
    · intro id hid
      obtain ⟨entry, hentry, hcases, rfl⟩ := (hmem id).mp hid
      have hselected := hcases.resolve_left List.not_mem_nil
      exact Option.mem_toList.mpr ((hreference _).mpr ⟨entry, hentry, hselected, rfl⟩)
  · -- the results that were emitted go out with the parts, if the host is still there
    obtain rfl := hkeep hkept
    have hreference : (s₃.cleanupReferences host none).1 = none := by
      rw [hfst, List.filter_eq_nil_iff.mpr]
      · rfl
      · intro entry _
        exact nofun
    have hcontents : ∀ id, id ∈ (s₂.references.entries.filter
        fun entry => decide (entry.1 ∈ tokens) || some entry.1 == none).map
          (fun entry => entry.2.id) ↔ id ∈ contents.filterMap ContentPart.resultId := by
      intro id
      rw [hmem, hids]
      constructor
      · rintro ⟨entry, hentry, htoken, hid⟩
        exact ⟨entry.1, htoken.resolve_right nofun, entry.2, Table.get_of_mem_entries hentry, hid⟩
      · rintro ⟨token, htoken, reference, hget, hid⟩
        exact ⟨(token, reference), Table.mem_entries_of_get hget, .inl htoken, hid⟩
    rw [hreference]
    cases live with
    | true =>
      refine ⟨.inl rfl, ?_, .inl ?_⟩
      · intro id hid
        exact (hcontents id).mpr hid
      · intro id hid
        exact (hcontents id).mp hid
    | false =>
      refine ⟨.inl rfl, fun id hid => absurd hid List.not_mem_nil, .inr ⟨rfl, ?_, rfl⟩⟩
      unfold summarize
      cases terminalError
      · rfl
      · rfl

/-- What has come of the results once nothing is pending. -/
structure Summary.Settles (m : Summary) (a : Accounts) (s' : Bridge) : Prop where
  pending : s'.pending = a.pending
  seen : s'.seenIds = a.seen
  disposed : s'.disposals = a.disposed
  references : s'.references = .empty
  once : s'.releases.Nodup
  ends : ∀ id ∈ s'.releases, id ∈ a.disposed
  apart : m.nativeResultReference = none ∨ m.nativeContentParts = none
  handed : ∀ id ∈ m.handed, id ∈ a.retained ∧ id ∉ s'.releases
  known : ∀ id ∈ a.known, id ∈ m.handed ∨ id ∈ s'.releases ∨ m.Abandons

lemma finish_settles (h : s.accounts.Balanced) (terminate : Bool) (selection : Selection) :
    ∃ summary s', s.finish host terminate selection = some (summary, s') ∧
      summary.Settles s.accounts s' := by
  obtain ⟨keep, live, referenceError, refused, s₂, s₃, s', parts, hfinish, haccounts, hcandidate,
    hparts, hreleases⟩ := @finish_eq host s h terminate selection
  have hbalanced := h.deals hreleases.deals
  have hkeep : keep = true → s.handoff selection.outcome.status = none := by
    intro hkeep
    by_cases hmay : s.mayKeep selection.outcome.status terminate = true
    · exact (nothing_of_mayKeep hmay).1
    · rw [(hcandidate (Bool.not_eq_true _ ▸ hmay)).1] at hkeep
      cases hkeep
  obtain ⟨p, hcleanup, hsummary⟩ := @handed_summarize host s₂ s₃ keep live s.terminalError
    referenceError refused terminate selection _ parts _ hbalanced hparts hkeep
  rw [hcleanup] at haccounts
  obtain ⟨honce, hsplit⟩ := nodup_partition p (show (s₂.references.entries.map
    (fun entry => entry.2.id) ++ s₂.accounts.released).Nodup from hbalanced.results)
  have hreleased : s'.releases = s₂.accounts.released ++
      (s₂.references.entries.filter fun entry => !p entry).map fun entry => entry.2.id :=
    congrArg Accounts.released haccounts
  obtain ⟨hapart, hhanded, hall⟩ := hsummary _ rfl
  refine ⟨_, s', hfinish, ?_⟩
  rw [← hreleased] at honce hsplit
  have hkept : ∀ id ∈ (s₂.references.entries.filter p).map fun entry => entry.2.id,
      id ∈ s₂.accounts.known ∧ id ∉ s'.releases := by
    intro id hid
    have hknown : id ∈ s₂.accounts.known :=
      List.mem_append_left _ ((List.filter_sublist.map _).mem hid)
    exact ⟨hknown, fun hreleases => (hsplit id hknown).mp hreleases hid⟩
  have hover : ∀ id ∈ s'.releases, id ∈ s₂.accounts.disposed := by
    intro id hid
    refine hbalanced.ends id ?_
    rw [hreleased] at hid
    rcases List.mem_append.mp hid with hid | hid
    · exact List.mem_append_right _ hid
    · exact List.mem_append_left _ ((List.filter_sublist.map _).mem hid)
  refine ⟨(congrArg Accounts.pending haccounts).trans hreleases.pending,
    (congrArg Accounts.seen haccounts).trans hreleases.seen,
    (congrArg Accounts.disposed haccounts).trans hreleases.disposed,
    congrArg Accounts.references haccounts, honce, hreleases.disposed ▸ hover, hapart, ?_, ?_⟩
  · intro id hid
    obtain ⟨hknown, hnot⟩ := hkept id (hhanded id hid)
    refine ⟨(List.mem_append.mp (hreleases.known.mem_iff.mp hknown)).resolve_right ?_, hnot⟩
    intro hreleased'
    refine hnot ?_
    rw [hreleased]
    exact List.mem_append_left _ (Accounts.released_of_deals hreleases.deals hreleased')
  · intro id hid
    have hknown := hreleases.known.mem_iff.mpr hid
    by_cases hrelease : id ∈ s'.releases
    · exact .inr (.inl hrelease)
    · have hfilter := not_not.mp fun hnot => hrelease ((hsplit id hknown).mpr hnot)
      rcases hall with hall | hlost
      · exact .inl (hall id hfilter)
      · exact .inr (.inr hlost)

lemma balanced_program (ops : List Op) : (program fromStr host ops).accounts.Balanced :=
  balanced_new.deals (deals_program ops)

/-- An invocation: it cleans up, decides and selects before it hands over. -/
lemma execute_eq (ops : List Op) (run : Except String Value) :
    ∃ o s₁ selection s₂,
      ((program fromStr host ops).cleanup host).outcome host run = (o, s₁) ∧
        s₁.selection o = (selection, s₂) ∧
        execute fromStr host ops run =
          s₂.finish host (o.status == .terminated) (guarded selection) ∧
        (program fromStr host ops).accounts.closed.Extends s₂.accounts ∧ s₂.accounts.Balanced := by
  have haccounts : (((program fromStr host ops).cleanup host).outcome host run).2.accounts =
      (program fromStr host ops).accounts.closed :=
    (accounts_outcome run).trans accounts_cleanup
  unfold execute
  generalize ((program fromStr host ops).cleanup host).outcome host run = r at haccounts ⊢
  obtain ⟨o, s⟩ := r
  have hextends := @extends_selection s o
  rw [show s.accounts = _ from haccounts] at hextends
  have hbalanced := (@balanced_program fromStr host ops).closed.deals
    hextends.deals
  exact ⟨o, s, _, _, rfl, rfl, rfl, hextends, hbalanced⟩

end

/-- Whatever a program does, however the host answers and whenever it is stopped: there is a summary,
each call that the host accepted is disposed of once, no result is released twice, and each result
that was ever retained is released or handed over, and not both; it is neither only if the host was
gone when it went out, which the summary says. A result is handed over in one place, nothing is left
to be cleaned up, and only so many calls and results are there at a time. -/
theorem execute_settles (fromStr : String → Option Value) (host : Host) (ops : List Op)
    (run : Except String Value) :
    ∃ summary s, execute fromStr host ops run = some (summary, s) ∧
      s.pending = [] ∧ s.references = .empty ∧
      (program fromStr host ops).seenIds.Nodup ∧
      s.disposals.Perm (program fromStr host ops).seenIds ∧
      s.releases.Nodup ∧
      (∀ id ∈ s.releases, id ∈ (program fromStr host ops).seenIds) ∧
      (summary.nativeResultReference = none ∨ summary.nativeContentParts = none) ∧
      (∀ id ∈ summary.handed, id ∉ s.releases ∧ ∃ token reference,
        (program fromStr host ops).references.get token = some reference ∧ reference.id = id) ∧
      ∀ n, (∀ token reference,
          (program fromStr host (ops.take n)).references.get token = some reference →
            reference.id ∈ summary.handed ∨ reference.id ∈ s.releases ∨ summary.Abandons) ∧
        (program fromStr host (ops.take n)).started ≤ maxCalls ∧
        (program fromStr host (ops.take n)).pending.length ≤ maxActive ∧
        (program fromStr host (ops.take n)).references.size ≤ maxReferences := by
  obtain ⟨o, s₁, selection, s₂, -, -, hexecute, hextends, ha⟩ :=
    @execute_eq fromStr host ops run
  obtain ⟨summary, s, hfinish, hsettles⟩ := @finish_settles host s₂ ha (o.status == .terminated)
    (guarded selection)
  have hbalanced := @balanced_program fromStr host ops
  generalize s₂.accounts = a at hextends ha hsettles
  have hseen : a.seen = (program fromStr host ops).seenIds := congrArg Accounts.seen hextends.same
  have hpending : a.pending = [] := congrArg Accounts.pending hextends.same
  have hdisposed : a.disposed.Perm (program fromStr host ops).seenIds := by
    have hcalls := ha.calls
    rw [hpending, hseen] at hcalls
    exact hcalls
  refine ⟨summary, s, hexecute.trans hfinish, hsettles.pending.trans hpending, hsettles.references, hbalanced.seen,
    hsettles.disposed ▸ hdisposed, hsettles.once,
    fun id hid => hdisposed.mem_iff.mp (hsettles.ends id hid), hsettles.apart, ?_, ?_⟩
  · intro id hid
    obtain ⟨hretained, hnot⟩ := hsettles.handed id hid
    have hreferences : a.references = (program fromStr host ops).references :=
      congrArg Accounts.references hextends.same
    rw [Accounts.retained, hreferences] at hretained
    obtain ⟨⟨token, reference⟩, hmem, hid⟩ := List.mem_map.mp hretained
    exact ⟨hnot, token, reference, Table.get_of_mem_entries hmem, hid⟩
  · intro n
    have hthen := @balanced_program fromStr host (ops.take n)
    refine ⟨fun token reference hget => ?_, hthen.started, hthen.active, hthen.size⟩
    have hknown : reference.id ∈ (program fromStr host (ops.take n)).accounts.known :=
      List.mem_append_left _ (List.mem_map.mpr ⟨_, Table.mem_entries_of_get hget, rfl⟩)
    have hdeals := @deals_of_append fromStr host (ops.take n) (ops.drop n)
    rw [List.take_append_drop] at hdeals
    have hclosed : reference.id ∈ (program fromStr host ops).accounts.closed.known := by
      have hknown' := Accounts.known_of_deals hdeals hknown
      show _ ∈ (program fromStr host ops).accounts.retained ++ (_ ++ _)
      rw [← List.append_assoc]
      exact List.mem_append_left _ hknown'
    exact hsettles.known _ (Accounts.known_of_deals hextends.deals hclosed)

/-! ### Runs that were stopped -/

/-- Nothing happens but that time passes and the error is kept. -/
structure Bridge.Idles (s s' : Bridge) : Prop where
  steps : s.steps ≤ s'.steps
  fatal : s.fatal ≠ none → s'.fatal ≠ none
  same : s' = { s with steps := s'.steps, fatal := s'.fatal }

namespace Bridge

section

variable {fromStr : String → Option Value} {host : Host} {s s' : Bridge} {error : String} {α : Type}

lemma stopped_ne_none : s.stopped host ≠ none ↔ (host.flags s.steps).cancelled = true ∨
    (host.flags (s.steps + 1)).late = true ∨ (host.flags (s.steps + 2)).memoryFailed = true ∨
      s.fatal ≠ none := by
  unfold stopped
  split
  · next h => exact iff_of_true (Option.some_ne_none _) (.inl h)
  next hcancelled =>
  split
  · next h => exact iff_of_true (Option.some_ne_none _) (.inr (.inl h))
  next hlate =>
  split
  · next h => exact iff_of_true (Option.some_ne_none _) (.inr (.inr (.inl h)))
  next hmemory => simp only [hcancelled, hlate, hmemory, Bool.false_eq_true, false_or]

/-- What has stopped a run stays. -/
lemma stopped_of_le (hsteps : s.steps ≤ s'.steps) (hfatal : s.fatal ≠ none → s'.fatal ≠ none)
    (h : s.stopped host ≠ none) : s'.stopped host ≠ none := by
  rw [stopped_ne_none] at h ⊢
  rcases h with h | h | h | h
  · exact .inl (host.cancelled_sticky _ _ hsteps h)
  · exact .inr (.inl (host.late_sticky _ _ (Nat.add_le_add_right hsteps 1) h))
  · exact .inr (.inr (.inl (host.memory_sticky _ _ (Nat.add_le_add_right hsteps 2) h)))
  · exact .inr (.inr (.inr (hfatal h)))

lemma Idles.refl : s.Idles s := ⟨le_rfl, id, rfl⟩

lemma Idles.trans {s'' : Bridge} (h : s.Idles s') (h' : s'.Idles s'') : s.Idles s'' := by
  refine ⟨h.steps.trans h'.steps, fun hfatal => h'.fatal (h.fatal hfatal), ?_⟩
  rw [h'.same, h.same]

lemma andThen_check (h : s.stopped host = some error)
    (f : Unit → Bridge → Except String α × Bridge) :
    andThen (s.check host) f = (.error error, { s with steps := s.steps + 3 }) := by
  unfold check
  rw [h]
  rfl

/-- An operation looks whether it has to stop before it does anything. -/
lemma idles_step (h : s.stopped host ≠ none) (op : Op) : s.Idles (s.step fromStr host op) := by
  obtain ⟨error, herror⟩ := Option.ne_none_iff_exists'.mp h
  have hcheck : s.Idles { s with steps := s.steps + 3 } := ⟨Nat.le_add_right _ _, id, rfl⟩
  have hfail : s.Idles { s with steps := s.steps + 3, fatal := some error } :=
    ⟨Nat.le_add_right _ _, fun _ => Option.some_ne_none _, rfl⟩
  cases op with
  | start name args =>
    show s.Idles (s.start fromStr host name args).2
    unfold start
    rw [andThen_check herror]
    exact hcheck
  | log level text =>
    show s.Idles (s.log host level text).2
    unfold log
    rw [andThen_check herror]
    exact hcheck
  | emit encoded =>
    show s.Idles (s.emit fromStr host encoded).2
    unfold emit
    rw [andThen_check herror]
    exact hcheck
  | selectResult encoded isError =>
    show s.Idles (s.selectResult fromStr host encoded isError).2
    unfold selectResult
    rw [andThen_check herror]
    exact hcheck
  | readReference token materialize =>
    show s.Idles (s.readReference fromStr host token materialize).2
    unfold readReference
    rw [andThen_check herror]
    exact hfail
  | releaseReference token =>
    show s.Idles (s.releaseReference host token).2
    unfold releaseReference
    rw [andThen_check herror]
    exact hcheck
  | selectReference token =>
    show s.Idles (s.selectReference host token).2
    unfold selectReference
    rw [andThen_check herror]
    exact hcheck
  | emitReference token encoded =>
    show s.Idles (s.emitReference fromStr host token encoded).2
    unfold emitReference measure
    rw [andThen_check herror]
    exact hfail
  | poll =>
    show s.Idles (s.poll fromStr host).2
    unfold poll
    rw [andThen_check herror]
    exact hcheck

lemma idles_after (h : s.stopped host ≠ none) (ops : List Op) :
    s.Idles (ops.foldl (step fromStr host) s) := by
  induction ops generalizing s with
  | nil => exact .refl
  | cons op ops ih =>
    have hstep := @idles_step fromStr host s h op
    exact hstep.trans (ih (stopped_of_le hstep.steps hstep.fatal h))

/-! ### What is decided -/

lemma status_outcome (h : s.stopped host ≠ none) (run : Except String Value) :
    (s.outcome host run).1.status ≠ .completed ∧
      ((s.outcome host run).1.status = .terminated → s.terminate ≠ none) := by
  rw [stopped_ne_none] at h
  unfold outcome
  dsimp only
  split
  · next result hterminate => exact ⟨by rintro ⟨⟩, fun _ => Option.ne_none_iff_exists'.mpr ⟨_, hterminate⟩⟩
  split
  · exact ⟨by rintro ⟨⟩, by rintro ⟨⟩⟩
  next hcancelled =>
  split
  · exact ⟨by rintro ⟨⟩, by rintro ⟨⟩⟩
  next hlate =>
  split
  · exact ⟨by rintro ⟨⟩, by rintro ⟨⟩⟩
  next hmemory =>
  split
  · exact ⟨by rintro ⟨⟩, by rintro ⟨⟩⟩
  next hfatal =>
  simp only [hcancelled, hlate, hmemory, Bool.false_eq_true, false_or] at h
  exact absurd hfatal h

/-- The status can only become that of an error. -/
lemma status_selection (o : Outcome) : (s.selection o).1.outcome.status = o.status ∨
    (s.selection o).1.outcome.status = .error := by
  have hconflict : ∀ s : Bridge, (s.conflict o).status = o.status ∨ (s.conflict o).status = .error := by
    intro s
    unfold conflict
    split
    · exact .inr rfl
    · exact .inl rfl
  have hpromote : ∀ (s : Bridge) (o : Outcome) (selected : List Value) (hasSelection : Bool),
      (s.promoteResult o selected hasSelection).1.outcome.status = o.status ∨
        (s.promoteResult o selected hasSelection).1.outcome.status = .error := by
    intro s o selected hasSelection
    unfold promoteResult
    split
    · exact .inr rfl
    · exact .inl rfl
    dsimp only
    split
    · exact .inr rfl
    · exact .inl rfl
  have hrest : ∀ (s : Bridge) (selected : List Value) (hasSelection : Bool),
      (s.promoteResult (s.conflict o) selected hasSelection).1.outcome.status = o.status ∨
        (s.promoteResult (s.conflict o) selected hasSelection).1.outcome.status = .error := by
    intro s selected hasSelection
    rcases hpromote s (s.conflict o) selected hasSelection with h | h
    · rw [h]
      exact hconflict s
    · exact .inr h
  unfold selection
  split
  · dsimp only
    split
    · exact hrest _ _ _
    · exact hconflict _
  · dsimp only
    split
    · exact hrest _ _ _
    · exact hconflict _

lemma status_guarded (selection : Selection) :
    (guarded selection).outcome.status = selection.outcome.status ∨
      (guarded selection).outcome.status = .error := by
  unfold guarded
  split
  · exact .inr rfl
  · exact .inl rfl

/-- What is decided of an execution is its outcome, or an error in its place. -/
lemma status_decided (o : Outcome) : (guarded (s.selection o).1).outcome.status = o.status ∨
    (guarded (s.selection o).1).outcome.status = .error := by
  rcases status_guarded (s.selection o).1 with hguarded | hguarded
  · rw [hguarded]
    exact status_selection o
  · exact .inr hguarded

lemma status_summarize {selection : Selection} {terminate terminalError live : Bool} {h : Handover} :
    (summarize selection terminate terminalError live h).status = selection.outcome.status ∨
      (summarize selection terminate terminalError live h).status = .error := by
  unfold summarize
  dsimp only
  split
  · exact .inr rfl
  · exact .inl rfl

lemma isError_summarize {selection : Selection} {terminate terminalError live : Bool} {h : Handover}
    (herror : (summarize selection terminate terminalError live h).status ≠ .completed ∧
      (summarize selection terminate terminalError live h).status ≠ .terminated ∨
        terminalError = true) :
    (summarize selection terminate terminalError live h).isError = true := by
  rcases herror with ⟨hcompleted, hterminated⟩ | rfl
  · unfold summarize at hcompleted hterminated ⊢
    dsimp only at hcompleted hterminated ⊢
    rw [← beq_eq_false_iff_ne] at hcompleted hterminated
    rw [hcompleted, hterminated, Bool.or_false, Bool.not_false, Bool.or_true]
  · unfold summarize
    dsimp only
    rw [Bool.or_true, Bool.true_or, Bool.true_or]

end

end Bridge

section

variable {fromStr : String → Option Value} {host : Host} {s : Bridge}

lemma stopped_cleanup (h : s.stopped host ≠ none) : (s.cleanup host).stopped host ≠ none := by
  have hfold : ∀ (calls : List Call) (s : Bridge), s.steps ≤ (calls.foldl (cleanupCall host) s).steps ∧
      (calls.foldl (cleanupCall host) s).fatal = s.fatal := by
    intro calls
    induction calls with
    | nil => exact fun s => ⟨le_rfl, rfl⟩
    | cons call calls ih =>
      intro s
      obtain ⟨hsteps, hfatal⟩ := ih (s.cleanupCall host call)
      exact ⟨(Nat.le_add_right s.steps 3).trans hsteps, hfatal⟩
  obtain ⟨hsteps, hfatal⟩ := hfold s.pending { s with pending := [] }
  exact stopped_of_le hsteps (fun hne => by rw [cleanup, hfatal]; exact hne) h

lemma terminate_cleanup : (s.cleanup host).terminate = s.terminate := by
  have hfold : ∀ (calls : List Call) (s : Bridge),
      (calls.foldl (cleanupCall host) s).terminate = s.terminate := by
    intro calls
    induction calls with
    | nil => exact fun s => rfl
    | cons call calls ih => exact fun s => ih _
  exact hfold _ _

end

/-- A host that answers nothing, since it has cancelled the invocation. -/
def cancelledHost : Host where
  reply _ _ := .error "cancelled"
  flags _ := ⟨true, false, false⟩
  millis _ := 0
  cancelled_sticky _ _ _ h := h
  late_sticky _ _ _ h := h
  memory_sticky _ _ _ h := h

/-- Whether a summary hands something over, in each of the four ways. -/
def Summary.places (m : Summary) : List Bool :=
  [m.nativeResult.isSome, m.nativeResultReference.isSome, m.nativeContentParts.isSome,
    m.nativeContent.isSome]

lemma Summary.count_places_le {m : Summary}
    (hone : m.nativeResult = none ∨ m.nativeResultReference = none)
    (hcontent : m.nativeContentParts = none ∨ m.nativeContent = none)
    (halone : m.nativeContentParts = none ∧ m.nativeContent = none ∨
      m.nativeResult = none ∧ m.nativeResultReference = none) : m.places.count true ≤ 1 := by
  obtain ⟨_, _, _, _, _, reference, result, parts, content⟩ := m
  unfold Summary.places
  dsimp only at *
  rcases halone with ⟨rfl, rfl⟩ | ⟨rfl, rfl⟩
  · rcases hone with rfl | rfl
    · cases reference <;> simp
    · cases result <;> simp
  · rcases hcontent with rfl | rfl
    · cases content <;> simp
    · cases parts <;> simp

section

variable {fromStr : String → Option Value} {host : Host} {s : Bridge}

lemma handoffContentParts_of_false : s.handoffContentParts false = some (none, s) := rfl

/-- The result that was selected is the one that is handed over. -/
lemma reference_of_selected {token : Option Nat} :
    (s.cleanupReferences host token).1 = (token.bind s.references.get).map Reference.id := by
  rw [(@cleanupReferences_spec host s token).1]
  cases token with
  | none =>
    rw [List.filter_eq_nil_iff.mpr]
    · rfl
    · intro entry _
      exact nofun
  | some token =>
    cases hget : s.references.get token with
    | none =>
      rw [List.filter_eq_nil_iff.mpr]
      · show none = ((some token).bind s.references.get).map _
        rw [Option.bind_some, hget]
        rfl
      · intro entry hentry htoken
        obtain rfl : entry.1 = token := Option.some.inj (beq_iff_eq.mp htoken)
        rw [Table.get_of_mem_entries hentry] at hget
        cases hget
    | some reference =>
      rw [Option.bind_some, hget, Option.map_some, head_filter]
      exact ⟨_, Table.mem_entries_of_get hget, rfl, rfl⟩

/-- A selection of the program keeps its result from being promoted. -/
lemma selection_of_completed {o : Outcome} (h : o.status = .completed) :
    (s.selection o).2.selectedResult = s.selectedResult ∧
      (s.selectedResult ≠ none ∨ s.selectedReference ≠ none →
        (s.selection o).1.hasSelection = s.hasEmission) := by
  unfold selection
  rw [if_pos h]
  dsimp only
  split
  · next hnone =>
    refine ⟨(@extends_promoteResult { s with emitted := [] } _ _ _).2, fun hsome => ?_⟩
    simp only [Bool.and_eq_true, Option.isNone_iff_eq_none] at hnone
    rcases hsome with hsome | hsome
    · exact absurd hnone.1.1.1 hsome
    · exact absurd hnone.1.1.2 hsome
  · exact ⟨rfl, fun _ => rfl⟩

lemma hasSelection_guarded {selection : Selection} (h : selection.hasSelection = false) :
    (guarded selection).hasSelection = false := by
  unfold guarded
  split
  · rfl
  · exact h

lemma exactResult_of_ne {status : Status} (h : status ≠ .completed) : s.exactResult status = none :=
  if_neg h

lemma handoff_of_ne {status : Status} (hcompleted : status ≠ .completed)
    (hterminated : status ≠ .terminated) : s.handoff status = none := by
  unfold handoff
  split
  · exact absurd rfl hterminated
  · exact absurd rfl hcompleted
  · rfl

/-- A summary is completed only if each decision before was. -/
lemma completed_of_summarize {selection : Selection} {terminate terminalError live : Bool}
    {h : Handover}
    (hcompleted : (summarize selection terminate terminalError live h).status = .completed) :
    selection.outcome.status = .completed := by
  rcases @status_summarize selection _ _ _ h with hstatus | hstatus
  · exact hstatus.symm.trans hcompleted
  · rw [hstatus] at hcompleted
    cases hcompleted

lemma content_summarize {selection : Selection} {terminate terminalError live : Bool}
    {h : Handover} :
    (summarize selection terminate terminalError live h).nativeContentParts = none ∨
      (summarize selection terminate terminalError live h).nativeContent = none := by
  unfold summarize
  dsimp only
  cases (if live = true then h.parts else none) with
  | none => exact .inl rfl
  | some parts => exact .inr rfl

end

/-- What a completed summary hands over is what the program selected, and a summary hands over one
thing at most, unless it is that of a terminal call, which the output before it goes along with. Only
a completed summary gives a result as it is, and only that or a terminated one leaves a result with
the host. -/
theorem execute_selects (fromStr : String → Option Value) (host : Host) (ops : List Op)
    (run : Except String Value) :
    ∃ summary s, execute fromStr host ops run = some (summary, s) ∧
      (summary.status = .completed →
        summary.nativeResult = (program fromStr host ops).selectedResult ∧
        summary.nativeResultReference = ((program fromStr host ops).selectedReference.bind
          (program fromStr host ops).references.get).map Reference.id) ∧
      (summary.status ≠ .terminated → summary.places.count true ≤ 1) ∧
      (summary.status ≠ .completed → summary.nativeResult = none) ∧
      (summary.status ≠ .completed → summary.status ≠ .terminated →
        summary.nativeResultReference = none) := by
  obtain ⟨o, s₁, selection, s₂, houtcome, hselection, hexecute, hextends, hbalanced⟩ :=
    @execute_eq fromStr host ops run
  obtain ⟨keep, live, referenceError, refused, s₃, s₄, s, parts, hfinish, -, hno, hparts, -⟩ :=
    @finish_eq host s₂ hbalanced (o.status == .terminated) (guarded selection)
  refine ⟨_, s, hexecute.trans hfinish, ?_⟩
  rw [reference_of_selected]
  have hcompleted : (guarded selection).outcome.status = .completed → o.status = .completed := by
    intro hstatus
    have hdecided := @status_decided s₁ o
    rw [hselection] at hdecided
    rcases hdecided with hdecided | hdecided
    · exact hdecided.symm.trans hstatus
    · cases hstatus.symm.trans hdecided
  have hs₁ : s₁.accounts = (program fromStr host ops).accounts.closed := by
    have haccounts := @accounts_outcome host ((program fromStr host ops).cleanup host) run
    rw [houtcome] at haccounts
    exact haccounts.trans accounts_cleanup
  have hresult : (guarded selection).outcome.status = .completed →
      s₂.selectedResult = (program fromStr host ops).selectedResult := by
    intro hstatus
    have hkept := (@selection_of_completed s₁ o (hcompleted hstatus)).1
    rw [hselection] at hkept
    exact hkept.trans (congrArg Accounts.result hs₁)
  have hreference : s₂.selectedReference = (program fromStr host ops).selectedReference :=
    congrArg Accounts.selected hextends.same
  have hreferences : s₂.references = (program fromStr host ops).references :=
    congrArg Accounts.references hextends.same
  have hsilent : (guarded selection).outcome.status = .completed →
      s₂.selectedResult ≠ none ∨ s₂.selectedReference ≠ none →
        (guarded selection).hasSelection = false := by
    intro hstatus hsome
    have hclosed := (@balanced_program fromStr host ops).closed
    rw [← hs₁] at hclosed
    have hresult₁ : s₁.selectedResult = (program fromStr host ops).selectedResult :=
      congrArg Accounts.result hs₁
    have hreference₁ : s₁.selectedReference = (program fromStr host ops).selectedReference :=
      congrArg Accounts.selected hs₁
    rw [hresult hstatus, hreference, ← hresult₁, ← hreference₁] at hsome
    have hkept := (@selection_of_completed s₁ o (hcompleted hstatus)).2 hsome
    rw [hselection] at hkept
    refine hasSelection_guarded (hkept.trans ?_)
    by_contra hemission
    obtain ⟨hnone, hnone'⟩ := hclosed.alone (Bool.not_eq_false _ ▸ hemission)
    rcases hsome with hsome | hsome
    · exact hsome hnone
    · exact hsome hnone'
  by_cases hmay : s₂.mayKeep (guarded selection).outcome.status (o.status == .terminated) = true
  · -- the results that were emitted may be kept, as there is nothing else
    obtain ⟨hhandoff, hexact, hselected, -⟩ := nothing_of_mayKeep hmay
    rw [hhandoff, hexact]
    refine ⟨fun hstatus => ?_, fun _ => ?_, fun _ => rfl, fun _ _ => rfl⟩
    · have hstatus' := completed_of_summarize hstatus
      unfold exactResult at hexact
      rw [if_pos hstatus', hresult hstatus'] at hexact
      rw [hexact, ← hreference, hselected]
      exact ⟨rfl, rfl⟩
    · exact Summary.count_places_le (.inl rfl) content_summarize (.inr ⟨rfl, rfl⟩)
  · -- there are no parts, and the status is the one that was decided
    obtain ⟨rfl, rfl, hs₃⟩ := hno (Bool.not_eq_true _ ▸ hmay)
    rw [handoffContentParts_of_false, Option.some.injEq, Prod.mk.injEq] at hparts
    obtain ⟨rfl, rfl⟩ := hparts
    rw [hs₃]
    have hstatus : (summarize (guarded selection) (o.status == .terminated) s₂.terminalError live
        ⟨s₂.exactResult (guarded selection).outcome.status,
          ((s₂.handoff (guarded selection).outcome.status).bind s₂.references.get).map Reference.id,
          none, referenceError, false⟩).status = (guarded selection).outcome.status := rfl
    rw [hstatus]
    refine ⟨fun hstatus => ?_, fun hterminated => ?_, exactResult_of_ne, fun hcompleted hterminated => ?_⟩
    · show s₂.exactResult _ = _ ∧ ((s₂.handoff _).bind _).map _ = _
      rw [hstatus, ← hresult hstatus, ← hreference, ← hreferences]
      exact ⟨rfl, rfl⟩
    · refine Summary.count_places_le ?_ content_summarize ?_
      · show s₂.exactResult _ = none ∨ ((s₂.handoff _).bind _).map _ = none
        by_cases hcompleted : (guarded selection).outcome.status = .completed
        · rw [hcompleted]
          rcases hbalanced.one with hnone | hnone
          · exact .inl hnone
          · refine .inr ?_
            rw [show s₂.handoff .completed = none from hnone]
            rfl
        · exact .inl (exactResult_of_ne hcompleted)
      · by_cases hsome : (guarded selection).outcome.status = .completed ∧
            (s₂.selectedResult ≠ none ∨ s₂.selectedReference ≠ none)
        · refine .inl ⟨ite_self none, ?_⟩
          unfold summarize
          dsimp only
          rw [hsilent hsome.1 hsome.2, Bool.and_false]
          rfl
        · refine .inr ?_
          show s₂.exactResult _ = none ∧ ((s₂.handoff _).bind _).map _ = none
          by_cases hcompleted : (guarded selection).outcome.status = .completed
          · simp only [hcompleted, true_and, not_or, not_not] at hsome
            rw [hcompleted]
            refine ⟨hsome.1, ?_⟩
            rw [show s₂.handoff .completed = none from hsome.2]
            rfl
          · refine ⟨exactResult_of_ne hcompleted, ?_⟩
            rw [handoff_of_ne hcompleted hterminated]
            rfl
    · show ((s₂.handoff _).bind _).map _ = none
      rw [handoff_of_ne hcompleted hterminated]
      rfl

end Codemode
