import RpiPackage.Acp.Framing

/-!
# The requests of a connection

A request of the agent waits in a map for the response of the client. It is admitted while there is
room, the first response for its id ends it, and so do its cancellation, the drop of its future and
the end of the connection.
-/

namespace Acp

open Json

namespace Phase

/-- Only requests come here. -/
def ofRequest : Phase → Bool
  | .numbered | .awaiting | .removing _ => true
  | _ => false

/-- A call is in its write. -/
def inWrite : Phase → Bool
  | .waiting | .locked | .framing _ | .flushing | .closing _ | .unlocking _ | .leaving _ => true
  | _ => false

def result : Phase → Option Response
  | .removing (.answered result) | .finished (.answered result) => some result
  | _ => none

end Phase

namespace Call

/-- A result that is the first response of the client, or an error of the connection. -/
def Rightly (call : Call) (result : Response) : Prop :=
  (∃ answer, call.answers.head? = some answer ∧
    result = clip call.kind.maxResponseBytes answer) ∨
  result = .error .cancelled ∨ result = .error .disconnected ∨ result = .error .capacity

/-- A request without a result is in the map, and the client has not answered it. -/
def Listens (pending : Table UInt64 ClientPending) (c : Nat) (call : Call) : Prop :=
  match call.channel with
  | .empty => pending.get call.id = some ⟨c, call.kind.maxResponseBytes⟩ ∧ call.answers = []
  | .sent result => call.Rightly result
  | .dropped => True

structure Standing (pending : Table UInt64 ClientPending) (c : Nat) (call : Call) : Prop where
  request : call.phase.ofRequest = true → call.kind.isRequest = true
  listens : call.asked = true → call.Listens pending c
  rightly : ∀ result, call.phase.result = some result → call.Rightly result

variable {call call' : Call} {pending pending' : Table UInt64 ClientPending} {c : Nat}
  {id : UInt64} {result : Response}

lemma Rightly.of_head? (h : call.Rightly result) (hkind : call'.kind = call.kind)
    (hanswers : ∀ answer, call.answers.head? = some answer → call'.answers.head? = some answer) :
    call'.Rightly result := by
  unfold Rightly at h ⊢
  rw [hkind]
  rcases h with ⟨answer, hhead, hclip⟩ | herror
  · exact .inl ⟨answer, hanswers answer hhead, hclip⟩
  · exact .inr herror

/-- A call changes its channel, its answers, or the map around it. -/
lemma Standing.of_same (h : call.Standing pending c) (hsame : call.Same call')
    (hanswers : ∀ answer, call.answers.head? = some answer → call'.answers.head? = some answer)
    (hlistens : call.asked = true → call'.Listens pending' c) : call'.Standing pending' c where
  request hphase := by
    rw [hsame.phase] at hphase
    rw [hsame.kind]
    exact h.request hphase
  listens hasked := hlistens (hsame.asked ▸ hasked)
  rightly result hresult := by
    rw [hsame.phase] at hresult
    exact (h.rightly result hresult).of_head? hsame.kind hanswers

/-- What a call listens to is all that it needs of the map. -/
lemma Listens.of_get (h : call.Listens pending c)
    (hget : ∀ p, pending.get call.id = some p → p.tx = c → pending'.get call.id = some p) :
    call.Listens pending' c := by
  unfold Listens at h ⊢
  split at h
  · exact ⟨hget _ h.1 rfl, h.2⟩
  · exact h
  · trivial

lemma Standing.of_get (h : call.Standing pending c)
    (hget : ∀ p, pending.get call.id = some p → p.tx = c → pending'.get call.id = some p) :
    call.Standing pending' c :=
  h.of_same (.refl call) (fun _ hhead => hhead) fun hasked => (h.listens hasked).of_get hget

/-- Without its sender, a call listens to nothing in the map. -/
lemma Listens.hangUp (h : call.Listens pending c) : call.hangUp.Listens pending' c := by
  unfold Listens at h
  unfold Call.hangUp Listens
  cases hchannel : call.channel with
  | empty => simp
  | sent result =>
    rw [hchannel] at h
    simpa only [hchannel] using h
  | dropped => simp [hchannel]

lemma answers_hangUp (call : Call) : call.hangUp.answers = call.answers := by
  unfold Call.hangUp
  split
  · rfl
  · rfl

lemma Standing.hangUp (h : call.Standing pending c) : call.hangUp.Standing pending' c :=
  h.of_same (same_hangUp call) (fun _ hhead => by rw [answers_hangUp, hhead])
    fun hasked => (h.listens hasked).hangUp

lemma head?_hear {answer : Response} (h : call.answers.head? = some answer) :
    (call.hear id result).answers.head? = some answer := by
  unfold hear
  split
  · simp [h]
  · exact h

lemma channel_hear (call : Call) (id : UInt64) (result : Response) :
    (call.hear id result).channel = call.channel := by
  unfold hear
  split
  · rfl
  · rfl

/-- Another response means nothing to a call that has its result, or has another id. -/
lemma Standing.hear (h : call.Standing pending c)
    (hother : call.asked = true → call.channel = .empty → call.id ≠ id)
    (hget : ∀ p, pending.get call.id = some p → p.tx = c → pending'.get call.id = some p) :
    (call.hear id result).Standing pending' c := by
  refine h.of_same (same_hear call id result) (fun _ => head?_hear) fun hasked => ?_
  have hlistens := (h.listens hasked).of_get hget
  unfold Listens at hlistens ⊢
  rw [channel_hear]
  split at hlistens
  · rename_i hempty
    have hid : (call.id == id) = false := beq_false_of_ne (hother hasked hempty)
    simpa [Call.hear, hid] using hlistens
  · exact hlistens.of_head? (same_hear call id result).kind fun _ => head?_hear
  · trivial

end Call

namespace Writer

/-- The map and the calls agree. -/
structure Routed (w : Writer) : Prop where
  capacity : w.pending.size ≤ 64
  awaited : ∀ id p, w.pending.get id = some p → (w.calls p.tx).id = id ∧
    (w.calls p.tx).asked = true ∧ (w.calls p.tx).channel = .empty ∧
    p.maxResponseBytes = (w.calls p.tx).kind.maxResponseBytes
  standing : ∀ c, (w.calls c).Standing w.pending c
  closed : w.closed = true → w.pending = .empty

variable {w w' : Writer} {c c' : Nat} {id : UInt64} {p : ClientPending} {result : Response}
  {phase : Phase}

/-! ### Changes of the map -/

/-- The entries of the other calls stay. -/
lemma get_erase_of_tx_ne (hp : w.pending.get id = some p) (hc : c ≠ p.tx)
    {p' : ClientPending} (hp' : w.pending.get (w.calls c).id = some p') (htx : p'.tx = c) :
    (w.pending.erase id).get (w.calls c).id = some p' := by
  have hne : (w.calls c).id ≠ id := by
    intro heq
    rw [heq] at hp'
    obtain rfl := Option.some.inj (hp'.symm.trans hp)
    exact hc htx.symm
  exact (Table.get_erase_of_ne hne w.pending).trans hp'

/-- An entry is taken out of the map. -/
lemma Routed.erase (h : w.Routed) (hp : w.pending.get id = some p) {calls : Nat → Call}
    (hsame : ∀ c, (w.calls c).Same (calls c))
    (hchannel : ∀ c, c ≠ p.tx → (calls c).channel = (w.calls c).channel)
    (hstanding : ∀ c, (calls c).Standing (w.pending.erase id) c) :
    Routed { w with pending := w.pending.erase id, calls } := by
  have hid := (h.awaited id p hp).1
  constructor
  case capacity => exact Nat.le_trans (w.pending.size_erase_le id) h.capacity
  case awaited =>
    intro id' p' hp'
    have hne : id' ≠ id := by
      rintro rfl
      exact absurd ((w.pending.get_erase_self _).symm.trans hp') (by simp)
    have hold : w.pending.get id' = some p' := (Table.get_erase_of_ne hne w.pending).symm.trans hp'
    obtain ⟨hid', hasked, hempty, hlimit⟩ := h.awaited id' p' hold
    have htx : p'.tx ≠ p.tx := by
      intro heq
      rw [heq, hid] at hid'
      exact hne hid'.symm
    refine ⟨(hsame p'.tx).id.trans hid', (hsame p'.tx).asked.trans hasked,
      (hchannel p'.tx htx).trans hempty, ?_⟩
    rw [hlimit, (hsame p'.tx).kind]
  case standing => exact hstanding
  case closed =>
    intro hclosed
    have hempty := h.closed hclosed
    rw [hempty] at hp
    cases hp

/-- An entry is taken out of the map, and only the call that it belonged to hears of it. -/
lemma Routed.take (h : w.Routed) (hp : w.pending.get id = some p) {call : Call}
    (hsame : (w.calls p.tx).Same call) (hstanding : call.Standing (w.pending.erase id) p.tx) :
    Routed ({ w with pending := w.pending.erase id }.setCall p.tx call) := by
  refine h.erase hp ?_ ?_ ?_
  · exact (quiet_setCall hsame w.pending).calls
  · intro c hc
    rw [Function.update_of_ne hc]
  · intro c
    by_cases hc : c = p.tx
    · subst hc
      rw [Function.update_self]
      exact hstanding
    · rw [Function.update_of_ne hc]
      exact (h.standing c).of_get fun p' hp' htx => get_erase_of_tx_ne hp hc hp' htx

lemma Routed.forget (h : w.Routed) (id : UInt64) : Routed (w.forget id) := by
  unfold Writer.forget
  split
  · rename_i p hp
    exact h.take hp (Call.same_hangUp _) (h.standing p.tx).hangUp
  · exact h

lemma get_forget_self (w : Writer) (id : UInt64) : (w.forget id).pending.get id = none := by
  unfold forget
  split
  · exact w.pending.get_erase_self id
  · assumption

lemma size_forget_le (w : Writer) (id : UInt64) : (w.forget id).pending.size ≤ w.pending.size := by
  unfold forget
  split
  · exact w.pending.size_erase_le id
  · exact Nat.le_refl _

/-- Closing ends every request that waits. -/
lemma Routed.close (h : w.Routed) : Routed w.close := by
  constructor
  case capacity => exact Nat.zero_le _
  case awaited =>
    intro id p hp
    cases hp
  case standing =>
    intro c
    show Call.Standing .empty c
      (if w.pending.entries.any fun p => p.2.tx == c then (w.calls c).hangUp else w.calls c)
    split
    · exact (h.standing c).hangUp
    · rename_i hnone
      refine (h.standing c).of_get fun p hp htx => ?_
      refine absurd ?_ hnone
      rw [List.any_eq_true]
      exact ⟨_, Table.mem_entries_of_get hp, by simpa using htx⟩
  case closed => exact fun _ => rfl

lemma Routed.cancelRequest (h : w.Routed) (id : UInt64) : Routed (w.cancelRequest id) := by
  unfold Writer.cancelRequest
  split
  · rename_i p hp
    have hsame : (w.calls p.tx).Same { w.calls p.tx with channel := .sent (.error .cancelled) } :=
      ⟨rfl, rfl, rfl⟩
    exact h.take hp hsame
      ((h.standing p.tx).of_same hsame (fun _ hhead => hhead) fun _ => .inr (.inl rfl))
  · exact h

/-- The first response for an id ends the request that waits under it. -/
lemma Routed.resolveChecked (h : w.Routed) (id : UInt64) (result : Response) :
    Routed (w.resolveChecked id result) := by
  unfold Writer.resolveChecked
  dsimp only
  split
  · rename_i p hp
    obtain ⟨hid, hasked, hempty, hlimit⟩ := h.awaited id p hp
    refine h.erase hp ?_ ?_ ?_
    · intro c
      by_cases hc : c = p.tx
      · subst hc
        rw [Function.update_self]
        exact (Call.same_hear _ id result).trans ⟨rfl, rfl, rfl⟩
      · rw [Function.update_of_ne hc]
        exact Call.same_hear _ id result
    · intro c hc
      rw [Function.update_of_ne hc, Call.channel_hear]
    · intro c
      by_cases hc : c = p.tx
      · subst hc
        rw [Function.update_self]
        have hsame := (Call.same_hear (w.calls p.tx) id result).trans
          (show Call.Same _ { (w.calls p.tx).hear id result with
            channel := .sent (clip p.maxResponseBytes result) } from ⟨rfl, rfl, rfl⟩)
        refine (h.standing p.tx).of_same hsame (fun _ => Call.head?_hear) fun _ => .inl ⟨result, ?_, ?_⟩
        · have hlistens := (h.standing p.tx).listens hasked
          unfold Call.Listens at hlistens
          rw [hempty] at hlistens
          simp [Call.hear, hasked, hid, hlistens.2]
        · rw [hlimit, (Call.same_hear _ id result).kind]
      · rw [Function.update_of_ne hc]
        refine (h.standing c).hear ?_ fun p' hp' htx => get_erase_of_tx_ne hp hc hp' htx
        intro hasked hempty heq
        have hlistens := (h.standing c).listens hasked
        unfold Call.Listens at hlistens
        rw [hempty, heq, hp] at hlistens
        exact hc (congrArg ClientPending.tx (Option.some.inj hlistens.1)).symm
  · rename_i hnone
    constructor
    case capacity => exact h.capacity
    case awaited =>
      intro id' p hp
      obtain ⟨hid, hasked, hempty, hlimit⟩ := h.awaited id' p hp
      have hsame := Call.same_hear (w.calls p.tx) id result
      exact ⟨hsame.id.trans hid, hsame.asked.trans hasked, (Call.channel_hear _ id result).trans hempty,
        hlimit.trans (by rw [hsame.kind])⟩
    case standing =>
      intro c
      refine (h.standing c).hear ?_ fun _ hp _ => hp
      intro hasked hempty heq
      have hlistens := (h.standing c).listens hasked
      unfold Call.Listens at hlistens
      rw [hempty, heq, hnone] at hlistens
      cases hlistens.1
    case closed => exact h.closed

/-! ### Phases -/

lemma Routed.congr (h : w.Routed) (out : List UInt8) (holder : Option Nat) :
    Routed { w with out, holder } :=
  ⟨h.capacity, h.awaited, h.standing, h.closed⟩

/-- A call without an entry is replaced. -/
lemma Routed.replace (h : w.Routed) (hfree : (w.calls c).asked = false) {call : Call}
    (hstanding : call.Standing w.pending c) (nextId : UInt64) :
    Routed ({ w with nextId }.setCall c call) := by
  constructor
  case capacity => exact h.capacity
  case awaited =>
    intro id p hp
    have hold := h.awaited id p hp
    have hc : p.tx ≠ c := by
      rintro rfl
      rw [hold.2.1] at hfree
      cases hfree
    rw [calls_setCall_of_ne hc]
    exact hold
  case standing =>
    intro c'
    by_cases hc : c' = c
    · subst hc
      rw [calls_setCall_self]
      exact hstanding
    · rw [calls_setCall_of_ne hc]
      exact h.standing c'
  case closed => exact h.closed

/-- A call goes on, and can still be asked, or still not. -/
lemma Routed.goto (h : w.Routed)
    (hasked : ({ w.calls c with phase } : Call).asked = (w.calls c).asked)
    (hrequest : phase.ofRequest = true → (w.calls c).kind.isRequest = true)
    (hrightly : ∀ result, phase.result = some result → (w.calls c).Rightly result) :
    Routed (w.goto c phase) := by
  constructor
  case capacity => exact h.capacity
  case awaited =>
    intro id p hp
    have hold := h.awaited id p hp
    by_cases hc : p.tx = c
    · rw [hc] at hold
      rw [hc, calls_goto_self]
      exact ⟨hold.1, hasked.trans hold.2.1, hold.2.2⟩
    · rw [calls_goto_of_ne hc]
      exact hold
  case standing =>
    intro c'
    by_cases hc : c' = c
    · subst hc
      rw [calls_goto_self]
      exact ⟨hrequest, fun hasked' => (h.standing c').listens (hasked.symm.trans hasked'), hrightly⟩
    · rw [calls_goto_of_ne hc]
      exact h.standing c'
  case closed => exact h.closed

/-- A call goes on within its write. -/
lemma Routed.within (h : w.Routed) (hbefore : (w.calls c).phase.inWrite = true)
    (hafter : phase.inWrite = true) : Routed (w.goto c phase) := by
  refine h.goto ?_ ?_ ?_
  · unfold Call.asked
    generalize (w.calls c).phase = before at hbefore
    cases before <;> cases hbefore <;> cases phase <;> cases hafter <;> rfl
  · intro hrequest
    cases phase <;> cases hafter <;> cases hrequest
  · intro result hresult
    cases phase <;> cases hafter <;> cases hresult

lemma Routed.admitCall (h : w.Routed) (hphase : (w.calls c).phase = .numbered) :
    Routed (w.admitCall c) := by
  have hkind : (w.calls c).kind.isRequest = true := (h.standing c).request (by rw [hphase]; rfl)
  have hfree : (w.calls c).asked = false := by simp [Call.asked, hphase]
  unfold Writer.admitCall
  split
  · refine h.goto ?_ ?_ ?_
    · rw [hfree]
      simp [Call.asked]
    · intro hrequest
      cases hrequest
    · intro result hresult
      obtain rfl := Option.some.inj hresult
      exact .inr (.inr (.inl rfl))
  split
  · refine h.goto ?_ ?_ ?_
    · rw [hfree]
      simp [Call.asked]
    · intro hrequest
      cases hrequest
    · intro result hresult
      obtain rfl := Option.some.inj hresult
      exact .inr (.inr (.inr rfl))
  · rename_i hopen hroom
    dsimp only
    have hforget := h.forget (w.calls c).id
    have hnone := get_forget_self w (w.calls c).id
    have hsize := size_forget_le w (w.calls c).id
    have hquiet := quiet_forget w (w.calls c).id
    have hclosed : (w.forget (w.calls c).id).closed = w.closed := by
      unfold Writer.forget
      split
      · rfl
      · rfl
    generalize w.forget (w.calls c).id = w' at hforget hnone hsize hquiet hclosed
    have hfree' : (w'.calls c).asked = false := (hquiet.calls c).asked.trans hfree
    constructor
    case capacity =>
      show (w'.pending.put _ _).size ≤ 64
      rw [Table.size_put (Table.get_eq_none.mp hnone)]
      omega
    case awaited =>
      intro id p hp
      by_cases hid : id = (w.calls c).id
      · subst hid
        obtain rfl := Option.some.inj ((Table.get_put_self w'.pending _ _).symm.trans hp)
        rw [calls_setCall_self]
        exact ⟨rfl, by simp [Call.asked, hkind], rfl, rfl⟩
      · have hp' : w'.pending.get id = some p :=
          (Table.get_put_of_ne hid w'.pending _).symm.trans hp
        have hold := hforget.awaited id p hp'
        have hc : p.tx ≠ c := by
          intro hc
          rw [hc, hfree'] at hold
          cases hold.2.1
        rw [calls_setCall_of_ne hc]
        exact hold
    case standing =>
      intro c'
      by_cases hc : c' = c
      · subst hc
        rw [calls_setCall_self]
        refine ⟨fun _ => hkind, fun _ => ⟨Table.get_put_self _ _ _, rfl⟩, ?_⟩
        intro result hresult
        cases hresult
      · rw [calls_setCall_of_ne hc]
        refine (hforget.standing c').of_get fun p hp _ => ?_
        have hid : (w'.calls c').id ≠ (w.calls c).id := by
          intro hid
          rw [hid, hnone] at hp
          cases hp
        exact (Table.get_put_of_ne hid w'.pending _).trans hp
    case closed =>
      intro hclosed'
      exact absurd (hclosed.symm.trans hclosed') hopen

lemma Routed.leave (h : w.Routed) {exit : Exit} (hphase : (w.calls c).phase = .leaving exit) :
    Routed (w.leave c exit) := by
  have hbefore : Routed (if exit.closes then w.close else w) ∧
      ((if exit.closes then w.close else w).calls c).phase = .leaving exit := by
    split
    · exact ⟨h.close, ((quiet_close w).calls c).phase.trans hphase⟩
    · exact ⟨h, hphase⟩
  unfold Writer.leave
  dsimp only
  generalize (if exit.closes then w.close else w) = w' at hbefore
  obtain ⟨h', hphase'⟩ := hbefore
  have hclose : (w'.close.calls c).phase = .leaving exit :=
    ((quiet_close w').calls c).phase.trans hphase'
  split
  · rename_i hkind
    have hkind' : (w'.close.calls c).kind.isRequest = true := by
      rw [((quiet_close w').calls c).kind, hkind]
    split
    · exact h'.goto (by simp [Call.asked, hphase']) (fun _ => hkind) (by simp [Phase.result])
    · refine h'.close.goto (by simp [Call.asked, hclose]) (fun _ => hkind') ?_
      intro result hresult
      obtain rfl := Option.some.inj hresult
      exact .inr (.inr (.inl rfl))
    · exact h'.goto (by simp [Call.asked, hphase']) (fun _ => hkind) (by simp [Phase.result])
  · rename_i hkind
    split
    · exact h'.goto (by simp [Call.asked, hkind]) (by simp [Phase.ofRequest]) (by simp [Phase.result])
    · exact h'.goto (by simp [Call.asked, hkind]) (by simp [Phase.ofRequest]) (by simp [Phase.result])

/-- The guard of a request takes its entry out, whether it still is there or not. -/
lemma Routed.remove (h : w.Routed) {outcome : Outcome}
    (hphase : (w.calls c).phase = .removing outcome) :
    Routed ((w.forget (w.calls c).id).goto c (.finished outcome)) := by
  have hforget := h.forget (w.calls c).id
  have hnone := get_forget_self w (w.calls c).id
  have hsame := (quiet_forget w (w.calls c).id).calls c
  generalize w.forget (w.calls c).id = w' at hforget hnone hsame
  constructor
  case capacity => exact hforget.capacity
  case awaited =>
    intro id p hp
    have hold := hforget.awaited id p hp
    have hc : p.tx ≠ c := by
      intro hc
      rw [hc, hsame.id] at hold
      rw [← hold.1] at hp
      exact absurd (hnone.symm.trans hp) (by simp)
    rw [calls_goto_of_ne hc]
    exact hold
  case standing =>
    intro c'
    by_cases hc : c' = c
    · subst hc
      rw [calls_goto_self]
      refine ⟨?_, ?_, ?_⟩
      · intro hrequest
        cases hrequest
      · intro hasked
        simp [Call.asked] at hasked
      · intro result hresult
        refine (hforget.standing c').rightly result ?_
        rw [hsame.phase, hphase]
        cases outcome with
        | answered => exact hresult
        | dropped | wrote => cases hresult
    · rw [calls_goto_of_ne hc]
      exact hforget.standing c'
  case closed => exact hforget.closed

lemma Routed.advance (h : w.Routed) (c : Nat) : Routed (w.advance c) := by
  unfold Writer.advance
  split
  · rename_i hcalled
    have hfree : (w.calls c).asked = false := by simp [Call.asked, hcalled]
    split
    · rename_i hkind
      have hstanding : Call.Standing w.pending c
          { w.calls c with id := w.nextId, phase := .numbered } := by
        refine ⟨fun _ => hkind, ?_, ?_⟩
        · intro hasked
          simp [Call.asked] at hasked
        · intro result hresult
          cases hresult
      exact h.replace hfree hstanding _
    · rename_i hkind
      exact h.goto (by simp [Call.asked, hkind]) (by simp [Phase.ofRequest]) (by simp [Phase.result])
  · rename_i hnumbered
    exact h.admitCall hnumbered
  · rename_i hwaiting
    split
    · exact (h.within (by rw [hwaiting]; rfl) rfl).congr _ _
    · exact h
  · rename_i hlocked
    split
    · exact h.within (by rw [hlocked]; rfl) rfl
    · exact h.within (by rw [hlocked]; rfl) rfl
  · rename_i exit hclosing
    have hphase := ((quiet_close w).calls c).phase.trans hclosing
    exact h.close.within (by rw [hphase]; rfl) rfl
  · rename_i exit hunlocking
    exact (h.within (by rw [hunlocking]; rfl) rfl).congr _ _
  · rename_i exit hleaving
    exact h.leave hleaving
  · rename_i hawaiting
    have hkind := (h.standing c).request (by rw [hawaiting]; rfl)
    have hlistens := (h.standing c).listens (by simp [Call.asked, hawaiting, hkind])
    unfold Call.Listens at hlistens
    split
    · exact h
    · rename_i result hsent
      rw [hsent] at hlistens
      refine h.goto (by simp [Call.asked, hawaiting]) (fun _ => hkind) ?_
      intro result' hresult
      obtain rfl := Option.some.inj hresult
      exact hlistens
    · refine h.goto (by simp [Call.asked, hawaiting]) (fun _ => hkind) ?_
      intro result' hresult
      obtain rfl := Option.some.inj hresult
      exact .inr (.inr (.inl rfl))
  · rename_i outcome hremoving
    exact h.remove hremoving
  all_goals exact h

lemma Routed.put (h : w.Routed) (c n : Nat) : Routed (w.put c n) := by
  unfold Writer.put
  split
  · rename_i sent hframing
    dsimp only
    split
    · exact h.within (by rw [hframing]; rfl) rfl
    split
    · exact (h.within (by rw [hframing]; rfl) rfl).congr _ _
    · exact (h.within (by rw [hframing]; rfl) rfl).congr _ _
  · exact h

lemma Routed.abandon (h : w.Routed) (c : Nat) (exit : Exit) : Routed (w.abandon c exit) := by
  unfold Writer.abandon
  split
  · rename_i hwaiting
    exact h.within (by rw [hwaiting]; rfl) rfl
  · rename_i sent hframing
    exact h.within (by rw [hframing]; rfl) rfl
  · rename_i hflushing
    exact h.within (by rw [hflushing]; rfl) rfl
  · exact h

lemma Routed.run (h : w.Routed) (c : Nat) (input : Input) : Routed (w.run c input) := by
  unfold Writer.run
  split
  · exact h.advance c
  · exact h.put c _
  · split
    · rename_i hflushing
      exact h.within (by rw [hflushing]; rfl) rfl
    · exact h
  · split
    · rename_i sent hframing
      exact h.within (by rw [hframing]; rfl) rfl
    · rename_i hflushing
      exact h.within (by rw [hflushing]; rfl) rfl
    · exact h
  · split
    · exact h.abandon c _
    · exact h
  · unfold Writer.timeout
    split
    · exact h.abandon c _
    · exact h.abandon c _
    · exact h.abandon c _
    · exact h.close.abandon c _
    · exact h.close.abandon c _
    · exact h.close.abandon c _
    · exact h
  · unfold Writer.drop
    split
    · rename_i hcalled
      exact h.goto (by simp [Call.asked, hcalled]) (by simp [Phase.ofRequest])
        (by simp [Phase.result])
    · rename_i hawaiting
      have hkind := (h.standing c).request (by rw [hawaiting]; rfl)
      exact h.goto (by simp [Call.asked, hawaiting]) (fun _ => hkind) (by simp [Phase.result])
    · exact h.abandon c _

lemma Routed.step (h : w.Routed) (event : Event) : Routed (w.step event) := by
  unfold Writer.step
  split
  · split
    · rename_i habsent
      refine h.replace (by simp [Call.asked, habsent]) ⟨?_, ?_, ?_⟩ w.nextId
      · intro hrequest
        cases hrequest
      · intro hasked
        simp [Call.asked] at hasked
      · intro result hresult
        cases hresult
    · exact h
  · exact h.run _ _
  · exact h.resolveChecked _ _
  · exact h.cancelRequest _
  · exact h.close

lemma routed_new : Routed new where
  capacity := Nat.zero_le _
  awaited id p hp := by cases hp
  standing c := by
    refine ⟨?_, ?_, ?_⟩
    · intro hrequest
      cases hrequest
    · intro hasked
      cases hasked
    · intro result hresult
      cases hresult
  closed hclosed := by cases hclosed

lemma routed_after (events : List Event) : Routed (new.after events) :=
  Run.invariant (fun _ event h => h.step event) routed_new events

/-! ### The end of a call -/

lemma closed_run (hclosed : w.closed = true) (c : Nat) (input : Input) :
    (w.run c input).closed = true :=
  Turns.Moves.isSealed (moves_run w c input) hclosed

lemma closed_after (hclosed : w.closed = true) (events : List Event) :
    (w.after events).closed = true :=
  Run.invariant (P := fun w : Writer => w.closed = true)
    (fun w event h => Turns.Moves.isSealed (moves_step w event) h) hclosed events

def Input.own : Input → Bool
  | .go | .notice => true
  | _ => false

/-- A call can come to its end by itself. -/
def Ends (w : Writer) (c : Nat) : Prop :=
  ∃ inputs : List Input, (∀ input ∈ inputs, input.own = true) ∧
    ∃ outcome, ((w.after (inputs.map (.run c))).calls c).phase = .finished outcome

lemma Ends.of_run (input : Input) (hown : input.own = true) (h : Ends (w.run c input) c) :
    Ends w c := by
  obtain ⟨inputs, hinputs, outcome, hfinished⟩ := h
  refine ⟨input :: inputs, ?_, outcome, hfinished⟩
  intro input' hmem
  rcases List.mem_cons.mp hmem with rfl | hmem
  · exact hown
  · exact hinputs input' hmem

lemma Ends.finished {outcome : Outcome} (h : (w.calls c).phase = .finished outcome) : Ends w c :=
  ⟨[], fun _ hmem => absurd hmem List.not_mem_nil, outcome, h⟩

lemma Ends.removing {outcome : Outcome} (h : (w.calls c).phase = .removing outcome) : Ends w c := by
  refine .of_run .go rfl (.finished (show _ = Phase.finished outcome from ?_))
  simp [Writer.run, Writer.advance, h]

/-- A request whose sender is gone has its result. -/
lemma Ends.awaiting (h : (w.calls c).phase = .awaiting) (hchannel : (w.calls c).channel ≠ .empty) :
    Ends w c := by
  have hgo : ∃ outcome, ((w.run c .go).calls c).phase = .removing outcome := by
    unfold Writer.run Writer.advance
    rw [h]
    dsimp only
    split
    · exact absurd ‹_› hchannel
    · rename_i result _
      exact ⟨.answered result, by simp⟩
    · exact ⟨.answered (.error .disconnected), by simp⟩
  obtain ⟨outcome, hremoving⟩ := hgo
  exact .of_run .go rfl (.removing hremoving)

/-- On a closed connection nothing waits in the map. -/
lemma Routed.channel_ne_empty (h : w.Routed) (hclosed : w.closed = true)
    (hasked : (w.calls c).asked = true) : (w.calls c).channel ≠ .empty := by
  intro hempty
  have hlistens := (h.standing c).listens hasked
  unfold Call.Listens at hlistens
  rw [hempty, h.closed hclosed] at hlistens
  cases hlistens.1

lemma Routed.ends_leaving (h : w.Routed) (hclosed : w.closed = true) {exit : Exit}
    (hphase : (w.calls c).phase = .leaving exit) : Ends w c := by
  have hnext : w.run c .go = w.leave c exit := by simp [Writer.run, Writer.advance, hphase]
  refine .of_run .go rfl ?_
  have hrouted := h.run c .go
  have hclosed' := closed_run hclosed c .go
  rw [hnext] at hclosed'
  rw [hnext] at hrouted ⊢
  have hcases : ((w.leave c exit).calls c).phase = .awaiting ∨
      (∃ outcome, ((w.leave c exit).calls c).phase = .removing outcome) ∨
      ∃ outcome, ((w.leave c exit).calls c).phase = .finished outcome := by
    unfold Writer.leave
    dsimp only
    generalize (if exit.closes then w.close else w) = w'
    split
    · split
      · exact .inl (by simp)
      · exact .inr (.inl ⟨.answered (.error .disconnected), by simp⟩)
      · exact .inr (.inl ⟨.dropped, by simp⟩)
    · split
      · rename_i result _
        exact .inr (.inr ⟨.wrote result, by simp⟩)
      · exact .inr (.inr ⟨.dropped, by simp⟩)
  rcases hcases with hawaiting | ⟨outcome, hremoving⟩ | ⟨outcome, hfinished⟩
  · have hkind := (hrouted.standing c).request (by rw [hawaiting]; rfl)
    exact .awaiting hawaiting
      (hrouted.channel_ne_empty hclosed' (by simp [Call.asked, hawaiting, hkind]))
  · exact .removing hremoving
  · exact .finished hfinished

lemma Routed.ends_unlocking (h : w.Routed) (hclosed : w.closed = true) {exit : Exit}
    (hphase : (w.calls c).phase = .unlocking exit) : Ends w c := by
  have hnext : w.run c .go = { w.goto c (.leaving exit) with holder := none } := by
    simp [Writer.run, Writer.advance, hphase]
  refine .of_run .go rfl ?_
  have hrouted := h.run c .go
  rw [hnext] at hrouted ⊢
  have hleaving : ((w.goto c (.leaving exit)).calls c).phase = .leaving exit := by simp
  exact hrouted.ends_leaving hclosed hleaving

lemma Routed.ends_closing (h : w.Routed) {exit : Exit}
    (hphase : (w.calls c).phase = .closing exit) : Ends w c := by
  have hnext : w.run c .go = w.close.goto c (.unlocking exit) := by
    simp [Writer.run, Writer.advance, hphase]
  refine .of_run .go rfl ?_
  have hrouted := h.run c .go
  rw [hnext] at hrouted ⊢
  have hunlocking : ((w.close.goto c (.unlocking exit)).calls c).phase = .unlocking exit := by simp
  exact hrouted.ends_unlocking rfl hunlocking

/-- Every call comes to its end once the connection is closed. -/
lemma Routed.ends (h : w.Routed) (hclosed : w.closed = true)
    (hcalled : (w.calls c).phase ≠ .absent) : Ends w c := by
  have hwaits : ∀ w' : Writer, w'.Routed → w'.closed = true → (w'.calls c).phase = .waiting →
      Ends w' c := by
    intro w' h' hclosed' hphase
    have hnext : w'.run c .notice = w'.goto c (.leaving ⟨false, some (.error .brokenPipe)⟩) := by
      simp [Writer.run, hclosed', Writer.abandon, hphase]
    refine .of_run .notice rfl ?_
    have hrouted := h'.run c .notice
    rw [hnext] at hrouted ⊢
    refine hrouted.ends_leaving hclosed'
      (show _ = Phase.leaving ⟨false, some (.error .brokenPipe)⟩ from ?_)
    simp
  have hnumbered : ∀ w' : Writer, w'.closed = true → (w'.calls c).phase = .numbered →
      Ends w' c := by
    intro w' hclosed' hphase
    refine .of_run .go rfl (.finished
      (show _ = Phase.finished (.answered (.error .disconnected)) from ?_))
    simp [Writer.run, Writer.advance, hphase, Writer.admitCall, hclosed']
  cases hphase : (w.calls c).phase with
  | absent => exact absurd hphase hcalled
  | called =>
    refine .of_run .go rfl ?_
    have hrouted := h.run c .go
    unfold Writer.run Writer.advance at hrouted ⊢
    rw [hphase] at hrouted ⊢
    dsimp only at hrouted ⊢
    by_cases hkind : (w.calls c).kind.isRequest = true
    · rw [if_pos hkind]
      exact hnumbered _ hclosed (by simp)
    · rw [if_neg hkind] at hrouted ⊢
      exact hwaits _ hrouted hclosed (by simp)
  | numbered => exact hnumbered w hclosed hphase
  | waiting => exact hwaits w h hclosed hphase
  | locked =>
    have hnext : w.run c .go = w.goto c (.closing ⟨true, some (.error .brokenPipe)⟩) := by
      simp [Writer.run, Writer.advance, hphase, hclosed]
    refine .of_run .go rfl ?_
    have hrouted := h.run c .go
    rw [hnext] at hrouted ⊢
    refine hrouted.ends_closing (show _ = Phase.closing ⟨true, some (.error .brokenPipe)⟩ from ?_)
    simp
  | framing | flushing =>
    have hnext : w.run c .notice = w.goto c (.closing ⟨false, some (.error .brokenPipe)⟩) := by
      simp [Writer.run, hclosed, Writer.abandon, hphase]
    refine .of_run .notice rfl ?_
    have hrouted := h.run c .notice
    rw [hnext] at hrouted ⊢
    refine hrouted.ends_closing (show _ = Phase.closing ⟨false, some (.error .brokenPipe)⟩ from ?_)
    simp
  | closing exit => exact h.ends_closing hphase
  | unlocking exit => exact h.ends_unlocking hclosed hphase
  | leaving exit => exact h.ends_leaving hclosed hphase
  | awaiting =>
    have hkind := (h.standing c).request (by rw [hphase]; rfl)
    exact .awaiting hphase (h.channel_ne_empty hclosed (by simp [Call.asked, hphase, hkind]))
  | removing outcome => exact .removing hphase
  | finished outcome => exact .finished hphase

/-! ### What is promised of a connection -/

/-- A frame was broken off: the output does not end with a line break, and nobody writes. -/
def BrokenOff (w : Writer) : Prop :=
  (∀ c sent, (w.calls c).phase ≠ .framing sent) ∧
    ∃ byte, w.out.getLast? = some byte ∧ byte ≠ newline

lemma framing_of_turn {sent : Nat} (h : phase.turn = .writing sent) : phase = .framing sent := by
  cases phase <;> cases h
  rfl

/-- Whole lines end with a line break. -/
lemma getLast?_lines {frames : Nat → Document} {whole : List Nat} {byte : UInt8}
    (h : (whole.flatMap fun c => (frames c).line).getLast? = some byte) : byte = newline := by
  induction whole with
  | nil => cases h
  | cons c whole ih =>
    rw [List.flatMap_cons, List.getLast?_append] at h
    cases hrest : (whole.flatMap fun c => (frames c).line).getLast? with
    | none =>
      rw [hrest, Document.getLast?_line] at h
      exact (Option.some.inj h).symm
    | some last =>
      rw [hrest] at h
      exact ih (hrest.trans h)

/-- What holds after some events, and ever after. -/
structure Serves (events : List Event) : Prop where
  -- whole frames, and a part of one more
  framed : ∃ (whole : List Nat) (part : List UInt8), whole.Nodup ∧
    (new.after events).out = whole.flatMap (fun c => ((new.after events).calls c).frame.line) ++ part ∧
    (part = [] ∨ ∃ c, c ∉ whole ∧ part <+: ((new.after events).calls c).frame.line)
  -- a frame is one line of JSON
  line : ∀ c, ∃ text, ((new.after events).calls c).frame.line = text ++ [newline] ∧
    newline ∉ text ∧ text = utf8 ((new.after events).calls c).frame.value.compact
  last : (new.after events).BrokenOff → ∀ later,
    (new.after (events ++ later)).out = (new.after events).out
  capacity : (new.after events).pending.size ≤ 64
  awaited : ∀ id p, (new.after events).pending.get id = some p →
    ((new.after events).calls p.tx).id = id ∧ ((new.after events).calls p.tx).asked = true ∧
      ((new.after events).calls p.tx).channel = .empty
  -- a request that has no result yet can still get the response
  waits : ∀ c, ((new.after events).calls c).asked = true →
    ((new.after events).calls c).channel = .empty →
      ∃ p, (new.after events).pending.get ((new.after events).calls c).id = some p ∧ p.tx = c
  rightly : ∀ c result, ((new.after events).calls c).phase = .finished (.answered result) →
    ((new.after events).calls c).Rightly result
  -- a request that has its result, or lost its sender, ends by itself
  ends : ∀ c, ((new.after events).calls c).phase = .awaiting →
    ((new.after events).calls c).channel ≠ .empty → (new.after events).Ends c
  closed : (new.after events).closed = true → ∀ later,
    (new.after (events ++ later)).pending = .empty ∧
      ∀ c, ((new.after (events ++ later)).calls c).phase ≠ .absent →
        (new.after (events ++ later)).Ends c

/-- The output of a connection stays framed, and no request to the client is stranded. -/
theorem serves (events : List Event) : Serves events := by
  have hsound := sound_after events
  have hrouted := routed_after events
  constructor
  case framed =>
    obtain ⟨whole, part, hnodup, hout, hpart, -⟩ := hsound.lines
    exact ⟨whole, part, hnodup, hout, hpart⟩
  case line =>
    intro c
    exact ⟨_, rfl, Document.newline_not_mem _, rfl⟩
  case last =>
    rintro ⟨hnobody, byte, hbyte, hne⟩ later
    rw [after, Run.after_append]
    refine over_after hsound ?_ later
    obtain ⟨whole, part, -, hout, -, hover⟩ := hsound.lines
    have hpart : part ≠ [] := by
      rintro rfl
      rw [List.append_nil] at hout
      have hlast : (whole.flatMap fun c => ((new.after events).calls c).frame.line).getLast? =
          some byte := by
        rw [← hbyte]
        exact congrArg List.getLast? hout.symm
      exact hne (getLast?_lines hlast)
    refine (hover hpart).resolve_left ?_
    rintro ⟨c, sent, hturn⟩
    exact hnobody c sent (framing_of_turn hturn)
  case capacity => exact hrouted.capacity
  case awaited =>
    intro id p hp
    obtain ⟨hid, hasked, hempty, -⟩ := hrouted.awaited id p hp
    exact ⟨hid, hasked, hempty⟩
  case waits =>
    intro c hasked hempty
    have hlistens := (hrouted.standing c).listens hasked
    unfold Call.Listens at hlistens
    rw [hempty] at hlistens
    exact ⟨_, hlistens.1, rfl⟩
  case rightly =>
    intro c result hphase
    exact (hrouted.standing c).rightly result (by rw [hphase]; rfl)
  case ends =>
    intro c hphase hchannel
    exact .awaiting hphase hchannel
  case closed =>
    intro hclosed later
    have hlater : (new.after (events ++ later)).closed = true := by
      rw [after, Run.after_append]
      exact closed_after hclosed later
    have hrouted' := routed_after (events ++ later)
    exact ⟨hrouted'.closed hlater, fun c hcalled => hrouted'.ends hlater hcalled⟩

end Writer

end Acp
