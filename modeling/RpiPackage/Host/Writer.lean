import RpiPackage.Host.Admission
import RpiPackage.Lib.Run

/-!
# The writer and the callers

Callers register executions, hand clones of their tickets to the command queue, keep or drop their
own; the writer checks each queued command and writes it or lets it go; the reader observes frames.
All of them share the admission record, and take their steps in any order.
-/

namespace Host

open Json Result

/-- A queued command; only an execution has a ticket. -/
structure Outbound where
  value : Value
  control : Option ExecutionTicket

def Outbound.token (command : Outbound) : Option Nat := command.control.map ExecutionTicket.token

structure System where
  admission : ExecutionAdmission
  /-- The number of tokens handed out. -/
  tokens : Nat
  /-- The tickets alive outside the queue. -/
  tickets : List ExecutionTicket
  outbound : List Outbound
  written : List Outbound

def System.start : System := ⟨ExecutionAdmission.default, 0, [], [], []⟩

inductive Op where
  | register (value : Value)
  | clone (ticket : Nat)
  | retain (ticket : Nat)
  | drop (ticket : Nat)
  /-- A command is queued, with a clone of a ticket if it is an execution. -/
  | send (value : Value) (ticket : Option Nat)
  /-- The writer takes a command; `requested` tells whether its caller still waits for it. -/
  | write (requested : Bool)
  | observe (frame : Value)

/-- The check a write makes, by token and result. -/
def System.check (s : System) : Op → Option (Nat × Bool)
  | .write true =>
    match s.outbound with
    | ⟨_, some ticket⟩ :: _ => some (ticket.token, (s.admission.published ticket.token).1)
    | _ => none
  | _ => none

/-- The ticket of a command that leaves the queue is dropped in a step of its own. -/
def System.write (s : System) (requested : Bool) : System :=
  match s.outbound with
  | [] => s
  | command :: outbound =>
    let s := { s with outbound, tickets := s.tickets ++ command.control.toList }
    if requested then
      match command.control with
      | none => { s with written := s.written ++ [command] }
      | some ticket =>
        let (passed, admission) := s.admission.published ticket.token
        { s with admission, written := if passed then s.written ++ [command] else s.written }
    else s

def System.step (s : System) : Op → System
  | .register value =>
    match s.admission.register s.tokens value with
    | .ok (some (ticket, admission)) =>
      { s with admission, tokens := s.tokens + 1, tickets := s.tickets ++ [ticket] }
    | _ => s
  | .clone ticket =>
    { s with tickets := s.tickets ++ (s.tickets[ticket]?.map ExecutionTicket.clone).toList }
  | .retain ticket => { s with tickets := s.tickets.modify ticket ExecutionTicket.retainQueued }
  | .drop ticket =>
    match s.tickets[ticket]? with
    | some dropped =>
      { s with admission := s.admission.drop dropped, tickets := s.tickets.eraseIdx ticket }
    | none => s
  | .send value ticket =>
    let control := (ticket.bind fun ticket => s.tickets[ticket]?).map ExecutionTicket.clone
    { s with outbound := s.outbound ++ [⟨value, control⟩] }
  | .write requested => s.write requested
  | .observe frame => { s with admission := s.admission.observe frame }

def System.run (ops : List Op) : System := Run.after System.step System.start ops

/-! ### What a step does -/

/-- A ticket that is held by a caller or by a queued command. -/
def System.Alive (s : System) (ticket : ExecutionTicket) : Prop :=
  ticket ∈ s.tickets ∨ ∃ command ∈ s.outbound, ticket ∈ command.control

/-- The intent of a token is current. -/
def System.Current (s : System) (token : Nat) : Prop :=
  ∃ intent ∈ s.admission.current, intent.token = token

/-- Everything a step can do to the admission record. -/
inductive System.Effect (s : System) : Op → System → Prop where
  | keep (op : Op) (s' : System) (admission : s'.admission = s.admission)
      (tokens : s'.tokens = s.tokens) : Effect s op s'
  | register (op : Op) (s' : System) (id : String) (free : s.admission.current = none)
      (current : s'.admission.current = some ⟨id, s.tokens, false, false, none⟩)
      (tokens : s'.tokens = s.tokens + 1) : Effect s op s'
  | publish (op : Op) (s' : System) (intent : Intent) (current : s.admission.current = some intent)
      (check : s.check op = some (intent.token, true))
      (admission : s'.admission.current = some { intent with published := true })
      (tokens : s'.tokens = s.tokens) : Effect s op s'
  | rollBack (op : Op) (s' : System) (intent : Intent)
      (current : s.admission.current = some intent) (unpublished : intent.published = false)
      (admission : s'.admission.current = none) (tokens : s'.tokens = s.tokens) : Effect s op s'
  | observe (frame : Value) (s' : System) (admission : s'.admission = s.admission.observe frame)
      (tokens : s'.tokens = s.tokens) : Effect s (.observe frame) s'

lemma System.step_effect (s : System) (op : Op) : s.Effect op (s.step op) := by
  cases op with
  | register value =>
    simp only [System.step]
    split
    · rename_i ticket admission hregister
      obtain ⟨hfree, -, id, rfl⟩ := ExecutionAdmission.register_eq_ok hregister
      exact .register _ _ id hfree rfl rfl
    · exact .keep _ _ rfl rfl
  | clone | retain | send => exact .keep _ _ rfl rfl
  | drop ticket =>
    simp only [System.step]
    split
    · rename_i dropped hticket
      unfold ExecutionAdmission.drop
      split
      · rcases hcurrent : s.admission.current with _ | intent
        · exact .keep _ _ rfl rfl
        · dsimp only
          split
          · rename_i hmatch
            exact .rollBack _ _ intent hcurrent hmatch.2 rfl rfl
          · exact .keep _ _ rfl rfl
      · exact .keep _ _ rfl rfl
    · exact .keep _ _ rfl rfl
  | write requested =>
    simp only [System.step, System.write]
    rcases houtbound : s.outbound with _ | ⟨⟨value, control⟩, outbound⟩
    · exact .keep _ _ rfl rfl
    · cases requested with
      | false => exact .keep _ _ rfl rfl
      | true =>
        cases control with
        | none => exact .keep _ _ rfl rfl
        | some ticket =>
          rcases hcurrent : s.admission.current with _ | intent
          · refine .keep _ _ ?_ rfl
            simp only [ExecutionAdmission.published, hcurrent, ite_true]
          · by_cases htoken : intent.token = ticket.token
            · refine .publish _ _ intent hcurrent ?_ ?_ rfl
              · simp [System.check, houtbound, ExecutionAdmission.published, hcurrent, htoken]
              · simp [ExecutionAdmission.published, hcurrent, htoken]
            · refine .keep _ _ ?_ rfl
              simp [ExecutionAdmission.published, hcurrent, htoken]
  | observe frame => exact .observe frame _ rfl rfl

/-- The ticket of a command outlives its stay in the queue. -/
lemma System.write_queue (s : System) (requested : Bool) {command : Outbound}
    {outbound : List Outbound} (h : s.outbound = command :: outbound) :
    (s.write requested).tickets = s.tickets ++ command.control.toList ∧
      (s.write requested).outbound = outbound := by
  obtain ⟨value, control⟩ := command
  unfold System.write
  rw [h]
  cases requested with
  | false => exact ⟨rfl, rfl⟩
  | true => cases control <;> exact ⟨rfl, rfl⟩

/-- A ticket stems from one that was alive before the step, or carries a token just handed out. -/
lemma System.step_alive (s : System) (op : Op) {ticket : ExecutionTicket}
    (h : (s.step op).Alive ticket) :
    (∃ ticket', s.Alive ticket' ∧ ticket'.token = ticket.token) ∨
      ticket.token = s.tokens ∧ (s.step op).tokens = s.tokens + 1 := by
  have hkeep : s.Alive ticket → ∃ ticket', s.Alive ticket' ∧ ticket'.token = ticket.token :=
    fun halive => ⟨ticket, halive, rfl⟩
  cases op with
  | register value =>
    simp only [System.step] at h ⊢
    split at h
    · rename_i ticket' admission hregister
      obtain ⟨-, htoken, -⟩ := ExecutionAdmission.register_eq_ok hregister
      rcases h with h | h
      · rcases List.mem_append.mp h with h | h
        · exact .inl (hkeep (.inl h))
        · obtain rfl := List.mem_singleton.mp h
          exact .inr ⟨htoken, rfl⟩
      · exact .inl (hkeep (.inr h))
    · exact .inl (hkeep h)
  | clone i =>
    left
    rcases h with h | h
    · rcases List.mem_append.mp h with h | h
      · exact hkeep (.inl h)
      · obtain ⟨ticket', hticket, rfl⟩ := Option.map_eq_some_iff.mp (Option.mem_toList.mp h)
        exact ⟨ticket', .inl (List.mem_of_getElem? hticket), rfl⟩
    · exact hkeep (.inr h)
  | retain i =>
    left
    rcases h with h | h
    · obtain ⟨j, hj⟩ := List.mem_iff_getElem?.mp h
      rw [System.step, List.getElem?_modify, Option.map_eq_map] at hj
      obtain ⟨ticket', hticket, heq⟩ := Option.map_eq_some_iff.mp hj
      refine ⟨ticket', .inl (List.mem_of_getElem? hticket), ?_⟩
      rw [← heq]
      split <;> rfl
    · exact hkeep (.inr h)
  | drop i =>
    left
    simp only [System.step] at h
    split at h
    · exact hkeep (h.imp_left fun h => List.mem_of_mem_eraseIdx h)
    · exact hkeep h
  | send value i =>
    left
    rcases h with h | ⟨command, hcommand, h⟩
    · exact hkeep (.inl h)
    · rcases List.mem_append.mp hcommand with hcommand | hcommand
      · exact hkeep (.inr ⟨command, hcommand, h⟩)
      · obtain rfl := List.mem_singleton.mp hcommand
        obtain ⟨ticket', hticket, rfl⟩ := Option.map_eq_some_iff.mp h
        obtain ⟨j, -, hticket⟩ := Option.bind_eq_some_iff.mp hticket
        exact ⟨ticket', .inl (List.mem_of_getElem? hticket), rfl⟩
  | write requested =>
    left
    rcases houtbound : s.outbound with _ | ⟨command, outbound⟩
    · rw [System.step, System.write, houtbound] at h
      exact hkeep h
    · obtain ⟨htickets, hqueue⟩ := s.write_queue requested houtbound
      rcases h with h | ⟨command', hcommand, h⟩
      · rw [System.step, htickets, List.mem_append] at h
        refine hkeep (h.imp_right fun h => ⟨command, ?_, Option.mem_toList.mp h⟩)
        exact houtbound ▸ List.mem_cons_self
      · rw [System.step, hqueue] at hcommand
        refine hkeep (.inr ⟨command', ?_, h⟩)
        exact houtbound ▸ List.mem_cons_of_mem command hcommand
  | observe frame => exact .inl (hkeep h)

end Host
