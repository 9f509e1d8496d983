import Mathlib.Data.List.Nodup
import Mathlib.Logic.Function.Basic
import Mathlib.Logic.Relation
import Mathlib.Tactic.Common

/-!
# Writing in turns

Parties share an output, and each writes one line while it holds the output, piece by piece. A
party that gives up seals the output before it releases it, and nobody begins on a sealed output:
the output is whole lines, and at most one line that was broken off and is the last.
-/

/-- Where a party is: it has not come, holds the output, writes, has written its line, gives up, is
about to release the output, or has left. -/
inductive Turn where
  | idle
  | ready
  | writing (sent : Nat)
  | written
  | torn
  | releasing
  | gone
  deriving DecidableEq, Repr

namespace Turn

def holds : Turn → Bool
  | .ready | .writing _ | .written | .torn | .releasing => true
  | .idle | .gone => false

/-- Nothing more will be written by this party. -/
def past : Turn → Bool
  | .written | .torn | .releasing | .gone => true
  | .idle | .ready | .writing _ => false

end Turn

/-- An output that is shared by parties. -/
structure Turns (ι α : Type*) where
  out : List α
  holder : Option ι
  isSealed : Bool
  turn : ι → Turn
  line : ι → List α

namespace Turns

variable {ι α : Type*}

def IsWriting (s : Turns ι α) : Prop := ∃ i sent, s.turn i = .writing sent

/-- Nobody can begin any more. -/
def Ended (s : Turns ι α) : Prop := s.isSealed = true ∨ ∃ i, s.turn i = .torn

/-- Nobody writes, and nobody can begin. -/
def Over (s : Turns ι α) : Prop := ¬s.IsWriting ∧ s.Ended

/-- The output is the lines of these parties, and a part of one more line. -/
structure Framed (s : Turns ι α) (whole : List ι) (part : List α) : Prop where
  out : s.out = whole.flatMap s.line ++ part
  nodup : whole.Nodup
  past : ∀ i ∈ whole, (s.turn i).past = true
  writing : ∀ i sent, s.turn i = .writing sent →
    sent < (s.line i).length ∧ part = (s.line i).take sent
  ended : ¬s.IsWriting → part ≠ [] →
    s.Ended ∧ ∃ i, (s.turn i).past = true ∧ i ∉ whole ∧ part <+: s.line i

structure Sound (s : Turns ι α) : Prop where
  holder : ∀ i, (s.turn i).holds = true ↔ s.holder = some i
  framed : ∃ whole part, s.Framed whole part

variable {s s' : Turns ι α} {i j : ι} {turn : Turn} {whole : List ι} {part : List α}

/-- The output is held by one party at a time. -/
lemma Sound.unique (h : s.Sound) (hi : (s.turn i).holds = true) (hj : (s.turn j).holds = true) :
    i = j := by
  have hholder := (h.holder i).mp hi
  rw [(h.holder j).mp hj] at hholder
  exact (Option.some.inj hholder).symm

lemma Sound.not_isWriting (h : s.Sound) (hi : (s.turn i).holds = true)
    (hturn : ∀ sent, s.turn i ≠ .writing sent) : ¬s.IsWriting := by
  rintro ⟨j, sent, hj⟩
  obtain rfl := h.unique hi (by rw [hj]; rfl)
  exact hturn sent hj

/-- While a party holds an output that has not ended, the output is whole lines. -/
lemma Framed.part_eq_nil (h : s.Framed whole part) (hnot : ¬s.IsWriting) (hended : ¬s.Ended) :
    part = [] := by
  by_contra hpart
  exact hended (h.ended hnot hpart).1

/-- Every party's line is written at most once, and only the last one can be broken off. -/
lemma Sound.lines (h : s.Sound) : ∃ (whole : List ι) (part : List α), whole.Nodup ∧
    s.out = whole.flatMap s.line ++ part ∧
    (part = [] ∨ ∃ i, i ∉ whole ∧ part <+: s.line i) ∧ (part ≠ [] → s.IsWriting ∨ s.Over) := by
  obtain ⟨whole, part, hframed⟩ := h.framed
  refine ⟨whole, part, hframed.nodup, hframed.out, ?_, ?_⟩
  · by_cases hpart : part = []
    · exact .inl hpart
    · by_cases hwriting : s.IsWriting
      · obtain ⟨i, sent, hi⟩ := hwriting
        refine .inr ⟨i, ?_, ?_⟩
        · intro hmem
          have hpast := hframed.past i hmem
          rw [hi] at hpast
          cases hpast
        · rw [(hframed.writing i sent hi).2]
          exact List.take_prefix _ _
      · obtain ⟨-, i, -, hwhole, hprefix⟩ := hframed.ended hwriting hpart
        exact .inr ⟨i, hwhole, hprefix⟩
  · intro hpart
    by_cases hwriting : s.IsWriting
    · exact .inl hwriting
    · exact .inr ⟨hwriting, (hframed.ended hwriting hpart).1⟩

/-! ### Moves -/

variable [DecidableEq ι]

def take (s : Turns ι α) (i : ι) (turn : Turn) : Turns ι α :=
  { s with turn := Function.update s.turn i turn }

/-- What can happen to the output. -/
inductive Move (s : Turns ι α) : Turns ι α → Prop where
  -- a party that has not come yet may change its line, and anybody may seal the output
  | quiet {isSealed : Bool} {line : ι → List α} (hseal : s.isSealed = true → isSealed = true)
      (hline : ∀ i, s.turn i ≠ .idle → line i = s.line i) : Move s { s with isSealed, line }
  | skip {i : ι} (h : s.turn i = .idle) : Move s (s.take i .gone)
  | enter {i : ι} (h : s.turn i = .idle) (hfree : s.holder = none) :
      Move s { s.take i .ready with holder := some i }
  | begin {i : ι} (h : s.turn i = .ready) (hopen : s.isSealed = false) (hline : s.line i ≠ []) :
      Move s (s.take i (.writing 0))
  | put {i : ι} {sent more : Nat} (h : s.turn i = .writing sent)
      (hmore : sent + more < (s.line i).length) :
      Move s { s.take i (.writing (sent + more)) with
        out := s.out ++ ((s.line i).drop sent).take more }
  | complete {i : ι} {sent : Nat} (h : s.turn i = .writing sent) :
      Move s { s.take i .written with out := s.out ++ (s.line i).drop sent }
  | tear {i : ι} (h : s.turn i = .ready ∨ (∃ sent, s.turn i = .writing sent) ∨
      s.turn i = .written) : Move s (s.take i .torn)
  | close {i : ι} (h : s.turn i = .torn) : Move s { s.take i .releasing with isSealed := true }
  | finish {i : ι} (h : s.turn i = .written) : Move s (s.take i .releasing)
  | release {i : ι} (h : s.turn i = .releasing) : Move s { s.take i .gone with holder := none }

@[simp] lemma turn_take_self (s : Turns ι α) (i : ι) (turn : Turn) : (s.take i turn).turn i = turn := by
  simp [take]

lemma turn_take_of_ne (h : j ≠ i) (s : Turns ι α) (turn : Turn) :
    (s.take i turn).turn j = s.turn j := by
  simp [take, h]

/-! ### The holder -/

/-- A party goes on without taking or releasing the output. -/
lemma Sound.holder_take (h : s.Sound) (hholds : turn.holds = (s.turn i).holds) (j : ι) :
    ((s.take i turn).turn j).holds = true ↔ s.holder = some j := by
  by_cases hj : j = i
  · subst hj
    rw [turn_take_self, hholds]
    exact h.holder j
  · rw [turn_take_of_ne hj]
    exact h.holder j

lemma Move.holder (h : s.Sound) (hmove : s.Move s') (j : ι) :
    (s'.turn j).holds = true ↔ s'.holder = some j := by
  cases hmove with
  | quiet => exact h.holder j
  | skip hi => exact h.holder_take (by rw [hi]; rfl) j
  | begin hi | put hi | complete hi | close hi | finish hi => exact h.holder_take (by rw [hi]; rfl) j
  | tear hi =>
    refine h.holder_take ?_ j
    rcases hi with hi | ⟨sent, hi⟩ | hi <;> rw [hi] <;> rfl
  | @enter i hi hfree =>
    by_cases hj : j = i
    · subst hj
      simp [Turn.holds]
    · show ((s.take i .ready).turn j).holds = true ↔ some i = some j
      rw [turn_take_of_ne hj, h.holder j, hfree]
      simp [Ne.symm hj]
  | @release i hi =>
    by_cases hj : j = i
    · subst hj
      simp [Turn.holds]
    · show ((s.take i .gone).turn j).holds = true ↔ none = some j
      rw [turn_take_of_ne hj, h.holder j, (h.holder i).mp (by rw [hi]; rfl)]
      simp [Ne.symm hj]

/-! ### The output -/

/-- A step of a party that does not write, before it and after it. -/
lemma Framed.take (h : s.Framed whole part) (hturn : ∀ sent, s.turn i ≠ .writing sent)
    (hturn' : ∀ sent, turn ≠ .writing sent) (hpast : (s.turn i).past = true → turn.past = true)
    (s' : Turns ι α) (hout : s'.out = s.out) (hline : s'.line = s.line)
    (hstep : s'.turn = (s.take i turn).turn) (hended : s.Ended → s'.Ended) :
    s'.Framed whole part := by
  have hkeeps : ∀ j, (s.turn j).past = true → (s'.turn j).past = true := by
    intro j hj
    rw [hstep]
    by_cases hji : j = i
    · subst hji
      rw [turn_take_self]
      exact hpast hj
    · rwa [turn_take_of_ne hji]
  have hwriting : ∀ j sent, s'.turn j = .writing sent ↔ s.turn j = .writing sent := by
    intro j sent
    rw [hstep]
    by_cases hji : j = i
    · subst hji
      rw [turn_take_self]
      exact iff_of_false (hturn' sent) (hturn sent)
    · rw [turn_take_of_ne hji]
  constructor
  case out => rw [hout, hline, h.out]
  case nodup => exact h.nodup
  case past => exact fun j hj => hkeeps j (h.past j hj)
  case writing =>
    intro j sent hj
    rw [hline]
    exact h.writing j sent ((hwriting j sent).mp hj)
  case ended =>
    intro hnot hpart
    have hnot' : ¬s.IsWriting := fun ⟨j, sent, hj⟩ => hnot ⟨j, sent, (hwriting j sent).mpr hj⟩
    obtain ⟨hended', j, hj, hwhole, hprefix⟩ := h.ended hnot' hpart
    rw [hline]
    exact ⟨hended hended', j, hkeeps j hj, hwhole, hprefix⟩

lemma Ended.take (h : s.Ended) (hturn : s.turn i ≠ .torn) (turn : Turn) : (s.take i turn).Ended := by
  rcases h with hseal | ⟨j, hj⟩
  · exact .inl hseal
  · refine .inr ⟨j, ?_⟩
    rw [turn_take_of_ne (by rintro rfl; exact hturn hj), hj]

lemma Sound.begin (h : s.Sound) (hi : s.turn i = .ready) (hopen : s.isSealed = false)
    (hline : s.line i ≠ []) (hframed : s.Framed whole part) :
    (s.take i (.writing 0)).Framed whole part := by
  have hholds : (s.turn i).holds = true := by rw [hi]; rfl
  have hnot : ¬s.IsWriting := h.not_isWriting hholds (by rw [hi]; intro sent heq; cases heq)
  have hended : ¬s.Ended := by
    rintro (hseal | ⟨j, hj⟩)
    · rw [hopen] at hseal
      cases hseal
    · obtain rfl := h.unique hholds (by rw [hj]; rfl)
      rw [hi] at hj
      cases hj
  obtain rfl := hframed.part_eq_nil hnot hended
  constructor
  case out => exact hframed.out
  case nodup => exact hframed.nodup
  case past =>
    intro j hj
    have hpast := hframed.past j hj
    rwa [turn_take_of_ne]
    rintro rfl
    rw [hi] at hpast
    cases hpast
  case writing =>
    intro j sent hj
    by_cases hji : j = i
    · subst hji
      rw [turn_take_self] at hj
      obtain rfl := Turn.writing.inj hj
      exact ⟨List.length_pos_iff.mpr hline, rfl⟩
    · rw [turn_take_of_ne hji] at hj
      exact absurd ⟨j, sent, hj⟩ hnot
  case ended => exact fun hnone => absurd ⟨i, 0, turn_take_self s i _⟩ hnone

/-- What the writing party has written is the part. -/
lemma Sound.put (h : s.Sound) {sent more : Nat} (hi : s.turn i = .writing sent)
    (hmore : sent + more < (s.line i).length) (hframed : s.Framed whole part) :
    Framed { s.take i (.writing (sent + more)) with
      out := s.out ++ ((s.line i).drop sent).take more } whole ((s.line i).take (sent + more)) := by
  obtain ⟨-, rfl⟩ := hframed.writing i sent hi
  have hholds : (s.turn i).holds = true := by rw [hi]; rfl
  constructor
  case out =>
    show s.out ++ _ = whole.flatMap s.line ++ _
    rw [hframed.out, List.append_assoc, List.take_add]
  case nodup => exact hframed.nodup
  case past =>
    intro j hj
    have hpast := hframed.past j hj
    show ((s.take i _).turn j).past = true
    rwa [turn_take_of_ne]
    rintro rfl
    rw [hi] at hpast
    cases hpast
  case writing =>
    intro j sent' hj
    by_cases hji : j = i
    · subst hji
      obtain rfl := Turn.writing.inj ((turn_take_self s j _).symm.trans hj)
      exact ⟨hmore, rfl⟩
    · have hj' : s.turn j = .writing sent' := (turn_take_of_ne hji s _).symm.trans hj
      exact absurd (h.unique (by rw [hj']; rfl) hholds) hji
  case ended => exact fun hnone => absurd ⟨i, _, turn_take_self s i _⟩ hnone

/-- Once all of a line is written, the party is one of the whole ones. -/
lemma Sound.complete (h : s.Sound) {sent : Nat} (hi : s.turn i = .writing sent)
    (hframed : s.Framed whole part) :
    Framed { s.take i .written with out := s.out ++ (s.line i).drop sent } (whole ++ [i]) [] := by
  obtain ⟨-, rfl⟩ := hframed.writing i sent hi
  have hholds : (s.turn i).holds = true := by rw [hi]; rfl
  have hnew : i ∉ whole := by
    intro hmem
    have hpast := hframed.past i hmem
    rw [hi] at hpast
    cases hpast
  constructor
  case out =>
    show s.out ++ _ = (whole ++ [i]).flatMap s.line ++ []
    rw [hframed.out, List.append_assoc, List.take_append_drop]
    simp
  case nodup =>
    rw [List.nodup_append]
    refine ⟨hframed.nodup, List.nodup_singleton i, ?_⟩
    rintro j hj k hk rfl
    obtain rfl := List.mem_singleton.mp hk
    exact hnew hj
  case past =>
    intro j hj
    show ((s.take i .written).turn j).past = true
    by_cases hji : j = i
    · rw [hji, turn_take_self]
      rfl
    · rw [turn_take_of_ne hji]
      refine hframed.past j ?_
      simpa [hji] using hj
  case writing =>
    intro j sent' hj
    by_cases hji : j = i
    · subst hji
      have hwritten := (turn_take_self s j .written).symm.trans hj
      cases hwritten
    · have hj' : s.turn j = .writing sent' := (turn_take_of_ne hji s _).symm.trans hj
      exact absurd (h.unique (by rw [hj']; rfl) hholds) hji
  case ended => exact fun _ hpart => absurd rfl hpart

/-- A party that gives up has ended the output, and what it wrote stays. -/
lemma Sound.tear (h : s.Sound) {sent : Nat} (hi : s.turn i = .writing sent)
    (hframed : s.Framed whole part) : (s.take i .torn).Framed whole part := by
  obtain ⟨-, rfl⟩ := hframed.writing i sent hi
  have hholds : (s.turn i).holds = true := by rw [hi]; rfl
  have hnew : i ∉ whole := by
    intro hmem
    have hpast := hframed.past i hmem
    rw [hi] at hpast
    cases hpast
  constructor
  case out => exact hframed.out
  case nodup => exact hframed.nodup
  case past =>
    intro j hj
    rw [turn_take_of_ne (by rintro rfl; exact hnew hj)]
    exact hframed.past j hj
  case writing =>
    intro j sent' hj
    by_cases hji : j = i
    · subst hji
      rw [turn_take_self] at hj
      cases hj
    · rw [turn_take_of_ne hji] at hj
      exact absurd (h.unique (by rw [hj]; rfl) hholds) hji
  case ended =>
    intro _ _
    refine ⟨.inr ⟨i, turn_take_self s i .torn⟩, i, ?_, hnew, List.take_prefix _ _⟩
    rw [turn_take_self]
    rfl

lemma Move.framed (h : s.Sound) (hmove : s.Move s') : ∃ whole part, s'.Framed whole part := by
  obtain ⟨whole, part, hframed⟩ := h.framed
  cases hmove with
  | quiet hseal hline =>
    refine ⟨whole, part, ?_, hframed.nodup, hframed.past, ?_, ?_⟩
    · rw [hframed.out]
      congr 1
      refine List.flatMap_congr fun i hi => ?_
      refine (hline i ?_).symm
      intro hidle
      have hpast := hframed.past i hi
      rw [hidle] at hpast
      cases hpast
    · intro i sent hi
      have hsame := hline i (by rw [show s.turn i = _ from hi]; intro heq; cases heq)
      simpa only [hsame] using hframed.writing i sent hi
    · intro hnot hpart
      obtain ⟨hended, i, hi, hwhole, hprefix⟩ := hframed.ended hnot hpart
      refine ⟨hended.imp hseal id, i, hi, hwhole, ?_⟩
      have hsame := hline i (by intro hidle; rw [hidle] at hi; cases hi)
      simpa only [hsame] using hprefix
  | skip hi =>
    exact ⟨whole, part, hframed.take (by simp [hi]) (by simp) (fun _ => rfl) _ rfl rfl rfl
      fun hended => hended.take (by simp [hi]) _⟩
  | enter hi hfree =>
    exact ⟨whole, part, hframed.take (by simp [hi]) (by simp) (by simp [hi, Turn.past]) _ rfl rfl
      rfl fun hended => hended.take (by simp [hi]) _⟩
  | begin hi hopen hline => exact ⟨whole, part, h.begin hi hopen hline hframed⟩
  | put hi hmore => exact ⟨whole, _, h.put hi hmore hframed⟩
  | complete hi => exact ⟨_, [], h.complete hi hframed⟩
  | tear hi =>
    rcases hi with hi | ⟨sent, hi⟩ | hi
    · exact ⟨whole, part, hframed.take (by simp [hi]) (by simp) (fun _ => rfl) _ rfl rfl rfl
        fun hended => hended.take (by simp [hi]) _⟩
    · exact ⟨whole, part, h.tear hi hframed⟩
    · exact ⟨whole, part, hframed.take (by simp [hi]) (by simp) (fun _ => rfl) _ rfl rfl rfl
        fun hended => hended.take (by simp [hi]) _⟩
  | close hi =>
    exact ⟨whole, part, hframed.take (by simp [hi]) (by simp) (fun _ => rfl) _ rfl rfl rfl
      fun _ => .inl rfl⟩
  | finish hi =>
    exact ⟨whole, part, hframed.take (by simp [hi]) (by simp) (fun _ => rfl) _ rfl rfl rfl
      fun hended => hended.take (by simp [hi]) _⟩
  | release hi =>
    exact ⟨whole, part, hframed.take (by simp [hi]) (by simp) (fun _ => rfl) _ rfl rfl rfl
      fun hended => hended.take (by simp [hi]) _⟩

/-- What is sealed stays sealed. -/
lemma Move.isSealed (hmove : s.Move s') (h : s.isSealed = true) : s'.isSealed = true := by
  cases hmove with
  | quiet hseal => exact hseal h
  | close => rfl
  | _ => exact h

/-! ### Runs -/

/-- Several things happen, one after another. -/
abbrev Moves (s s' : Turns ι α) : Prop := Relation.ReflTransGen Move s s'

lemma Move.sound (h : s.Sound) (hmove : s.Move s') : s'.Sound :=
  ⟨hmove.holder h, hmove.framed h⟩

lemma Sound.moves (h : s.Sound) (hmoves : s.Moves s') : s'.Sound := by
  induction hmoves with
  | refl => exact h
  | tail _ hmove ih => exact hmove.sound ih

lemma Moves.isSealed (hmoves : s.Moves s') (h : s.isSealed = true) : s'.isSealed = true := by
  induction hmoves with
  | refl => exact h
  | tail _ hmove ih => exact hmove.isSealed ih

lemma Over.take (h : s.Over) (hturn : s.turn i ≠ .torn) (hturn' : ∀ sent, turn ≠ .writing sent) :
    (s.take i turn).Over := by
  refine ⟨?_, h.2.take hturn turn⟩
  rintro ⟨j, sent, hj⟩
  by_cases hji : j = i
  · subst hji
    rw [turn_take_self] at hj
    exact hturn' sent hj
  · rw [turn_take_of_ne hji] at hj
    exact h.1 ⟨j, sent, hj⟩

/-- Nothing is written once it is over. -/
lemma Move.over (hsound : s.Sound) (hmove : s.Move s') (h : s.Over) : s'.Over ∧ s'.out = s.out := by
  cases hmove with
  | quiet hseal _ => exact ⟨⟨h.1, h.2.imp hseal id⟩, rfl⟩
  | skip hi => exact ⟨h.take (by simp [hi]) (by simp), rfl⟩
  | @enter i hi _ =>
    have hover : (s.take i .ready).Over := h.take (by simp [hi]) (by simp)
    exact ⟨hover, rfl⟩
  | @begin i hi hopen _ =>
    rcases h.2 with hseal | ⟨j, hj⟩
    · rw [hopen] at hseal
      cases hseal
    · obtain rfl := hsound.unique (by rw [hi]; rfl) (show (s.turn j).holds = true by rw [hj]; rfl)
      rw [hi] at hj
      cases hj
  | @put i sent _ hi _ => exact absurd ⟨i, sent, hi⟩ h.1
  | @complete i sent hi => exact absurd ⟨i, sent, hi⟩ h.1
  | @tear i hi =>
    rcases hi with hi | ⟨sent, hi⟩ | hi
    · exact ⟨h.take (by simp [hi]) (by simp), rfl⟩
    · exact absurd ⟨i, sent, hi⟩ h.1
    · exact ⟨h.take (by simp [hi]) (by simp), rfl⟩
  | @close i hi =>
    refine ⟨⟨?_, .inl rfl⟩, rfl⟩
    rintro ⟨j, sent, hj⟩
    by_cases hji : j = i
    · subst hji
      have hreleasing := (turn_take_self s j .releasing).symm.trans hj
      cases hreleasing
    · exact h.1 ⟨j, sent, (turn_take_of_ne hji s _).symm.trans hj⟩
  | finish hi => exact ⟨h.take (by simp [hi]) (by simp), rfl⟩
  | @release i hi =>
    have hover : (s.take i .gone).Over := h.take (by simp [hi]) (by simp)
    exact ⟨hover, rfl⟩

lemma Over.moves (hsound : s.Sound) (h : s.Over) (hmoves : s.Moves s') :
    s'.Over ∧ s'.out = s.out := by
  induction hmoves with
  | refl => exact ⟨h, rfl⟩
  | tail hbefore hmove ih =>
    obtain ⟨hover, hout⟩ := hmove.over (hsound.moves hbefore) ih.1
    exact ⟨hover, hout.trans ih.2⟩

end Turns
