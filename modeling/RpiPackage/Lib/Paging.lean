import Mathlib.Algebra.Group.Nat.Defs
import Mathlib.Data.List.Chain
import Mathlib.Data.List.Nodup
import Mathlib.Data.List.Perm.Subperm
import Mathlib.Tactic.Common

/-!
# Paged reads

A read goes on page by page, each asked for with the cursor the page before it ended at. When the
keys of a page lie between its two cursors, the pages of a read are in order and there are no more
of them than there are positions. Segments that follow one another tile the range they span.
-/

namespace Paging

variable {σ γ κ α : Type*}

/-! ### Chains of pages -/

/-- A page is asked for with the cursor the page before it ended at. -/
def Continues (cursor next : σ → Option γ) (s t : σ) : Prop :=
  ∃ c, next s = some c ∧ cursor t = some c

/-- The keys of a page lie between its cursors. -/
structure Ordered (r : κ → κ → Prop) (position : γ → κ) (cursor next : σ → Option γ)
    (keys : σ → List κ) (s : σ) : Prop where
  rises : (keys s).Pairwise r
  after : ∀ c ∈ cursor s, ∀ k ∈ keys s, r (position c) k
  before : ∀ c ∈ next s, ∀ k ∈ keys s, k = position c ∨ r k (position c)
  advances : ∀ c ∈ cursor s, ∀ c' ∈ next s, r (position c) (position c')

section

variable {r : κ → κ → Prop} [IsTrans κ r] {position : γ → κ} {cursor next : σ → Option γ}
  {keys : σ → List κ} {s : σ} {pages : List σ}

/-- Whatever a read finds lies after the cursor it starts with. -/
lemma after_of_isChain (hchain : (s :: pages).IsChain (Continues cursor next))
    (hordered : ∀ t ∈ s :: pages, Ordered r position cursor next keys t) {c : γ}
    (hc : cursor s = some c) :
    ∀ t ∈ s :: pages, (∀ k ∈ keys t, r (position c) k) ∧
      ∀ c' ∈ next t, r (position c) (position c') := by
  induction pages generalizing s c with
  | nil =>
    intro t ht
    rw [List.mem_singleton] at ht
    subst ht
    have hs := hordered t (List.mem_singleton_self t)
    exact ⟨hs.after c hc, hs.advances c hc⟩
  | cons t pages ih =>
    have hs := hordered s List.mem_cons_self
    obtain ⟨⟨c', hnext, hcursor⟩, hchain⟩ := List.isChain_cons_cons.mp hchain
    have hle := hs.advances c hc c' hnext
    intro u hu
    rcases List.mem_cons.mp hu with rfl | hu
    · exact ⟨hs.after c hc, hs.advances c hc⟩
    · obtain ⟨hkeys, hnexts⟩ := ih hchain
        (fun v hv => hordered v (List.mem_cons_of_mem _ hv)) hcursor u hu
      exact ⟨fun k hk => trans_of r hle (hkeys k hk),
        fun d hd => trans_of r hle (hnexts d hd)⟩

/-- The pages of a read are in order. -/
lemma pairwise_of_isChain (hchain : pages.IsChain (Continues cursor next))
    (hordered : ∀ t ∈ pages, Ordered r position cursor next keys t) :
    (pages.flatMap keys).Pairwise r := by
  induction pages with
  | nil => exact List.Pairwise.nil
  | cons s pages ih =>
    have hs := hordered s List.mem_cons_self
    have hrest : ∀ t ∈ pages, Ordered r position cursor next keys t :=
      fun t ht => hordered t (List.mem_cons_of_mem _ ht)
    rw [List.flatMap_cons, List.pairwise_append]
    refine ⟨hs.rises, ih hchain.tail hrest, ?_⟩
    intro k hk k' hk'
    obtain ⟨u, hu, hku⟩ := List.mem_flatMap.mp hk'
    rcases pages with _ | ⟨t, pages⟩
    · cases hu
    · obtain ⟨⟨c, hnext, hcursor⟩, hchain⟩ := List.isChain_cons_cons.mp hchain
      have hlt := (after_of_isChain hchain hrest hcursor u hu).1 k' hku
      rcases hs.before c hnext k hk with rfl | hbefore
      · exact hlt
      · exact trans_of r hbefore hlt

/-- The cursors of a read are in order. -/
lemma pairwise_cursors (hchain : pages.IsChain (Continues cursor next))
    (hordered : ∀ t ∈ pages, Ordered r position cursor next keys t) :
    ((pages.filterMap next).map position).Pairwise r := by
  induction pages with
  | nil => exact List.Pairwise.nil
  | cons s pages ih =>
    have hrest : ∀ t ∈ pages, Ordered r position cursor next keys t :=
      fun t ht => hordered t (List.mem_cons_of_mem _ ht)
    have htail := ih hchain.tail hrest
    rcases hnext : next s with _ | c
    · rw [List.filterMap_cons_none hnext]
      exact htail
    · rw [List.filterMap_cons_some hnext, List.map_cons, List.pairwise_cons]
      refine ⟨?_, htail⟩
      intro k hk
      obtain ⟨c', hc', rfl⟩ := List.mem_map.mp hk
      obtain ⟨u, hu, hnextu⟩ := List.mem_filterMap.mp hc'
      rcases pages with _ | ⟨t, pages⟩
      · cases hu
      · obtain ⟨⟨d, hd, hcursor⟩, hchain⟩ := List.isChain_cons_cons.mp hchain
        obtain rfl := Option.some.inj (hnext.symm.trans hd)
        exact (after_of_isChain hchain hrest hcursor u hu).2 c' hnextu

end

/-- Every page but the last has a cursor to go on with. -/
lemma length_le_cursors {cursor next : σ → Option γ} {pages : List σ}
    (hchain : pages.IsChain (Continues cursor next)) :
    pages.length ≤ (pages.filterMap next).length + 1 := by
  induction pages with
  | nil => exact Nat.zero_le _
  | cons s pages ih =>
    rcases pages with _ | ⟨t, pages⟩
    · exact Nat.le_add_left _ _
    · obtain ⟨⟨c, hnext, -⟩, hchain⟩ := List.isChain_cons_cons.mp hchain
      rw [List.filterMap_cons_some hnext, List.length_cons, List.length_cons]
      exact Nat.succ_le_succ (ih hchain)

/-- There are no more distinct 64-bit numbers than that. -/
lemma length_le_of_nodup {l : List UInt64} (h : l.Nodup) : l.length ≤ 2 ^ 64 := by
  have hnodup : (l.map UInt64.toNat).Nodup :=
    h.map (fun _ _ heq => UInt64.toNat_inj.mp heq)
  have hsub : l.map UInt64.toNat ⊆ List.range (2 ^ 64) := by
    intro n hn
    obtain ⟨m, -, rfl⟩ := List.mem_map.mp hn
    exact List.mem_range.mpr m.toNat_lt
  have hle := (hnodup.subperm hsub).length_le
  rwa [List.length_map, List.length_range] at hle

/-! ### Tilings -/

/-- Segments, each with its offset and length, that cover a range one after another. -/
def Tiles (first last : Nat) : List (Nat × Nat) → Prop
  | [] => first = last
  | (offset, length) :: segments => offset = first ∧ 0 < length ∧ Tiles (first + length) last segments

lemma Tiles.append {first middle last : Nat} {left right : List (Nat × Nat)}
    (hleft : Tiles first middle left) (hright : Tiles middle last right) :
    Tiles first last (left ++ right) := by
  induction left generalizing first with
  | nil =>
    rw [show first = middle from hleft]
    exact hright
  | cons segment left ih =>
    obtain ⟨hoffset, hlength, hleft⟩ := hleft
    exact ⟨hoffset, hlength, ih hleft⟩

end Paging
