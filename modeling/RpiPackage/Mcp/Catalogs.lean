import Mathlib.Algebra.GroupWithZero.Nat
import RpiPackage.Lib.JsonSize
import RpiPackage.Mcp.Configured

/-!
# Discovered catalogs

A catalog holds the items of the pages that were read, in their order, and its counter is the length
of the array they would be written as. That is so at any time, also when a page fails in the middle:
the items before the one that fails stay, and the counter stays behind it.
-/

namespace Mcp

open Json Json.Value Result

/-! ### The byte limit -/

/-- A writer that only counts. -/
structure ByteLimit where
  used : Nat
  max : Nat
  deriving DecidableEq, Repr

namespace ByteLimit

def write (b : ByteLimit) (bytes : String) : Except String ByteLimit :=
  let next := b.used + bytes.utf8ByteSize
  if next < 2 ^ 64 ∧ next ≤ b.max then .ok { b with used := next }
  else .error "catalog byte limit"

/-- `serde_json` writes a text in pieces. -/
def toWriter (b : ByteLimit) (pieces : List String) : Except String ByteLimit :=
  pieces.foldlM write b

/-- However a text is cut into pieces, its length is what counts. -/
lemma toWriter_eq {b : ByteLimit} {pieces : List String} (hne : pieces ≠ [])
    (hmax : b.max < 2 ^ 64) :
    b.toWriter pieces =
      if b.max < b.used + (String.join pieces).utf8ByteSize then .error "catalog byte limit"
      else .ok { b with used := b.used + (String.join pieces).utf8ByteSize } := by
  rw [utf8ByteSize_join]
  induction pieces generalizing b with
  | nil => exact absurd rfl hne
  | cons piece pieces ih =>
    have hfirst : b.toWriter (piece :: pieces) = b.write piece >>= fun b => b.toWriter pieces :=
      List.foldlM_cons
    rw [hfirst, List.map_cons, List.sum_cons, ← Nat.add_assoc, write]
    by_cases hfits : b.used + piece.utf8ByteSize ≤ b.max
    · rw [if_pos ⟨Nat.lt_of_le_of_lt hfits hmax, hfits⟩, ok_bind]
      cases pieces with
      | nil =>
        rw [List.map_nil, List.sum_nil, Nat.add_zero, if_neg (Nat.not_lt.mpr hfits)]
        rfl
      | cons next pieces =>
        exact ih (List.cons_ne_nil _ _) hmax
    · rw [if_neg (fun h => hfits h.2), error_bind, if_pos]
      omega

end ByteLimit

namespace Catalog

/-- A tool is added as the source does it, with the writer that counts. -/
def addToolThrough (pieces : List String) (c : Catalog) (item : Value) : Except String Catalog := do
  failIf (min c.limits.maxTools 16384 ≤ c.tools.length) "MCP tool catalog exceeded tool count limit"
  let counter : ByteLimit := ⟨c.bytes + (if c.tools = [] then 0 else 1), c.limits.maxCatalogBytes⟩
  let counter ← (counter.toWriter pieces).mapError fun _ => "MCP tool catalog exceeded byte limit"
  let tool ← (Tool.fromValue item).mapError fun _ => "MCP tools/list returned an invalid tool"
  validateToolName tool.name
  failIf (hasObjectType tool.inputSchema = false) "MCP tool inputSchema must have object type"
  failIf (tool.name ∈ c.names) "MCP tools/list returned a duplicate tool name"
  return { c with tools := c.tools ++ [tool], bytes := counter.used }

variable {c c' : Catalog} {item result : Value} {items : List Value}

lemma addToolThrough_eq {pieces : List String} (hne : pieces ≠ [])
    (hpieces : String.join pieces = item.compact) (hmax : c.limits.maxCatalogBytes < 2 ^ 64) :
    c.addToolThrough pieces item = c.addTool item := by
  unfold addToolThrough addTool
  dsimp only
  have hsize : item.compact.utf8ByteSize = item.compactSize := rfl
  rw [ByteLimit.toWriter_eq hne hmax, hpieces, hsize]
  dsimp only
  by_cases hlimit : c.limits.maxCatalogBytes <
      c.bytes + (if c.tools = [] then 0 else 1) + item.compactSize
  · rw [if_pos hlimit]
    unfold failIf
    rw [if_pos hlimit]
    rfl
  · rw [if_neg hlimit]
    unfold failIf
    rw [if_neg hlimit]
    rfl

/-! ### Pages that fail -/

/-- The items of a page, up to the first one that cannot be added. -/
def addTools (c : Catalog) : List Value → Except String Unit × Catalog
  | [] => (.ok (), c)
  | item :: items =>
    match c.addTool item with
    | .ok c => c.addTools items
    | .error e => (.error e, c)

/-- What a page leaves behind, also when it fails. -/
def afterPage (c : Catalog) (result : Value) : Except String (Option String) × Catalog :=
  let c := { c with pages := c.pages + 1 }
  if 100 < c.pages then (.error "MCP tools/list exceeded 100 pages", c)
  else match (result.get "tools").bind asArray with
    | none => (.error "MCP tools/list result has no tools array", c)
    | some items =>
      match c.addTools items with
      | (.error e, c) => (.error e, c)
      | (.ok (), c) =>
        match result.get "nextCursor" with
        | none => (.ok none, c)
        | some (.string next) =>
          if next ∈ c.cursors then
            (.error "MCP tools/list returned a repeated pagination cursor", c)
          else
            let pages := c.pages
            let c := { c with cursors := next :: c.cursors }
            if pages = 100 then (.error "MCP tools/list exceeded 100 pages", c)
            else (.ok (some next), c)
        | some _ => (.error "MCP tools/list nextCursor must be a string", c)

/-- What a discovery has accumulated when it ends, in whatever way. -/
def afterDiscovery : Catalog → List Answer → Catalog
  | c, .ok result :: answers =>
    match c.afterPage result with
    | (.ok (some _), c) => c.afterDiscovery answers
    | (_, c) => c
  | c, _ => c

/-- How many requests a discovery makes. -/
def requests : Catalog → List Answer → Nat
  | _, [] => 0
  | c, .ok result :: answers =>
    match c.page result with
    | .ok (some _, c) => c.requests answers + 1
    | _ => 1
  | _, _ :: _ => 1

lemma foldlM_addTool :
    items.foldlM addTool c = match c.addTools items with
      | (.ok (), c) => .ok c
      | (.error e, _) => .error e := by
  induction items generalizing c with
  | nil => rfl
  | cons item items ih =>
    rw [List.foldlM_cons, addTools]
    cases c.addTool item with
    | error e => rfl
    | ok c => exact ih

lemma page_eq :
    c.page result = match c.afterPage result with
      | (.ok cursor, c) => .ok (cursor, c)
      | (.error e, _) => .error e := by
  unfold page afterPage
  dsimp only
  by_cases hpages : 100 < c.pages + 1
  · rw [if_pos hpages]
    unfold failIf
    rw [if_pos hpages]
    rfl
  rw [if_neg hpages]
  unfold failIf
  rw [if_neg hpages, ok_bind]
  cases (result.get "tools").bind asArray with
  | none => rfl
  | some items =>
    dsimp only [okOr]
    rw [ok_bind, foldlM_addTool]
    rcases Catalog.addTools _ items with ⟨outcome, c₁⟩
    cases outcome with
    | error e => rfl
    | ok u =>
      dsimp only
      rw [ok_bind]
      cases result.get "nextCursor" with
      | none => rfl
      | some cursor =>
        cases cursor with
        | string next =>
          dsimp only
          by_cases hnext : next ∈ c₁.cursors
          · rw [if_pos hnext, if_pos hnext]
            rfl
          · rw [if_neg hnext, if_neg hnext, ok_bind]
            by_cases hlast : c₁.pages = 100
            · rw [if_pos hlast, if_pos hlast]
              rfl
            · rw [if_neg hlast, if_neg hlast]
              rfl
        | null | bool | number | array | object => rfl

/-! ### What a catalog holds -/

/-- A catalog holds items: it has their tools, and its counter is the length of their array. -/
structure Holds (c : Catalog) (items : List Value) : Prop where
  tools : items.mapM Tool.fromValue = .ok c.tools
  bytes : c.bytes = (Value.array items).compactSize
  valid : c.Valid

def itemsOf (result : Value) : List Value := ((result.get "tools").bind asArray).getD []

lemma compactSize_concat (items : List Value) (item : Value) :
    (Value.array (items ++ [item])).compactSize =
      (Value.array items).compactSize + (if items = [] then 0 else 1) + item.compactSize := by
  rw [compactSize_array, compactSize_array, List.map_append, List.sum_append, List.length_append]
  unfold framing
  cases items with
  | nil => simp [Nat.add_comm]
  | cons first items =>
    simp
    omega

lemma Holds.addTool (h : c.Holds items) (hadd : c.addTool item = .ok c') :
    c'.Holds (items ++ [item]) ∧ c'.pages = c.pages ∧ c'.limits = c.limits := by
  have hvalid := h.valid.addTool hadd
  have hempty : c.tools = [] ↔ items = [] := by
    have hlength := length_of_mapM_eq_ok h.tools
    rw [← List.length_eq_zero_iff, ← List.length_eq_zero_iff, hlength]
  obtain ⟨-, hadd⟩ := check_bind_eq_ok.mp hadd
  dsimp only at hadd
  obtain ⟨-, hadd⟩ := check_bind_eq_ok.mp hadd
  obtain ⟨tool, htool, hadd⟩ := bind_eq_ok.mp hadd
  obtain ⟨-, hadd⟩ := check_bind_eq_ok.mp hadd
  obtain ⟨-, hadd⟩ := check_bind_eq_ok.mp hadd
  obtain ⟨-, hadd⟩ := check_bind_eq_ok.mp hadd
  obtain rfl := Except.ok.inj hadd
  refine ⟨⟨?_, ?_, hvalid⟩, rfl, rfl⟩
  · refine mapM_append_ok h.tools ?_
    rw [mapError_eq_ok] at htool
    rw [List.mapM_cons, htool]
    rfl
  · rw [compactSize_concat, ← h.bytes]
    simp only [hempty]

lemma Holds.addTools (h : c.Holds items) (more : List Value) :
    ∃ added rest, more = added ++ rest ∧ (c.addTools more).2.Holds (items ++ added) ∧
      (c.addTools more).2.pages = c.pages ∧ (c.addTools more).2.limits = c.limits ∧
        ((c.addTools more).1 = .ok () → rest = []) := by
  induction more generalizing c items with
  | nil => exact ⟨[], [], rfl, by rw [List.append_nil]; exact h, rfl, rfl, fun _ => rfl⟩
  | cons item more ih =>
    rw [Catalog.addTools]
    cases hadd : c.addTool item with
    | error e =>
      refine ⟨[], item :: more, rfl, by rw [List.append_nil]; exact h, rfl, rfl, ?_⟩
      intro hok
      cases hok
    | ok c₁ =>
      obtain ⟨hholds, hpages, hlimits⟩ := h.addTool hadd
      obtain ⟨added, rest, rfl, hholds, hpages', hlimits', hrest⟩ := ih hholds
      rw [List.append_assoc, List.singleton_append] at hholds
      exact ⟨item :: added, rest, rfl, hholds, hpages'.trans hpages, hlimits'.trans hlimits, hrest⟩

/-- Neither the number of the pages nor the cursors are about the items. -/
lemma Holds.seen (h : c.Holds items) (pages : Nat) (cursors : List String) :
    Holds { c with pages, cursors } items :=
  ⟨h.tools, h.bytes, ⟨h.valid.nodup, h.valid.checked, h.valid.count, h.valid.bytes⟩⟩

/-- What a page leaves behind: the items before the first one that fails, and all of them if none
does. -/
structure Reads (c : Catalog) (items : List Value) (result : Value)
    (r : Except String (Option String) × Catalog) : Prop where
  read : ∃ added rest, itemsOf result = added ++ rest ∧ r.2.Holds (items ++ added) ∧
    ((∃ cursor, r.1 = .ok cursor) → rest = [])
  pages : r.2.pages = c.pages + 1
  limits : r.2.limits = c.limits
  more : ∀ next, r.1 = .ok (some next) → r.2.pages < 100

lemma Holds.afterPage (h : c.Holds items) : Reads c items result (c.afterPage result) := by
  have hstart := h.seen (c.pages + 1) c.cursors
  have hfail : ∀ {c₁ : Catalog} {added rest : List Value} (e : String),
      itemsOf result = added ++ rest → c₁.Holds (items ++ added) → c₁.pages = c.pages + 1 →
        c₁.limits = c.limits → Reads c items result (.error e, c₁) := by
    intro c₁ added rest e hitems hholds hpages hlimits
    refine ⟨⟨added, rest, hitems, hholds, ?_⟩, hpages, hlimits, ?_⟩
    · rintro ⟨cursor, hcursor⟩
      cases hcursor
    · intro next hnext
      cases hnext
  have hnone : Holds { c with pages := c.pages + 1 } (items ++ []) := by
    rw [List.append_nil]
    exact hstart
  unfold Catalog.afterPage
  dsimp only
  by_cases hpages : 100 < c.pages + 1
  · rw [if_pos hpages]
    exact hfail _ (List.nil_append _).symm hnone rfl rfl
  rw [if_neg hpages]
  cases htools : (result.get "tools").bind asArray with
  | none => exact hfail _ (List.nil_append _).symm hnone rfl rfl
  | some more =>
    have hitems : itemsOf result = more := by rw [itemsOf, htools, Option.getD_some]
    obtain ⟨added, rest, hmore, hholds, hpages₁, hlimits₁, hrest⟩ := hstart.addTools more
    dsimp only
    rcases hadd : Catalog.addTools { c with pages := c.pages + 1 } more with ⟨outcome, c₁⟩
    rw [hadd] at hholds hpages₁ hlimits₁ hrest
    cases outcome with
    | error e => exact hfail e (hitems.trans hmore) hholds hpages₁ hlimits₁
    | ok u =>
      obtain rfl := hrest rfl
      dsimp only
      cases result.get "nextCursor" with
      | none =>
        refine ⟨⟨added, [], hitems.trans hmore, hholds, fun _ => rfl⟩, hpages₁, hlimits₁, ?_⟩
        intro next hnext
        cases hnext
      | some cursor =>
        cases cursor with
        | string next =>
          dsimp only
          split
          · exact hfail _ (hitems.trans hmore) hholds hpages₁ hlimits₁
          split
          · exact hfail _ (hitems.trans hmore) (hholds.seen _ _) hpages₁ hlimits₁
          next hlast =>
          refine ⟨⟨added, [], hitems.trans hmore, hholds.seen _ _, fun _ => rfl⟩, hpages₁,
            hlimits₁, ?_⟩
          intro next' _
          show c₁.pages < 100
          have hpages' : c₁.pages = c.pages + 1 := hpages₁
          omega
        | null | bool | number | array | object =>
          exact hfail _ (hitems.trans hmore) hholds hpages₁ hlimits₁

/-- What a discovery comes to: its requests, the pages that were answered, and how many of their
items are in the catalog. -/
structure Discovers (c : Catalog) (items : List Value) (answers : List Answer) : Prop where
  requests : c.requests answers + c.pages ≤ 100
  found : ∃ (results : List Value) (tail : List Answer) (added rest : List Value), answers = results.map Answer.ok ++ tail ∧
    results.length ≤ c.requests answers ∧ results.flatMap itemsOf = added ++ rest ∧
      (c.afterDiscovery answers).Holds (items ++ added) ∧
        ∀ c', c.discover answers = .ok c' →
          c' = c.afterDiscovery answers ∧ rest = [] ∧ results.length = c.requests answers
  limits : (c.afterDiscovery answers).limits = c.limits
  pages : (c.afterDiscovery answers).pages ≤ 100

lemma Holds.stops (h : c.Holds items) (hpages : c.pages < 100) {answers : List Answer}
    (hrequests : c.requests answers ≤ 1) (hafter : c.afterDiscovery answers = c)
    (hdiscover : ∀ c', c.discover answers ≠ .ok c') : Discovers c items answers := by
  refine ⟨by omega, ⟨[], answers, [], [], rfl, Nat.zero_le _, rfl, ?_, ?_⟩, ?_, ?_⟩
  · rw [hafter, List.append_nil]
    exact h
  · intro c' hc'
    exact absurd hc' (hdiscover c')
  · rw [hafter]
  · rw [hafter]
    omega

/-- Every request is counted as a page before its answer is looked at. -/
lemma Holds.discovers (h : c.Holds items) (hpages : c.pages < 100) (answers : List Answer) :
    Discovers c items answers := by
  induction answers generalizing c items with
  | nil => exact h.stops hpages (Nat.zero_le _) rfl (by intro c' hc'; cases hc')
  | cons answer answers ih =>
    cases answer with
    | rejected | broken | unsent =>
      exact h.stops hpages (Nat.le_refl _) rfl (by intro c' hc'; cases hc')
    | ok result =>
      obtain ⟨⟨added, rest, hitems, hholds, hrest⟩, hpages₁, hlimits, hmore⟩ :=
        @Holds.afterPage c result items h
      have hpage := @page_eq c result
      rcases hafter : c.afterPage result with ⟨outcome, c₁⟩
      rw [hafter] at hholds hrest hpages₁ hlimits hmore hpage
      dsimp only at hholds hrest hpages₁ hlimits hmore hpage
      have hsingle : [result].flatMap itemsOf = added ++ rest := by
        rw [List.flatMap_singleton, hitems]
      cases outcome with
      | error e =>
        have hrequests : c.requests (.ok result :: answers) = 1 := by
          rw [Catalog.requests, hpage]
        have hdiscovery : c.afterDiscovery (.ok result :: answers) = c₁ := by
          rw [Catalog.afterDiscovery, hafter]
        refine ⟨by omega, ⟨[result], answers, added, rest, rfl, ?_, hsingle, ?_, ?_⟩, ?_, ?_⟩
        · rw [hrequests]
          rfl
        · rw [hdiscovery]
          exact hholds
        · intro c' hc'
          rw [Catalog.discover, hpage] at hc'
          cases hc'
        · rw [hdiscovery, hlimits]
        · rw [hdiscovery]
          omega
      | ok cursor =>
        obtain rfl := hrest ⟨cursor, rfl⟩
        cases cursor with
        | none =>
          have hrequests : c.requests (.ok result :: answers) = 1 := by
            rw [Catalog.requests, hpage]
          have hdiscovery : c.afterDiscovery (.ok result :: answers) = c₁ := by
            rw [Catalog.afterDiscovery, hafter]
          refine ⟨by omega, ⟨[result], answers, added, [], rfl, ?_, hsingle, ?_, ?_⟩, ?_, ?_⟩
          · rw [hrequests]
            rfl
          · rw [hdiscovery]
            exact hholds
          · intro c' hc'
            rw [Catalog.discover, hpage] at hc'
            obtain rfl := Except.ok.inj hc'
            exact ⟨hdiscovery.symm, rfl, hrequests.symm⟩
          · rw [hdiscovery, hlimits]
          · rw [hdiscovery]
            omega
        | some next =>
          have hrequests : c.requests (.ok result :: answers) = c₁.requests answers + 1 := by
            rw [Catalog.requests, hpage]
          have hdiscovery : c.afterDiscovery (.ok result :: answers) = c₁.afterDiscovery answers := by
            rw [Catalog.afterDiscovery, hafter]
          have hdiscover : c.discover (.ok result :: answers) = c₁.discover answers := by
            rw [Catalog.discover, hpage]
          obtain ⟨hcount, ⟨results, tail, added', rest', rfl, hlength, hflat, hholds', hsuccess⟩,
            hlimits', hpages'⟩ := ih hholds (hmore next rfl)
          refine ⟨by omega, ⟨result :: results, tail, added ++ added', rest', rfl, ?_, ?_, ?_, ?_⟩,
            ?_, ?_⟩
          · rw [hrequests]
            exact Nat.succ_le_succ hlength
          · rw [List.flatMap_cons, hflat, hitems, List.append_nil, List.append_assoc]
          · rw [hdiscovery, ← List.append_assoc]
            exact hholds'
          · intro c' hc'
            rw [hdiscover] at hc'
            obtain ⟨heq, hrest', hlength'⟩ := hsuccess c' hc'
            rw [hdiscovery, hrequests]
            exact ⟨heq, hrest', congrArg (· + 1) hlength'⟩
          · rw [hdiscovery, hlimits', hlimits]
          · rw [hdiscovery]
            exact hpages'

/-! ### How large a catalog can grow -/

/-- What items and the commas behind them take. -/
def weight (items : List Value) : Nat := (items.map fun item => item.compactSize + 1).sum

lemma compactSize_le_weight (items : List Value) :
    (Value.array items).compactSize ≤ weight items + 2 ∧
      weight items ≤ (Value.array items).compactSize := by
  have hweight : weight items = (items.map compactSize).sum + items.length := by
    unfold weight
    induction items with
    | nil => rfl
    | cons item items ih =>
      rw [List.map_cons, List.sum_cons, ih, List.map_cons, List.sum_cons, List.length_cons]
      omega
  rw [compactSize_array, hweight]
  unfold framing
  omega

lemma weight_append (xs ys : List Value) : weight (xs ++ ys) = weight xs + weight ys := by
  rw [weight, List.map_append, List.sum_append]
  rfl

lemma weight_itemsOf (result : Value) : weight (itemsOf result) ≤ result.compactSize := by
  unfold itemsOf
  cases htools : (result.get "tools").bind asArray with
  | none => exact Nat.zero_le _
  | some items =>
    obtain ⟨v, hget, harray⟩ := Option.bind_eq_some_iff.mp htools
    have hv : v = .array items := by
      cases v <;> first | (cases harray; rfl) | cases harray
    exact (compactSize_le_weight items).2.trans (hv ▸ compactSize_get_le hget)

lemma weight_flatMap {results : List Value} {bound : Nat}
    (h : ∀ result ∈ results, result.compactSize ≤ bound) :
    weight (results.flatMap itemsOf) ≤ results.length * bound := by
  induction results with
  | nil => exact Nat.zero_le _
  | cons result results ih =>
    have hfirst := (weight_itemsOf result).trans (h result List.mem_cons_self)
    have hrest := ih fun r hr => h r (List.mem_cons_of_mem _ hr)
    rw [List.flatMap_cons, weight_append, List.length_cons, Nat.succ_mul]
    omega

lemma Discovers.bytes_le {answers : List Answer} (h : Discovers c [] answers) {bound : Nat}
    (hbound : ∀ result, .ok result ∈ answers → result.compactSize ≤ bound) :
    (c.afterDiscovery answers).bytes ≤ 100 * bound + 2 := by
  obtain ⟨hrequests, ⟨results, tail, added, rest, rfl, hlength, hflat, hholds, -⟩, -, -⟩ := h
  have hresults : ∀ result ∈ results, result.compactSize ≤ bound := by
    intro result hresult
    exact hbound result (List.mem_append_left _ (List.mem_map_of_mem hresult))
  have hweight := weight_flatMap hresults
  rw [hflat, weight_append] at hweight
  have hadded := (compactSize_le_weight added).1
  have hmul : results.length * bound ≤ 100 * bound := Nat.mul_le_mul_right _ (by omega)
  have hbytes := hholds.bytes
  rw [List.nil_append] at hbytes
  omega

/-- A discovery makes at most 100 requests. Whatever it comes to, the catalog holds the first items
of its pages, checked and in bounds, and its counter is the length of their array; if it succeeds,
these are all items of the pages that were answered. -/
theorem discovered_catalog (limits : DiscoveryLimits) (c : Catalog) (h : new limits = .ok c)
    (answers : List Answer) :
    c.requests answers ≤ 100 ∧ (c.afterDiscovery answers).pages ≤ 100 ∧
      (∃ (results : List Value) (tail : List Answer) (added rest : List Value),
        answers = results.map Answer.ok ++ tail ∧ results.flatMap itemsOf = added ++ rest ∧
          (c.afterDiscovery answers).Holds added ∧
          ∀ c', c.discover answers = .ok c' → c' = c.afterDiscovery answers ∧ rest = [] ∧
            results.length = c.requests answers) ∧
      (c.afterDiscovery answers).tools.length ≤ min limits.maxTools 16384 ∧
      (c.afterDiscovery answers).bytes ≤ limits.maxCatalogBytes ∧
      (c.afterDiscovery answers).names.Nodup ∧
      (∀ name ∈ (c.afterDiscovery answers).names,
        Rust.trim name ≠ "" ∧ name.utf8ByteSize ≤ 200) ∧
      ((∀ result, .ok result ∈ answers → result.compactSize ≤ 2 ^ 57) →
        (c.afterDiscovery answers).bytes + 1 < 2 ^ 64) := by
  have hvalid := valid_new h
  obtain ⟨-, hnew⟩ := check_bind_eq_ok.mp h
  obtain rfl := Except.ok.inj hnew
  have hstart : Holds ⟨[], [], 2, 0, limits⟩ [] := ⟨rfl, rfl, hvalid⟩
  have hdiscovers := hstart.discovers (Nat.zero_lt_succ 99) answers
  have hbytes := @Discovers.bytes_le _ _ hdiscovers (2 ^ 57)
  obtain ⟨hrequests, ⟨results, tail, added, rest, hanswers, -, hflat, hholds, hsuccess⟩, hlimits,
    hpages⟩ := hdiscovers
  have hkept := hholds.valid
  refine ⟨hrequests, hpages, ⟨results, tail, added, rest, hanswers, hflat, hholds, hsuccess⟩, ?_, ?_,
    hkept.nodup, ?_, ?_⟩
  · have hcount := hkept.count
    rw [hlimits] at hcount
    exact hcount
  · have hle := hkept.bytes
    rw [hlimits] at hle
    exact hle
  · intro name hname
    obtain ⟨tool, htool, rfl⟩ := List.mem_map.mp hname
    have hchecked := (hkept.checked tool htool).1
    simpa [isValidToolName] using hchecked
  · intro hsizes
    have hle := hbytes hsizes
    omega

/-- A page with a tool, and then one that repeats it. -/
def toolPage (name : String) (more : List (String × Value)) : Answer :=
  .ok (.object ([("tools", .array [.object [("name", .string name),
    ("inputSchema", .object [("type", .string "object")])]])] ++ more))

theorem discovered_catalog_of_two_pages :
    (Catalog.afterDiscovery ⟨[], [], 2, 0, ⟨10, 4096⟩⟩
        [toolPage "one" [("nextCursor", .string "a")], toolPage "one" []]).tools.length ≤ 10 ∧
      (Catalog.afterDiscovery ⟨[], [], 2, 0, ⟨10, 4096⟩⟩
        [toolPage "one" [("nextCursor", .string "a")], toolPage "one" []]).names = ["one"] := by
  have hspec := discovered_catalog ⟨10, 4096⟩ ⟨[], [], 2, 0, ⟨10, 4096⟩⟩ rfl
    [toolPage "one" [("nextCursor", .string "a")], toolPage "one" []]
  exact ⟨hspec.2.2.2.1.trans (Nat.min_le_left _ _), by decide +kernel⟩

end Catalog

end Mcp
