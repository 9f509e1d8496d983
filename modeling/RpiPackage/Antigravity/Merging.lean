import RpiPackage.Antigravity.Schema
import RpiPackage.Lib.Assoc

/-!
# What is rewritten lies within the schema

A merged schema has each key once, and the values of it that are rewritten lie within the schema.
So the rewriting of an object is that of the values within it.
-/

namespace Antigravity.Schema

open Json Json.Value

variable {p : Platform} {convert convert' : Value → Value} {options : Options} {v schema : Value}
  {fields input result : Fields} {f : String × Value} {m m' : Merged} {key : String} {value : Value}

lemma foldlM_keeps {α β : Type} {P : β → Prop} {step : β → α → Option β} {xs : List α}
    (hstep : ∀ b b', ∀ x ∈ xs, P b → step b x = some b' → P b') {b b' : β} (hb : P b)
    (h : xs.foldlM step b = some b') : P b' := by
  induction xs generalizing b with
  | nil => exact Option.some.inj h ▸ hb
  | cons x xs ih =>
    rw [List.foldlM_cons] at h
    obtain ⟨b₁, hx, h⟩ := Option.bind_eq_some_iff.mp h
    exact ih (fun b b' x hx => hstep b b' x (List.mem_cons_of_mem _ hx))
      (hstep _ _ x List.mem_cons_self hb hx) h

lemma foldl_keeps {α β : Type} {P : β → Prop} {step : β → α → β} {xs : List α}
    (hstep : ∀ b, ∀ x ∈ xs, P b → P (step b x)) {b : β} (hb : P b) : P (xs.foldl step b) := by
  induction xs generalizing b with
  | nil => exact hb
  | cons x xs ih =>
    exact ih (fun b x hx => hstep b x (List.mem_cons_of_mem _ hx)) (hstep b x List.mem_cons_self hb)

lemma part_of_mem_entries (h : f ∈ entries v) : Part f.2 v := by
  cases v with
  | array xs =>
    obtain ⟨x, hx, rfl⟩ := List.mem_map.mp h
    exact .item (List.fst_mem_of_mem_zipIdx hx)
  | object fields => exact .field ((Script.entries_perm fields).mem_iff.mp h)
  | null | bool | number | string => cases h

/-! ### Merged schemas -/

/-- A field whose values to be rewritten lie within a schema. -/
structure Drawn (schema : Value) (f : String × Value) : Prop where
  items : f.1 = "items" → Within f.2 schema
  parts : f.1 = "properties" ∨ f.1 = "anyOf" ∨ f.1 = "oneOf" → ∀ v, Part v f.2 → Within v schema

lemma Drawn.of_within (h : Within f.2 schema) : Drawn schema f :=
  ⟨fun _ => h, fun _ _ hpart => .head hpart h⟩

lemma Drawn.of_key (hitems : key ≠ "items")
    (hparts : ¬(key = "properties" ∨ key = "anyOf" ∨ key = "oneOf")) : Drawn schema (key, value) :=
  ⟨fun h => absurd h hitems, fun h => absurd h hparts⟩

/-- Fields that are drawn from a schema, each key once. -/
structure AllDrawn (schema : Value) (fields : Fields) : Prop where
  drawn : ∀ f ∈ fields, Drawn schema f
  nodup : (fields.map Prod.fst).Nodup

lemma AllDrawn.setField (h : AllDrawn schema fields) (hf : Drawn schema (key, value)) :
    AllDrawn schema (setField fields key value) :=
  ⟨forall_setField h.drawn hf, nodup_setField h.nodup⟩

lemma AllDrawn.addMetadata (h : AllDrawn schema fields) (hf : Drawn schema f) :
    AllDrawn schema (addMetadata fields f) := by
  rw [Schema.addMetadata]
  split
  · exact h
  · exact h.setField hf

lemma AllDrawn.extend {more : Fields} (h : AllDrawn schema fields) (hmore : ∀ f ∈ more, Drawn schema f) :
    AllDrawn schema (extend fields more) := by
  apply foldl_keeps _ h
  intro fields f hf hfields
  exact hfields.setField (hmore f hf)

lemma AllDrawn.remove (h : AllDrawn schema fields) (key : String) : AllDrawn schema (remove fields key) := by
  refine ⟨fun f hf => h.drawn f (List.mem_of_mem_filter hf), ?_⟩
  exact h.nodup.sublist (List.filter_sublist.map _)

structure Merged.Drawn (schema : Value) (m : Merged) : Prop where
  properties : ∀ f ∈ m.properties, Within f.2 schema
  metadata : AllDrawn schema m.metadata

lemma addProperty_within {properties properties' : Fields} (h : ∀ f ∈ properties, Within f.2 schema)
    (hf : Within f.2 schema) (hadd : addProperty properties f = some properties') :
    ∀ f ∈ properties', Within f.2 schema := by
  rw [addProperty] at hadd
  split at hadd
  · exact Option.some.inj hadd ▸ h
  · split at hadd
    · cases hadd
    · exact Option.some.inj hadd ▸ forall_setField h hf

lemma Merged.Drawn.mergeBranch (h : m.Drawn schema) (hbranch : ∀ x, Part x v → Within x schema)
    (hmerge : mergeBranch p m v = some m') : m'.Drawn schema := by
  cases v with
  | object branch =>
    rw [Schema.mergeBranch] at hmerge
    split at hmerge
    · cases hmerge
    · obtain ⟨properties, hproperties, rfl⟩ := Option.map_eq_some_iff.mp hmerge
      constructor
      · refine foldlM_keeps (fun b b' f hf hb hadd => addProperty_within hb ?_ hadd) h.properties hproperties
        cases hlookup : branch.lookup "properties" with
        | none =>
          rw [hlookup] at hf
          cases hf
        | some value =>
          rw [hlookup] at hf
          exact .head (part_of_mem_entries hf) (hbranch value (.field (Assoc.mem_of_lookup hlookup)))
      · refine foldl_keeps (fun metadata f hf hm => hm.addMetadata (.of_within ?_)) h.metadata
        exact hbranch f.2 (.field ((Script.entries_perm branch).mem_iff.mp hf))
  | null | bool | number | string | array => cases hmerge

lemma Merged.Drawn.allDrawn (h : m.Drawn schema) : AllDrawn schema m.fields := by
  have hproperties : Schema.Drawn schema ("properties", .object m.properties) := by
    refine ⟨fun hkey => absurd hkey (show "properties" ≠ "items" by decide), fun _ v hv => ?_⟩
    cases hv with
    | field hf => exact h.properties _ hf
  have htype : Schema.Drawn schema ("type", .string "object") := .of_key (by decide) (by decide)
  have hbase := (h.metadata.setField htype).setField hproperties
  have hrequired : AllDrawn schema (if m.required.isEmpty then
      setField (setField m.metadata "type" (.string "object")) "properties" (.object m.properties)
      else setField (setField (setField m.metadata "type" (.string "object")) "properties"
        (.object m.properties)) "required" (.array (m.required.map Value.string))) := by
    split
    · exact hbase
    · exact hbase.setField (.of_key (by decide) (by decide))
  rw [Merged.fields]
  split
  · exact hrequired
  · exact hrequired.setField (.of_key (by decide) (by decide))

/-- What is to be rewritten of a merged schema lies within the schema. -/
lemma drawn_mergeAllOf (hnodup : (fields.map Prod.fst).Nodup) :
    AllDrawn (.object fields) (mergeAllOf p fields).1 := by
  have hfields : AllDrawn (.object fields) fields :=
    ⟨fun f hf => .of_within (.single (.field hf)), hnodup⟩
  rw [mergeAllOf]
  split
  · exact hfields
  · rename_i branches hbranches
    obtain ⟨allOf, hlookup, hallOf⟩ := Option.bind_eq_some_iff.mp hbranches
    obtain rfl := asArray_eq_some.mp hallOf
    have hwithin : ∀ branch ∈ branches, Within branch (.object fields) := fun branch hbranch =>
      .head (.item hbranch) (.single (.field (Assoc.mem_of_lookup hlookup)))
    have hbase := hfields.remove "allOf"
    dsimp only
    split
    · rename_i m hm
      split at hm
      · cases hm
      · have hm : m.Drawn (.object fields) := by
          have hempty : (⟨[], [], [], []⟩ : Merged).Drawn (.object fields) :=
            ⟨by simp, ⟨by simp, List.nodup_nil⟩⟩
          refine foldlM_keeps (fun m m' branch hbranch hm hmerge => ?_) hempty hm
          refine hm.mergeBranch (fun x hx => ?_) hmerge
          rcases List.mem_cons.mp hbranch with rfl | hbranch
          · cases hx with
            | field hf => exact .single (.field (List.mem_of_mem_filter hf))
          · exact .head hx (hwithin branch hbranch)
        exact hm.allDrawn
    · have hmerged : AllDrawn (.object fields)
          (extend (remove fields "allOf") ((branches.head?.bind asObject).getD [])) := by
        apply hbase.extend
        intro f hf
        cases hfirst : branches.head?.bind asObject with
        | none =>
          rw [hfirst] at hf
          exact absurd hf List.not_mem_nil
        | some first =>
          rw [hfirst] at hf
          obtain ⟨v, hv, hobject⟩ := Option.bind_eq_some_iff.mp hfirst
          cases v with
          | object branch =>
            obtain rfl := Option.some.inj hobject
            exact .of_within (.head (.field hf) (hwithin _ (List.mem_of_mem_head? hv)))
          | null | bool | number | string | array => cases hobject
      split
      · exact hmerged.setField (.of_key (by decide) (by decide))
      · exact hmerged

/-! ### The recursion -/

lemma keep_congr (hdrawn : Drawn schema (key, value))
    (h : ∀ v, Within v schema → convert v = convert' v) :
    keep p convert input result key value = keep p convert' input result key value := by
  have hproperties : key = "properties" →
      ((entries value).filter fun f => f.1 != "__proto__").map (fun f => (f.1, convert f.2)) =
        ((entries value).filter fun f => f.1 != "__proto__").map fun f => (f.1, convert' f.2) := by
    intro hkey
    apply List.map_congr_left
    intro f hf
    rw [h f.2 (hdrawn.parts (.inl hkey) f.2 (part_of_mem_entries (List.mem_of_mem_filter hf)))]
  have hunion : ∀ xs, value = .array xs → key = "anyOf" → xs.map convert = xs.map convert' := by
    rintro xs rfl hkey
    exact List.map_congr_left fun x hx => h x (hdrawn.parts (.inr (.inl hkey)) x (.item hx))
  unfold keep
  by_cases htype : (key == "type") = true
  · simp only [if_pos htype]
  by_cases hobject : (key == "properties" && (value.isObject || isArray value)) = true
  · simp only [if_neg htype, if_pos hobject]
    rw [Bool.and_eq_true, beq_iff_eq] at hobject
    rw [hproperties hobject.1]
  by_cases hitems : (key == "items" && (value.isObject || isArray value || value.isNull)) = true
  · simp only [if_neg htype, if_neg hobject, if_pos hitems]
    rw [Bool.and_eq_true, beq_iff_eq] at hitems
    rw [h value (hdrawn.items hitems.1)]
  simp only [if_neg htype, if_neg hobject, if_neg hitems]
  cases value with
  | array xs =>
    by_cases hany : (key == "anyOf") = true
    · simp only [if_pos hany, hunion xs rfl (beq_iff_eq.mp hany)]
    · simp only [if_neg hany]
  | null | bool | number | string | object => rfl

lemma outcome_congr (hdrawn : Drawn schema (key, value))
    (h : ∀ v, Within v schema → convert v = convert' v) :
    outcome p convert options input result key value =
      outcome p convert' options input result key value := by
  have hunion : ∀ xs, (if key == "oneOf" then value.asArray else none) = some xs →
      xs.map convert = xs.map convert' := by
    intro xs hxs
    split at hxs
    · rename_i hkey
      obtain rfl := asArray_eq_some.mp hxs
      exact List.map_congr_left fun x hx =>
        h x (hdrawn.parts (.inr (.inr (beq_iff_eq.mp hkey))) x (.item hx))
    · cases hxs
  unfold outcome
  rw [keep_congr hdrawn h]
  cases hxs : (if key == "oneOf" then value.asArray else none) with
  | none => rfl
  | some xs => simp only [hunion xs hxs]

lemma convertObject_congr (hnodup : (fields.map Prod.fst).Nodup)
    (h : ∀ v, Within v (.object fields) → convert v = convert' v) :
    convertObject p convert options fields = convertObject p convert' options fields := by
  have hcollect : ∀ hints, collect p convert options (mergeAllOf p fields).1 hints =
      collect p convert' options (mergeAllOf p fields).1 hints := by
    intro hints
    apply List.foldl_ext
    intro s f hf
    have hdrawn := (drawn_mergeAllOf hnodup).drawn f ((Script.entries_perm _).mem_iff.mp hf)
    rw [step, step, outcome_congr hdrawn h]
  rw [convertObject, convertObject]
  simp only [hcollect]

/-- The rewriting of an object is that of the values within it. -/
theorem toGeminiSchema_object (hnodup : (fields.map Prod.fst).Nodup) :
    toGeminiSchema p options (.object fields) =
      .object (convertObject p (toGeminiSchema p options) options fields) := by
  rw [toGeminiSchema]
  congr 1
  apply convertObject_congr hnodup
  intro v hv
  rw [dif_pos hv.size_lt]

lemma toGeminiSchema_of_not_object (h : v.isObject = false) : toGeminiSchema p options v = v := by
  cases v with
  | object fields => cases h
  | null | bool | number | string | array => rw [toGeminiSchema]; simp

end Antigravity.Schema
