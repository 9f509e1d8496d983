import RpiPackage.Antigravity.Merging

/-!
# The subset that schemas are rewritten into

Every field of a rewritten schema comes from a field of the merged schema in one of a few ways. By
induction over the values within a schema, every object that is reached from its rewriting is in the
subset.
-/

namespace Antigravity.Schema

open Json Json.Value

variable {p : Platform} {convert : Value → Value} {options : Options} {v schema : Value}
  {fields input result node : Fields} {f : String × Value} {key : String} {value : Value}
  {hints : List String}

/-! ### Types -/

lemma join_toString {cs : List Char} (h : ∀ c ∈ cs, p.toUppercase c = c.toString) :
    (String.join (cs.map p.toUppercase)).toList = cs := by
  rw [String.toList_join]
  induction cs with
  | nil => rfl
  | cons c cs ih =>
    rw [List.map_cons, List.flatMap_cons, ih fun d hd => h d (List.mem_cons_of_mem _ hd),
      h c List.mem_cons_self]
    simp

/-- What is in upper case stays as it is. -/
lemma uppercase_uppercase (s : String) : p.uppercase (p.uppercase s) = p.uppercase s := by
  apply String.toList_inj.mp
  apply join_toString
  intro c hc
  rw [Platform.uppercase, String.toList_join] at hc
  obtain ⟨text, htext, hc⟩ := List.mem_flatMap.mp hc
  obtain ⟨d, -, rfl⟩ := List.mem_map.mp htext
  exact p.uppercase_stable d c hc

lemma uppercase_of_ascii {s : String} (h : s.toList.all fun c => c.toNat < 128 && c.toUpper == c) :
    p.uppercase s = s := by
  apply String.toList_inj.mp
  apply join_toString
  intro c hc
  have hgood := List.all_eq_true.mp h c hc
  rw [Bool.and_eq_true, decide_eq_true_eq, beq_iff_eq] at hgood
  rw [p.uppercase_ascii c hgood.1, hgood.2]

/-! ### What a field becomes -/

/-- The fields of the result that a field of the merged schema becomes. -/
inductive Becomes (p : Platform) (convert : Value → Value) (options : Options) (input : Fields)
    (key : String) (value : Value) : String → Value → Prop
  | constant (s : String) : Becomes p convert options input key value "enum" (.array [.string s])
  | bound {lower : Bool} (hkey : key = inclusive lower ∨ key = exclusive lower) (x : Rat) :
    Becomes p convert options input key value (inclusive lower) (finiteNumber p x)
  | union {xs : List Value} (hkey : key = "oneOf" ∨ key = "anyOf") (hvalue : value = .array xs) :
    Becomes p convert options input key value "anyOf" (.array (xs.map convert))
  | type (name : String) :
    Becomes p convert options input key value "type" (.string (p.uppercase name))
  | untyped (h : ∀ s, value ≠ .string s) : Becomes p convert options input key value "type" value
  | properties (hkey : key = "properties") :
    Becomes p convert options input key value "properties" (.object
      (((entries value).filter fun f => f.1 != "__proto__").map fun f => (f.1, convert f.2)))
  | items (hkey : key = "items") : Becomes p convert options input key value "items" (convert value)
  | required (xs : List Value) : Becomes p convert options input key value "required"
      (.array (xs.filter fun x => x.asStr.any (propertyNames input).contains))
  | other (hallowed : allowed key = true)
    (hkept : options.claudeValidated = true → key ≠ "title" ∧ told key = false)
    (htype : key ≠ "type") (hproperties : key = "properties" → value.isObject = false)
    (hitems : key = "items" → value.isObject = false) (hunion : key = "anyOf" → isArray value = false)
    (hrequired : key = "required" → isArray value = true → propertyNames input = []) :
    Becomes p convert options input key value key value

lemma becomes_of_keep (hallowed : allowed key = true)
    (hkept : options.claudeValidated = true → key ≠ "title" ∧ told key = false)
    (h : keep p convert input result key value = (hints, some f)) :
    Becomes p convert options input key value f.1 f.2 := by
  unfold keep at h
  by_cases htype : (key == "type") = true
  · obtain rfl := beq_iff_eq.mp htype
    simp only [if_pos htype] at h
    split at h
    · cases h
      exact .type _
    · rename_i hname
      split at h
      · cases h
      · cases h
        refine .untyped fun s hs => ?_
        rw [show value = .string s from hs] at hname
        cases hname
  by_cases hobject : (key == "properties" && (value.isObject || isArray value)) = true
  · simp only [if_neg htype, if_pos hobject] at h
    rw [Bool.and_eq_true, beq_iff_eq] at hobject
    obtain ⟨rfl, -⟩ := hobject
    cases h
    exact .properties rfl
  by_cases hitems : (key == "items" && (value.isObject || isArray value || value.isNull)) = true
  · simp only [if_neg htype, if_neg hobject, if_pos hitems] at h
    rw [Bool.and_eq_true, beq_iff_eq] at hitems
    obtain ⟨rfl, -⟩ := hitems
    cases h
    exact .items rfl
  simp only [if_neg htype, if_neg hobject, if_neg hitems] at h
  have hother : (key = "anyOf" → isArray value = false) →
      (key = "required" → isArray value = true → propertyNames input = []) →
      Becomes p convert options input key value key value := by
    intro hunion hrequired
    refine .other hallowed hkept (by simpa using htype) ?_ ?_ hunion hrequired
    · rintro rfl
      rw [Bool.and_eq_true, Bool.or_eq_true] at hobject
      simpa using fun hobj => hobject ⟨by decide, .inl hobj⟩
    · rintro rfl
      rw [Bool.and_eq_true, Bool.or_eq_true, Bool.or_eq_true] at hitems
      simpa using fun hobj => hitems ⟨by decide, .inl (.inl hobj)⟩
  split at h
  · rename_i xs
    split at h
    · rename_i hkey
      obtain rfl := beq_iff_eq.mp hkey
      cases h
      exact .union (.inr rfl) rfl
    · rename_i hany
      have hany : key ≠ "anyOf" := by simpa using hany
      split at h
      · rename_i hkey
        obtain rfl := beq_iff_eq.mp hkey
        split at h
        · split at h
          · cases h
          · cases h
            exact hother (fun hkey => absurd hkey hany) fun hkey => absurd hkey (by decide)
        · cases h
      · split at h
        · rename_i hrequired
          rw [Bool.and_eq_true, beq_iff_eq] at hrequired
          obtain ⟨rfl, -⟩ := hrequired
          split at h
          · cases h
          · cases h
            exact .required xs
        · rename_i hrequired
          cases h
          refine hother (fun hkey => absurd hkey hany) ?_
          rintro rfl -
          simpa using hrequired
  · rename_i hvalue
    have harray : isArray value = false := by
      cases value with
      | array xs => exact absurd rfl (hvalue xs)
      | null | bool | number | string | object => rfl
    have hplain := hother (fun _ => harray) fun _ h => absurd (harray.symm.trans h) (by decide)
    split at h
    · rename_i hbound
      split at h
      · cases h
        rcases Bool.or_eq_true _ _ ▸ hbound with hkey | hkey
        · obtain rfl := beq_iff_eq.mp hkey
          exact .bound (show "minimum" = inclusive true ∨ _ from .inl rfl) _
        · obtain rfl := beq_iff_eq.mp hkey
          exact .bound (show "maximum" = inclusive false ∨ _ from .inl rfl) _
      · cases h
        exact hplain
    · cases h
      exact hplain

lemma isExclusive_iff : isExclusive key = true ↔ key = exclusive (key == "exclusiveMinimum") := by
  rw [isExclusive, Bool.or_eq_true, beq_iff_eq, beq_iff_eq]
  by_cases hkey : key = "exclusiveMinimum"
  · simp [hkey, exclusive]
  · simp [hkey, exclusive]

lemma bound_of_includedBound (h : includedBound p options input key value = some f) :
    ∃ lower x, key = exclusive lower ∧ f = (inclusive lower, finiteNumber p x) := by
  unfold includedBound at h
  split at h
  · rename_i hexclusive
    rw [Bool.and_eq_true, Bool.and_eq_true] at hexclusive
    obtain ⟨q, -, h⟩ := Option.bind_eq_some_iff.mp h
    dsimp only at h
    split at h
    · cases h
      exact ⟨_, _, isExclusive_iff.mp hexclusive.1.1, rfl⟩
    · cases h
  · cases h

/-- A field of the result comes from a field of the merged schema in one of these ways. -/
lemma becomes_of_outcome (h : outcome p convert options input result key value = (hints, some f)) :
    Becomes p convert options input key value f.1 f.2 := by
  unfold outcome at h
  split at h
  · cases h
  · rename_i htitle
    split at h
    · cases h
    · split at h
      · cases h
      · rename_i htold
        split at h
        · split at h
          · cases h
            exact .constant _
          · cases h
        · split at h
          · rename_i hbound
            cases h
            obtain ⟨lower, x, hkey, rfl⟩ := bound_of_includedBound hbound
            exact .bound (.inr hkey) x
          · split at h
            · cases h
            · split at h
              · rename_i xs hxs
                split at hxs
                · rename_i hkey
                  obtain rfl := asArray_eq_some.mp hxs
                  split at h
                  · cases h
                  · cases h
                    exact .union (.inl (beq_iff_eq.mp hkey)) rfl
                · cases hxs
              · split at h
                · rename_i hallowed
                  refine becomes_of_keep hallowed (fun hclaude => ?_) h
                  rw [hclaude] at htitle htold
                  exact ⟨by simpa using htitle, by simpa using htold⟩
                · cases h

/-! ### The subset -/

/-- A field of the subset. -/
structure FieldInSubset (p : Platform) (options : Options) (f : String × Value) : Prop where
  allowed : allowed f.1 = true
  kept : options.claudeValidated = true → f.1 ≠ "title" ∧ told f.1 = false
  upper : f.1 = "type" → ∀ s, f.2 = .string s → p.uppercase s = s

/-- The names that are required are properties. Where nothing checks the narrowed schema again, this
needs a property, and the setter that is no property may be required. -/
def RequiresProperties (options : Options) (node : Fields) : Prop :=
  ∀ properties names, node.lookup "properties" = some (.object properties) →
    node.lookup "required" = some (.array names) →
    (options.claudeValidated = false → properties ≠ []) → ∀ name ∈ names, ∃ s, name = .string s ∧
      (s ∈ properties.map Prod.fst ∨ (options.claudeValidated = false ∧ s = "__proto__"))

/-- An object of the subset. -/
structure InSubset (p : Platform) (options : Options) (node : Fields) : Prop where
  fields : ∀ f ∈ node, FieldInSubset p options f
  items : node.lookup "type" = some (.string "ARRAY") → (node.lookup "items").any truthy = true
  required : RequiresProperties options node
  union : options.claudeValidated = true → ∀ xs, ("anyOf", Value.array xs) ∈ node → xs = []

/-- The schemas in a field of a schema. -/
inductive Child (f : String × Value) : Value → Prop
  | property {fields : Fields} {g : String × Value} (hkey : f.1 = "properties")
    (hvalue : f.2 = .object fields) (hg : g ∈ fields) : Child f g.2
  | items (hkey : f.1 = "items") : Child f f.2
  | branch {x : Value} {xs : List Value} (hkey : f.1 = "anyOf") (hvalue : f.2 = .array xs)
    (hx : x ∈ xs) : Child f x

/-- The objects that are reached from a schema. -/
inductive Reaches : Value → Fields → Prop
  | here (node : Fields) : Reaches (.object node) node
  | step {node node' : Fields} {f : String × Value} {v : Value} (hf : f ∈ node) (hv : Child f v)
    (h : Reaches v node') : Reaches (.object node) node'

/-- A schema all of whose objects are in the subset. -/
def Converted (p : Platform) (options : Options) (v : Value) : Prop :=
  ∀ node, Reaches v node → InSubset p options node

lemma Converted.of_not_object (h : v.isObject = false) : Converted p options v := by
  intro node hnode
  cases hnode <;> cases h

/-- A field of the subset whose schemas are converted. -/
structure Sound (p : Platform) (options : Options) (f : String × Value) : Prop where
  field : FieldInSubset p options f
  children : ∀ v, Child f v → Converted p options v

/-- A field whose name has no schemas in it. -/
lemma Sound.of_key (hallowed : allowed key = true) (hkept : key ≠ "title" ∧ told key = false)
    (htype : key ≠ "type") (hchild : key ≠ "properties" ∧ key ≠ "items" ∧ key ≠ "anyOf") :
    Sound p options (key, value) := by
  refine ⟨⟨hallowed, fun _ => hkept, fun h => absurd h htype⟩, fun v hv => ?_⟩
  cases hv with
  | property hkey => exact absurd hkey hchild.1
  | items hkey => exact absurd hkey hchild.2.1
  | branch hkey => exact absurd hkey hchild.2.2

lemma Sound.of_type (h : ∀ s, value = .string s → p.uppercase s = s) :
    Sound p options ("type", value) := by
  refine ⟨⟨rfl, fun _ => ⟨show "type" ≠ "title" by decide, rfl⟩, fun _ => h⟩, fun v hv => ?_⟩
  cases hv with
  | property hkey => exact absurd hkey (show "type" ≠ "properties" by decide)
  | items hkey => exact absurd hkey (show "type" ≠ "items" by decide)
  | branch hkey => exact absurd hkey (show "type" ≠ "anyOf" by decide)

lemma Sound.of_becomes (hdrawn : Drawn schema (key, value))
    (hconvert : ∀ v, Within v schema → Converted p options (convert v))
    (h : Becomes p convert options input key value f.1 f.2) : Sound p options f := by
  obtain ⟨key', value'⟩ := f
  cases h with
  | constant s => exact .of_key rfl ⟨by decide, rfl⟩ (by decide) (by decide)
  | @bound lower _ x =>
    cases lower
    · exact .of_key rfl ⟨by decide, rfl⟩ (by decide) (by decide)
    · exact .of_key rfl ⟨by decide, rfl⟩ (by decide) (by decide)
  | @union xs hkey hvalue =>
    refine ⟨⟨rfl, fun _ => ⟨show "anyOf" ≠ "title" by decide, rfl⟩,
      fun h => absurd h (show "anyOf" ≠ "type" by decide)⟩, fun v hv => ?_⟩
    cases hv with
    | property h => exact absurd h (show "anyOf" ≠ "properties" by decide)
    | items h => exact absurd h (show "anyOf" ≠ "items" by decide)
    | branch _ hxs hx =>
      obtain rfl := Value.array.inj hxs
      obtain ⟨x, hmem, rfl⟩ := List.mem_map.mp hx
      exact hconvert x (hdrawn.parts (.inr hkey.symm) x (hvalue ▸ .item hmem))
  | type name => exact .of_type fun s hs => Value.string.inj hs ▸ uppercase_uppercase name
  | untyped h => exact .of_type fun s hs => absurd hs (h s)
  | properties hkey =>
    refine ⟨⟨rfl, fun _ => ⟨show "properties" ≠ "title" by decide, rfl⟩,
      fun h => absurd h (show "properties" ≠ "type" by decide)⟩, fun v hv => ?_⟩
    cases hv with
    | property _ hfields hg =>
      obtain rfl := Value.object.inj hfields
      obtain ⟨g, hmem, rfl⟩ := List.mem_map.mp hg
      have hpart : Part g.2 value := part_of_mem_entries (List.mem_of_mem_filter hmem)
      exact hconvert g.2 (hdrawn.parts (.inl hkey) g.2 hpart)
    | items h => exact absurd h (show "properties" ≠ "items" by decide)
    | branch h => exact absurd h (show "properties" ≠ "anyOf" by decide)
  | items hkey =>
    refine ⟨⟨rfl, fun _ => ⟨show "items" ≠ "title" by decide, rfl⟩,
      fun h => absurd h (show "items" ≠ "type" by decide)⟩, fun v hv => ?_⟩
    cases hv with
    | property h => exact absurd h (show "items" ≠ "properties" by decide)
    | items => exact hconvert value (hdrawn.items hkey)
    | branch h => exact absurd h (show "items" ≠ "anyOf" by decide)
  | required xs => exact .of_key rfl ⟨by decide, rfl⟩ (by decide) (by decide)
  | other hallowed hkept htype hproperties hitems hunion hrequired =>
    refine ⟨⟨hallowed, hkept, fun h => absurd h htype⟩, fun v hv => ?_⟩
    cases hv with
    | property hkey hvalue =>
      obtain rfl : value' = _ := hvalue
      cases hproperties hkey
    | items hkey => exact .of_not_object (hitems hkey)
    | branch hkey hvalue =>
      obtain rfl : value' = _ := hvalue
      cases hunion hkey

/-- A field that fits the names of the properties. -/
structure Named (names : List String) (f : String × Value) : Prop where
  required : f.1 = "required" → names ≠ [] → ∀ xs, f.2 = .array xs →
    ∀ x ∈ xs, ∃ s, x = .string s ∧ s ∈ names
  properties : f.1 = "properties" → ∀ fields, f.2 = .object fields →
    fields.map Prod.fst = names.filter (· != "__proto__")

lemma Named.of_key {names : List String} (hrequired : key ≠ "required") (hproperties : key ≠ "properties") :
    Named names (key, value) :=
  ⟨fun h => absurd h hrequired, fun h => absurd h hproperties⟩

lemma Named.of_becomes (hmem : (key, value) ∈ input) (hnodup : (input.map Prod.fst).Nodup)
    (h : Becomes p convert options input key value f.1 f.2) : Named (propertyNames input) f := by
  obtain ⟨key', value'⟩ := f
  cases h with
  | constant | union | type | untyped | items =>
    exact .of_key (by decide) (by decide)
  | @bound lower => cases lower <;> exact .of_key (by decide) (by decide)
  | properties hkey =>
    refine ⟨fun h => absurd h (show "properties" ≠ "required" by decide), fun _ fields hfields => ?_⟩
    obtain rfl := Value.object.inj hfields
    obtain rfl := hkey
    rw [propertyNames, index, get_object, lookup_of_mem hnodup hmem, List.map_map, Option.getD_some,
      List.filter_map]
    rfl
  | required xs =>
    refine ⟨fun _ _ ys hys x hx => ?_, fun h => absurd h (show "required" ≠ "properties" by decide)⟩
    obtain rfl := Value.array.inj hys
    have hx := (List.mem_filter.mp hx).2
    cases hs : x.asStr with
    | none =>
      rw [hs] at hx
      cases hx
    | some s =>
      rw [hs] at hx
      exact ⟨s, asStr_eq_some.mp hs, by simpa using hx⟩
  | other hallowed hkept htype hproperties hitems hunion hrequired =>
    refine ⟨?_, ?_⟩
    · rintro rfl hne xs rfl
      exact absurd (hrequired rfl rfl) hne
    · rintro rfl fields rfl
      cases hproperties rfl

/-! ### Narrowed unions -/

lemma mem_remove : f ∈ remove fields key ↔ f ∈ fields ∧ f.1 ≠ key := by
  rw [remove, List.mem_filter, bne_iff_ne]

lemma lookup_remove : (remove fields key).lookup key = none := by
  rw [List.lookup_eq_none_iff]
  intro f hf
  simpa using (mem_remove.mp hf).2.symm

lemma mem_extend {more : Fields} (h : f ∈ extend fields more) : f ∈ fields ∨ f ∈ more := by
  induction more generalizing fields with
  | nil => exact .inl h
  | cons g more ih =>
    rcases ih h with h | h
    · rcases mem_of_mem_setField h with rfl | h
      · exact .inr List.mem_cons_self
      · exact .inl h
    · exact .inr (List.mem_cons_of_mem _ h)

lemma select_mem (first : Fields) (branches : List Fields) : select p first branches ∈ first :: branches := by
  induction branches generalizing first with
  | nil => exact List.mem_cons_self
  | cons branch branches ih =>
    rw [select, List.foldl_cons]
    split
    · exact List.mem_cons_of_mem _ (ih branch)
    · rcases List.mem_cons.mp (ih first) with h | h
      · rw [select] at h
        rw [h]
        exact List.mem_cons_self
      · exact List.mem_cons_of_mem _ (List.mem_cons_of_mem _ h)

/-- Fields of the subset without a union. -/
structure Narrowed (p : Platform) (options : Options) (fields : Fields) : Prop where
  sound : ∀ f ∈ fields, Sound p options f
  union : ∀ xs, ("anyOf", Value.array xs) ∈ fields → xs = []

lemma Narrowed.setField (h : Narrowed p options fields) (hf : Sound p options (key, value))
    (hkey : key ≠ "anyOf") : Narrowed p options (setField fields key value) := by
  refine ⟨forall_setField h.sound hf, fun xs hxs => ?_⟩
  rcases mem_of_mem_setField hxs with heq | hmem
  · exact absurd (Prod.mk.inj heq).1.symm hkey
  · exact h.union xs hmem

lemma Narrowed.remove (h : Narrowed p options fields) (key : String) :
    Narrowed p options (remove fields key) :=
  ⟨fun f hf => h.sound f (mem_remove.mp hf).1, fun xs hxs => h.union xs (mem_remove.mp hxs).1⟩

/-- The branches of a union are narrowed themselves. -/
lemma narrowed_branch {branch : Fields} {any : List Value} (hclaude : options.claudeValidated = true)
    (h : ∀ f ∈ fields, Sound p options f) (hany : fields.lookup "anyOf" = some (.array any))
    (hbranch : Value.object branch ∈ any) : Narrowed p options branch := by
  have hconverted : Converted p options (.object branch) :=
    (h _ (Assoc.mem_of_lookup hany)).children _ (.branch rfl rfl hbranch)
  have hsubset := hconverted branch (.here branch)
  refine ⟨fun f hf => ⟨hsubset.fields f hf, fun v hv => ?_⟩, hsubset.union hclaude⟩
  intro node hnode
  exact hconverted node (.step hf hv hnode)

lemma narrowed_narrow {base selected : Fields} (hbase : Narrowed p options base)
    (hselected : Narrowed p options selected) : Narrowed p options (narrow base selected) := by
  have hmerged : Narrowed p options (extend base selected) := by
    refine ⟨fun f hf => ?_, fun xs hxs => ?_⟩
    · rcases mem_extend hf with hf | hf
      · exact hbase.sound f hf
      · exact hselected.sound f hf
    · rcases mem_extend hxs with hxs | hxs
      · exact hbase.union xs hxs
      · exact hselected.union xs hxs
  rw [narrow]
  split
  · exact hmerged
  · exact hmerged.setField (.of_key rfl ⟨by decide, rfl⟩ (by decide) (by decide)) (by decide)

lemma narrowed_flattenUnion (hclaude : options.claudeValidated = true)
    (h : ∀ f ∈ fields, Sound p options f) (hnodup : (fields.map Prod.fst).Nodup) :
    Narrowed p options (flattenUnion p fields).1 := by
  have hbase : Narrowed p options (remove fields "anyOf") :=
    ⟨fun f hf => h f (mem_remove.mp hf).1, fun xs hxs => absurd rfl (mem_remove.mp hxs).2⟩
  rw [flattenUnion]
  split
  · rename_i hnone
    refine ⟨h, fun xs hxs => ?_⟩
    rw [lookup_of_mem hnodup hxs] at hnone
    cases xs with
    | nil => rfl
    | cons x xs => simp at hnone
  · rename_i any hany
    obtain ⟨hbind, -⟩ := Option.filter_eq_some_iff.mp hany
    obtain ⟨v, hlookup, hv⟩ := Option.bind_eq_some_iff.mp hbind
    obtain rfl := asArray_eq_some.mp hv
    dsimp only
    split
    · exact hbase
    · rename_i first rest hbranches
      split
      · have htype : Sound p options ("type", .string "STRING") :=
          .of_type fun s hs => by
            obtain rfl := Value.string.inj hs
            exact uppercase_of_ascii (by decide)
        exact (hbase.setField htype (by decide)).setField
          (.of_key rfl ⟨by decide, rfl⟩ (by decide) (by decide)) (by decide)
      · refine narrowed_narrow hbase ?_
        have hmem := select_mem (p := p) first rest
        rw [← hbranches] at hmem
        obtain ⟨x, hx, hobject⟩ := List.mem_filterMap.mp hmem
        cases x with
        | object branch =>
          obtain rfl := Option.some.inj hobject
          exact narrowed_branch hclaude h hlookup hx
        | null | bool | number | string | array => cases hobject

/-! ### Required names -/

lemma RequiresProperties.setField (h : RequiresProperties options fields) (hrequired : key ≠ "required")
    (hproperties : key ≠ "properties") : RequiresProperties options (setField fields key value) := by
  intro properties names hp hn
  rw [lookup_setField, if_neg hproperties.symm] at hp
  rw [lookup_setField, if_neg hrequired.symm] at hn
  exact h properties names hp hn

lemma RequiresProperties.of_named {names : List String} (hfalse : options.claudeValidated = false)
    (h : ∀ f ∈ fields, Named names f) : RequiresProperties options fields := by
  intro properties required hp hr hne name hname
  have hkeys := (h _ (Assoc.mem_of_lookup hp)).properties rfl properties rfl
  have hnames : names ≠ [] := by
    rintro rfl
    exact hne hfalse (List.map_eq_nil_iff.mp hkeys)
  obtain ⟨s, rfl, hs⟩ := (h _ (Assoc.mem_of_lookup hr)).required rfl hnames required rfl name hname
  refine ⟨s, rfl, ?_⟩
  rw [hkeys, List.mem_filter]
  by_cases hproto : s = "__proto__"
  · exact .inr ⟨hfalse, hproto⟩
  · exact .inl ⟨hs, by simpa using hproto⟩

lemma lookup_remove_of_ne {key' : String} (h : key' ≠ key) :
    (remove fields key).lookup key' = fields.lookup key' :=
  Assoc.lookup_erase_of_ne h fields

lemma restrictRequired_spec (fields : Fields) : RequiresProperties options (restrictRequired fields) := by
  intro properties names hp hn _ name hname
  rw [restrictRequired] at hp hn
  split at hn
  · rename_i properties' required hproperties hrequired
    simp only [hproperties, hrequired] at hp
    dsimp only at hn
    split at hn
    · rw [lookup_remove] at hn
      cases hn
    · rename_i hempty
      rw [if_neg hempty, lookup_setField, if_neg (by decide)] at hp
      rw [lookup_setField, if_pos rfl] at hn
      rw [hp] at hproperties
      obtain rfl := Option.some.inj hproperties
      obtain rfl := Value.array.inj (Option.some.inj hn)
      have hcontains := (List.mem_filter.mp hname).2
      cases hs : name.asStr with
      | none =>
        rw [hs] at hcontains
        cases hcontains
      | some s =>
        rw [hs] at hcontains
        exact ⟨s, asStr_eq_some.mp hs, .inl (by simpa using hcontains)⟩
  · rename_i hnone
    split at hp
    · rename_i properties' required hproperties hrequired
      exact absurd hrequired (hnone _ _ hproperties)
    · exact absurd (show (fields.lookup "required").bind asArray = some names by rw [hn]; rfl)
        (hnone properties names (by rw [hp]; rfl))

lemma Narrowed.restrictRequired (h : Narrowed p options fields) :
    Narrowed p options (restrictRequired fields) := by
  rw [Schema.restrictRequired]
  split
  · dsimp only
    split
    · exact h.remove "required"
    · exact h.setField (.of_key rfl ⟨by decide, rfl⟩ (by decide) (by decide)) (by decide)
  · exact h

/-! ### Rewritten schemas -/

/-- Fields of the subset, but for the items of an array. -/
structure Almost (p : Platform) (options : Options) (fields : Fields) : Prop where
  sound : ∀ f ∈ fields, Sound p options f
  required : RequiresProperties options fields
  union : options.claudeValidated = true → ∀ xs, ("anyOf", Value.array xs) ∈ fields → xs = []

lemma Almost.setField (h : Almost p options fields) (hf : Sound p options (key, value))
    (hrequired : key ≠ "required") (hproperties : key ≠ "properties") (hunion : key ≠ "anyOf") :
    Almost p options (setField fields key value) := by
  refine ⟨forall_setField h.sound hf, h.required.setField hrequired hproperties, fun hclaude xs hxs => ?_⟩
  rcases mem_of_mem_setField hxs with heq | hmem
  · exact absurd (Prod.mk.inj heq).1.symm hunion
  · exact h.union hclaude xs hmem

lemma Almost.addHints (h : Almost p options fields) (hints : List String) :
    Almost p options (addHints fields hints) := by
  rw [Schema.addHints]
  split
  · exact h
  · exact h.setField (.of_key rfl ⟨by decide, rfl⟩ (by decide) (by decide)) (by decide) (by decide) (by decide)

/-- Whatever is reached from fields of the subset is in the subset. -/
lemma converted_object (hsound : ∀ f ∈ fields, Sound p options f) (h : InSubset p options fields) :
    Converted p options (.object fields) := by
  intro node hnode
  cases hnode with
  | here => exact h
  | step hf hv hnode => exact (hsound _ hf).children _ hv node hnode

lemma converted_items : Converted p options (.object [("type", .string "STRING")]) := by
  have hsound : ∀ f ∈ [("type", Value.string "STRING")], Sound p options f := by
    intro f hf
    obtain rfl := List.mem_singleton.mp hf
    refine .of_type fun s hs => ?_
    obtain rfl := Value.string.inj hs
    exact uppercase_of_ascii (by decide)
  apply converted_object hsound
  refine ⟨fun f hf => (hsound f hf).field, fun h => ?_, fun _ _ h => ?_, fun _ xs hxs => ?_⟩
  · exact absurd (Value.string.inj (Option.some.inj h)) (by decide)
  · cases h
  · exact absurd (List.mem_singleton.mp hxs) (by simp)

lemma Almost.addItems (h : Almost p options fields) : Converted p options (.object (addItems fields)) := by
  have hitems : Sound p options ("items", .object [("type", .string "STRING")]) := by
    refine ⟨⟨rfl, fun _ => ⟨show "items" ≠ "title" by decide, rfl⟩,
      fun h => absurd h (show "items" ≠ "type" by decide)⟩, fun v hv => ?_⟩
    cases hv with
    | property h => exact absurd h (show "items" ≠ "properties" by decide)
    | items => exact converted_items
    | branch h => exact absurd h (show "items" ≠ "anyOf" by decide)
  rw [Schema.addItems]
  split
  · have hset := h.setField hitems (by decide) (by decide) (by decide)
    apply converted_object hset.sound
    refine ⟨fun f hf => (hset.sound f hf).field, fun _ => ?_, hset.required, hset.union⟩
    rw [lookup_setField, if_pos rfl]
    rfl
  · rename_i hno
    apply converted_object h.sound
    refine ⟨fun f hf => (h.sound f hf).field, fun htype => ?_, h.required, h.union⟩
    rw [htype] at hno
    simpa using hno

/-- Every field of the result comes from a field of the merged schema. -/
lemma collect_becomes (input : Fields) (hints : List String) :
    (∀ f ∈ (collect p convert options input hints).1, ∃ g ∈ input,
      Becomes p convert options input g.1 g.2 f.1 f.2) ∧
      ((collect p convert options input hints).1.map Prod.fst).Nodup := by
  have hkeeps : ∀ s : Fields × List String, ∀ g ∈ Script.entries input,
      (∀ f ∈ s.1, ∃ g ∈ input, Becomes p convert options input g.1 g.2 f.1 f.2) ∧
        (s.1.map Prod.fst).Nodup →
      (∀ f ∈ (step p convert options input s g).1, ∃ g ∈ input,
        Becomes p convert options input g.1 g.2 f.1 f.2) ∧
        ((step p convert options input s g).1.map Prod.fst).Nodup := by
    rintro s g hg ⟨hs, hs'⟩
    rw [step]
    cases houtcome : outcome p convert options input s.1 g.1 g.2 with
    | mk hints assigned =>
      cases assigned with
      | none => exact ⟨hs, hs'⟩
      | some f =>
        refine ⟨forall_setField hs ⟨g, ?_, becomes_of_outcome houtcome⟩, nodup_setField hs'⟩
        exact (Script.entries_perm input).mem_iff.mp hg
  exact foldl_keeps (P := fun s : Fields × List String =>
    (∀ f ∈ s.1, ∃ g ∈ input, Becomes p convert options input g.1 g.2 f.1 f.2) ∧
      (s.1.map Prod.fst).Nodup) hkeeps ⟨fun f hf => absurd hf List.not_mem_nil, List.nodup_nil⟩

lemma collect_spec (hnodup : (fields.map Prod.fst).Nodup)
    (hconvert : ∀ v, Within v (.object fields) → Converted p options (convert v)) (hints : List String) :
    ∀ f ∈ (collect p convert options (mergeAllOf p fields).1 hints).1,
      Sound p options f ∧ Named (propertyNames (mergeAllOf p fields).1) f := by
  intro f hf
  have hinput := drawn_mergeAllOf (p := p) hnodup
  obtain ⟨g, hg, hbecomes⟩ := (collect_becomes _ hints).1 f hf
  exact ⟨.of_becomes (hinput.drawn g hg) hconvert hbecomes, .of_becomes hg hinput.nodup hbecomes⟩

lemma converted_convertObject (hnodup : (fields.map Prod.fst).Nodup)
    (hconvert : ∀ v, Within v (.object fields) → Converted p options (convert v)) :
    Converted p options (.object (convertObject p convert options fields)) := by
  have hfields := collect_spec hnodup hconvert (mergeAllOf p fields).2
  rw [convertObject]
  dsimp only
  apply Almost.addItems
  apply Almost.addHints
  cases hclaude : options.claudeValidated with
  | false =>
    exact ⟨fun f hf => (hfields f hf).1, .of_named hclaude fun f hf => (hfields f hf).2,
      fun h => absurd (hclaude.symm.trans h) (by decide)⟩
  | true =>
    have hnarrowed := (narrowed_flattenUnion hclaude (fun f hf => (hfields f hf).1)
      (collect_becomes _ _).2).restrictRequired
    exact ⟨hnarrowed.sound, restrictRequired_spec _, fun _ => hnarrowed.union⟩

/-- Every object that is reached from a rewritten schema is in the subset. -/
lemma converted_toGeminiSchema (hproper : v.Proper fun _ => True) :
    Converted p options (toGeminiSchema p options v) := by
  induction hsize : v.size using Nat.strong_induction_on generalizing v with
  | h n ih =>
    cases v with
    | object fields =>
      rw [toGeminiSchema_object hproper.1]
      apply converted_convertObject hproper.1
      intro w hw
      exact ih w.size (hsize ▸ hw.size_lt) (hw.proper hproper) rfl
    | null | bool | number | string | array =>
      rw [toGeminiSchema_of_not_object rfl]
      exact .of_not_object rfl

end Antigravity.Schema
