import Mathlib.Data.List.DropRight
import Mathlib.Data.List.Infix
import Mathlib.Tactic.Common

/-!
# Paths and symbolic links

A path from the root of a file system is the list of what stands between its slashes, so it may
hold empty segments and dots, and a canonical path is one that holds names only. Resolution walks
along a path and follows each link to its target, at most a given number of times. What a walk
reports about a path it also reports about the path with its empty segments and dots left out, and
a walk along two paths in a row is a walk along the first and then one along the second.
-/

namespace Unix

abbrev Path : Type := List String

/-- What stands between the slashes of a text. -/
def segments (text : String) : Path := (text.toList.splitOn '/').map String.ofList

/-- A segment that stays where it is. -/
def isSkipped (segment : String) : Bool := segment == "" || segment == "."

def IsName (segment : String) : Prop := isSkipped segment = false ∧ segment ≠ ".."

/-! ### Components -/

inductive Component where
  | rootDir
  | curDir
  | parentDir
  | normal (name : String)
  deriving DecidableEq, Repr

/-- The components after the first segment, where a dot is none. -/
def bodyComponents (path : Path) : List Component :=
  (path.filter (!isSkipped ·)).map fun s => if s = ".." then .parentDir else .normal s

/-- The components of a text. -/
def components (text : String) : List Component :=
  match segments text with
  | [""] => []
  | "" :: rest => .rootDir :: bodyComponents rest
  | "." :: rest => .curDir :: bodyComponents rest
  | path => bodyComponents path

/-- The segments of a path that are components of it. -/
def parts (path : Path) : Path := path.filter (!isSkipped ·)

/-- A path without the segments at its ends that are no components. -/
def trim (path : Path) : Path := (path.dropWhile isSkipped).rdropWhile isSkipped

def parent (path : Path) : Option Path :=
  match path.rdropWhile isSkipped with
  | [] => none
  | s :: rest => some ((s :: rest).dropLast.rdropWhile isSkipped)

def startsWith (path base : Path) : Bool := (parts base).isPrefixOf (parts path)

/-- What is left of a path after the given components. -/
def after : Path → Path → Option Path
  | path, [] => some (trim path)
  | [], _ :: _ => none
  | s :: path, c :: cs =>
    if isSkipped s then after path (c :: cs) else if s = c then after path cs else none

def stripPrefix (path base : Path) : Option Path := after path (parts base)

/-! ### Trees -/

inductive Node where
  | dir
  | file
  | link (target : String)
  deriving DecidableEq, Repr

/-- What is at each canonical path: the root is a directory, and what has something in it is one. -/
structure Tree where
  node : Path → Option Node
  root : node [] = some .dir
  above : ∀ dir name, node (dir ++ [name]) ≠ none → node dir = some .dir
  named : ∀ dir name, node (dir ++ [name]) ≠ none → IsName name

inductive ErrorKind where
  | notFound
  | notADirectory
  | filesystemLoop
  deriving DecidableEq, Repr

namespace Tree

variable (t : Tree)

/-- A walk from a canonical path, where it is given what comes of a link and the path after it. -/
def walkWith (follow : Path → String → Path → Except ErrorKind Path) (dir : Path) :
    Path → Except ErrorKind Path
  | [] => .ok dir
  | s :: rest =>
    if t.node dir ≠ some .dir then .error .notADirectory
    else if isSkipped s = true then walkWith follow dir rest
    else if s = ".." then walkWith follow dir.dropLast rest
    else match t.node (dir ++ [s]) with
      | none => .error .notFound
      | some (.link target) => follow dir target rest
      | some _ => walkWith follow (dir ++ [s]) rest

/-- Where the target of a link in a directory starts from. -/
def origin (dir : Path) (target : String) : Path :=
  if target.toList.head? = some '/' then [] else dir

/-- Another link is followed only if there were fewer than `links`. -/
def follow : Nat → Path → String → Path → Except ErrorKind Path
  | 0, _, _, _ => .error .filesystemLoop
  | links + 1, dir, target, rest =>
    if target = "" then .error .notFound
    else t.walkWith (follow links) (origin dir target) (segments target ++ rest)

def walk (links : Nat) : Path → Path → Except ErrorKind Path := t.walkWith (t.follow links)

def canonicalize (links : Nat) (path : Path) : Except ErrorKind Path := t.walk links [] path

/-- There is no link on the path. -/
def Real (path : Path) : Prop := t.node path = some .dir ∨ t.node path = some .file

end Tree

/-! ### Parts -/

section

variable {p q r : Path} {s : String}

@[simp] lemma parts_nil : parts [] = [] := rfl

@[simp] lemma parts_append : parts (p ++ q) = parts p ++ parts q := List.filter_append ..

lemma parts_cons_of_skipped (h : isSkipped s = true) : parts (s :: p) = parts p := by
  rw [parts, List.filter_cons_of_neg (by simp [h])]
  rfl

lemma parts_cons (h : isSkipped s = false) : parts (s :: p) = s :: parts p := by
  rw [parts, List.filter_cons_of_pos (by simp [h])]
  rfl

lemma parts_eq_self (h : ∀ s ∈ p, IsName s) : parts p = p :=
  List.filter_eq_self.mpr fun s hs => by simp [(h s hs).1]

lemma parts_rdropWhile (p : Path) : parts (p.rdropWhile isSkipped) = parts p := by
  induction p using List.reverseRecOn with
  | nil => rfl
  | append_singleton p s ih =>
    by_cases hs : isSkipped s = true
    · rw [List.rdropWhile_concat_pos _ _ _ hs, ih, parts_append, parts_cons_of_skipped hs, parts_nil,
        List.append_nil]
    · rw [List.rdropWhile_concat_neg _ _ _ hs]

lemma parts_dropWhile (p : Path) : parts (p.dropWhile isSkipped) = parts p := by
  induction p with
  | nil => rfl
  | cons s p ih =>
    by_cases hs : isSkipped s = true
    · rw [List.dropWhile_cons_of_pos hs, ih, parts_cons_of_skipped hs]
    · rw [List.dropWhile_cons_of_neg hs]

@[simp] lemma parts_trim (p : Path) : parts (trim p) = parts p := by
  rw [trim, parts_rdropWhile, parts_dropWhile]

lemma trim_infix (p : Path) : trim p <:+: p :=
  (List.rdropWhile_prefix _ _).isInfix.trans (List.dropWhile_suffix _).isInfix

lemma trim_eq_nil (h : parts p = []) : trim p = [] := by
  have hskipped : ∀ s ∈ p, isSkipped s = true := by
    intro s hs
    simpa using List.filter_eq_nil_iff.mp h s hs
  rw [trim, List.dropWhile_eq_nil_iff.mpr hskipped, List.rdropWhile_nil]

lemma parts_of_parent (h : parent p = some q) : ∃ s, parts p = parts q ++ [s] := by
  unfold parent at h
  split at h
  · cases h
  · next s rest htrim =>
    obtain rfl := Option.some.inj h
    have hne : s :: rest ≠ [] := List.cons_ne_nil _ _
    have hlast : isSkipped ((s :: rest).getLast hne) = false := by
      have hnot := List.rdropWhile_last_not isSkipped p (htrim ▸ hne)
      simpa [htrim] using hnot
    refine ⟨(s :: rest).getLast hne, ?_⟩
    rw [parts_rdropWhile, ← parts_rdropWhile p, htrim]
    conv_lhs => rw [← List.dropLast_append_getLast hne]
    rw [parts_append, parts_cons hlast, parts_nil]

lemma length_of_parent (h : parent p = some q) : (parts q).length < (parts p).length := by
  obtain ⟨s, hs⟩ := parts_of_parent h
  simp [hs]

lemma after_of_parts (h : parts p = q ++ r) :
    ∃ rest, after p q = some rest ∧ parts rest = r ∧ rest <:+: p ∧ (r = [] → rest = []) := by
  induction p generalizing q with
  | nil =>
    obtain ⟨rfl, rfl⟩ := List.append_eq_nil_iff.mp h.symm
    exact ⟨[], rfl, rfl, List.infix_rfl, fun _ => rfl⟩
  | cons s p ih =>
    cases q with
    | nil =>
      refine ⟨trim (s :: p), rfl, (parts_trim _).trans h, trim_infix _, ?_⟩
      intro hr
      exact trim_eq_nil (h.trans hr)
    | cons c q =>
      by_cases hs : isSkipped s = true
      · rw [parts_cons_of_skipped hs] at h
        obtain ⟨rest, hrest, hparts, hinfix, hempty⟩ := ih h
        refine ⟨rest, ?_, hparts, hinfix.trans (List.suffix_cons _ _).isInfix, hempty⟩
        rw [after, if_pos hs, hrest]
      · rw [parts_cons (Bool.eq_false_iff.mpr hs), List.cons_append, List.cons.injEq] at h
        obtain ⟨rest, hrest, hparts, hinfix, hempty⟩ := ih h.2
        refine ⟨rest, ?_, hparts, hinfix.trans (List.suffix_cons _ _).isInfix, hempty⟩
        rw [after, if_neg hs, if_pos h.1, hrest]

lemma stripPrefix_of_parts (h : parts p = parts q ++ r) :
    ∃ rest, stripPrefix p q = some rest ∧ parts rest = r ∧ rest <:+: p ∧ (r = [] → rest = []) :=
  after_of_parts h

/-- Every part of a text is one of its components. -/
lemma mem_components {text : String} (h : s ∈ parts (segments text)) :
    (if s = ".." then Component.parentDir else .normal s) ∈ components text := by
  have hbody : ∀ path, s ∈ parts path →
      (if s = ".." then Component.parentDir else .normal s) ∈ bodyComponents path :=
    fun path hs => List.mem_map_of_mem hs
  unfold components
  split
  · next heq =>
    rw [heq] at h
    exact absurd h List.not_mem_nil
  · next rest _ heq =>
    rw [heq, parts_cons_of_skipped (by decide)] at h
    exact List.mem_cons_of_mem _ (hbody rest h)
  · next rest heq =>
    rw [heq, parts_cons_of_skipped (by decide)] at h
    exact List.mem_cons_of_mem _ (hbody rest h)
  · exact hbody _ h

end

namespace Tree

variable {t : Tree} {dir p q a : Path} {s : String} {links : Nat}

/-! ### Paths without links -/

lemma Real.node_ne_none (h : t.Real p) : t.node p ≠ none := by
  rcases h with h | h <;> rw [h] <;> exact Option.some_ne_none _

lemma real_nil : t.Real [] := .inl t.root

lemma Real.node_of_append (h : t.Real (p ++ q)) (hne : q ≠ []) : t.node p = some .dir := by
  induction q using List.reverseRecOn with
  | nil => exact absurd rfl hne
  | append_singleton q s ih =>
    have hdir : t.node (p ++ q) = some .dir :=
      t.above _ s (by rw [List.append_assoc]; exact h.node_ne_none)
    by_cases hq : q = []
    · rwa [hq, List.append_nil] at hdir
    · exact ih (.inl hdir) hq

lemma Real.left (h : t.Real (p ++ q)) : t.Real p := by
  by_cases hq : q = []
  · rwa [hq, List.append_nil] at h
  · exact .inl (h.node_of_append hq)

lemma Real.mono (h : t.Real q) (hstarts : p <+: q) : t.Real p := by
  obtain ⟨r, rfl⟩ := hstarts
  exact h.left

lemma Real.isName (h : t.Real p) : ∀ s ∈ p, IsName s := by
  intro s hs
  obtain ⟨l, r, rfl⟩ := List.append_of_mem hs
  rw [List.append_cons] at h
  exact t.named l s h.left.node_ne_none

lemma real_dropLast (h : t.node dir = some .dir) : t.node dir.dropLast = some .dir := by
  induction dir using List.reverseRecOn with
  | nil => exact h
  | append_singleton l s =>
    rw [List.dropLast_concat]
    exact t.above l s (by rw [h]; exact Option.some_ne_none _)

/-! ### Walks -/

@[simp] lemma walk_nil (links : Nat) (dir : Path) : t.walk links dir [] = .ok dir := rfl

lemma walk_cons (links : Nat) (dir : Path) (s : String) (rest : Path) :
    t.walk links dir (s :: rest) =
      if t.node dir ≠ some .dir then .error .notADirectory
      else if isSkipped s = true then t.walk links dir rest
      else if s = ".." then t.walk links dir.dropLast rest
      else match t.node (dir ++ [s]) with
        | none => .error .notFound
        | some (.link target) => t.follow links dir target rest
        | some _ => t.walk links (dir ++ [s]) rest := rfl

lemma follow_succ (links : Nat) (dir : Path) (target : String) (rest : Path) :
    t.follow (links + 1) dir target rest =
      if target = "" then .error .notFound
      else t.walk links (origin dir target) (segments target ++ rest) := rfl

lemma walk_of_not_dir (h : t.node dir ≠ some .dir) : t.walk links dir (s :: p) =
    .error .notADirectory := by
  rw [walk_cons, if_pos h]

lemma walk_skipped (h : t.node dir = some .dir) (hs : isSkipped s = true) :
    t.walk links dir (s :: p) = t.walk links dir p := by
  rw [walk_cons, if_neg (not_not.mpr h), if_pos hs]

/-- A step of a walk: it fails, goes on in some directory, or follows a link. -/
inductive Stepped (t : Tree) (dir : Path) (s : String) : Prop where
  | failed (e : ErrorKind)
      (h : ∀ links rest, t.walk links dir (s :: rest) = .error e)
  | moved (next : Path) (hreal : t.Real next)
      (h : ∀ links rest, t.walk links dir (s :: rest) = t.walk links next rest)
  | linked (target : String)
      (h : ∀ links rest, t.walk links dir (s :: rest) = t.follow links dir target rest)

/-- What a step does depends neither on the links left nor on the path left. -/
lemma stepped (t : Tree) (dir : Path) (s : String) : Stepped t dir s := by
  by_cases hdir : t.node dir = some .dir
  · by_cases hs : isSkipped s = true
    · exact .moved dir (.inl hdir) fun _ _ => walk_skipped hdir hs
    · by_cases hup : s = ".."
      · refine .moved dir.dropLast (.inl (real_dropLast hdir)) fun _ _ => ?_
        rw [walk_cons, if_neg (not_not.mpr hdir), if_neg hs, if_pos hup]
      · have hstep := fun links rest => (walk_cons links dir s rest).trans
          ((if_neg (not_not.mpr hdir)).trans ((if_neg hs).trans (if_neg hup)))
        cases hnode : t.node (dir ++ [s]) with
        | none => exact .failed .notFound fun links rest => by rw [hstep, hnode]
        | some node =>
          cases node with
          | dir => exact .moved _ (.inl hnode) fun links rest => by rw [hstep, hnode]
          | file => exact .moved _ (.inr hnode) fun links rest => by rw [hstep, hnode]
          | link target => exact .linked target fun links rest => by rw [hstep, hnode]
  · exact .failed .notADirectory fun _ _ => walk_of_not_dir hdir

/-- A walk along two paths in a row. -/
lemma walk_append (t : Tree) (links : Nat) (dir p : Path) :
    (∃ e, t.walk links dir p = .error e ∧ ∀ q, t.walk links dir (p ++ q) = .error e) ∨
      ∃ a left, t.walk links dir p = .ok a ∧ left ≤ links ∧
        ∀ q, t.walk links dir (p ++ q) = t.walk left a q := by
  induction links generalizing dir p with
  | zero =>
    induction p generalizing dir with
    | nil => exact .inr ⟨dir, 0, rfl, Nat.le_refl _, fun _ => rfl⟩
    | cons s p ih =>
      cases stepped t dir s with
      | failed e h => exact .inl ⟨e, h _ _, fun q => h _ (p ++ q)⟩
      | moved next _ h =>
        simp only [List.cons_append, h]
        exact ih next
      | linked target h => exact .inl ⟨.filesystemLoop, h _ _, fun q => h _ (p ++ q)⟩
  | succ links ihlinks =>
    induction p generalizing dir with
    | nil => exact .inr ⟨dir, links + 1, rfl, Nat.le_refl _, fun _ => rfl⟩
    | cons s p ih =>
      cases stepped t dir s with
      | failed e h => exact .inl ⟨e, h _ _, fun q => h _ (p ++ q)⟩
      | moved next _ h =>
        simp only [List.cons_append, h]
        exact ih next
      | linked target h =>
        simp only [List.cons_append, h, follow_succ]
        by_cases htarget : target = ""
        · simp only [if_pos htarget]
          exact .inl ⟨.notFound, rfl, fun _ => rfl⟩
        · simp only [if_neg htarget, ← List.append_assoc]
          rcases ihlinks (origin dir target) (segments target ++ p) with
            herror | ⟨a, left, hok, hle, hall⟩
          · exact .inl herror
          · exact .inr ⟨a, left, hok, Nat.le_succ_of_le hle, hall⟩

lemma walk_append_of_ok (h : t.walk links dir p = .ok a) :
    ∃ left ≤ links, ∀ q, t.walk links dir (p ++ q) = t.walk left a q := by
  rcases walk_append t links dir p with ⟨e, herror, -⟩ | ⟨a', left, hok, hle, hall⟩
  · rw [h] at herror
    cases herror
  · obtain rfl := Except.ok.inj (h.symm.trans hok)
    exact ⟨left, hle, hall⟩

/-- What does not come of too many links comes of more links as well. -/
lemma walk_mono {more : Nat} (hle : links ≤ more)
    (h : t.walk links dir p ≠ .error .filesystemLoop) :
    t.walk more dir p = t.walk links dir p := by
  induction links generalizing more dir p with
  | zero =>
    induction p generalizing dir with
    | nil => rfl
    | cons s p ih =>
      cases stepped t dir s with
      | failed e hstep => rw [hstep, hstep]
      | moved next _ hstep =>
        rw [hstep] at h ⊢
        rw [hstep]
        exact ih h
      | linked target hstep => exact absurd (hstep 0 p) h
  | succ links ihlinks =>
    obtain ⟨more, rfl⟩ := Nat.exists_eq_add_of_lt (Nat.lt_of_succ_le hle)
    induction p generalizing dir with
    | nil => rfl
    | cons s p ih =>
      cases stepped t dir s with
      | failed e hstep => rw [hstep, hstep]
      | moved next _ hstep =>
        rw [hstep] at h ⊢
        rw [hstep]
        exact ih h
      | linked target hstep =>
        rw [hstep, follow_succ] at h ⊢
        rw [hstep, follow_succ]
        by_cases htarget : target = ""
        · rw [if_pos htarget, if_pos htarget]
        · rw [if_neg htarget] at h ⊢
          rw [if_neg htarget]
          exact ihlinks (Nat.le_add_right _ _) h

/-- A walk along the parts of a path: the other segments only ask for a directory. -/
lemma walk_parts (t : Tree) (links : Nat) (dir p : Path) :
    t.walk links dir p = .error .notADirectory ∨
      t.walk links dir (parts p) = t.walk links dir p := by
  induction p generalizing links dir with
  | nil => exact .inr rfl
  | cons s p ih =>
    by_cases hs : isSkipped s = true
    · rw [parts_cons_of_skipped hs]
      by_cases hdir : t.node dir = some .dir
      · rw [walk_skipped hdir hs]
        exact ih links dir
      · exact .inl (walk_of_not_dir hdir)
    · rw [parts_cons (Bool.eq_false_iff.mpr hs), ← List.singleton_append (l := p),
        ← List.singleton_append (l := parts p)]
      rcases walk_append t links dir [s] with ⟨e, -, hall⟩ | ⟨a, left, -, -, hall⟩
      · exact .inr ((hall _).trans (hall _).symm)
      · rw [hall, hall]
        exact ih left a

/-- A walk ends on a path without links. -/
lemma real_of_walk (hdir : t.Real dir) (h : t.walk links dir p = .ok a) : t.Real a := by
  induction links generalizing dir p with
  | zero =>
    induction p generalizing dir with
    | nil => exact Except.ok.inj h ▸ hdir
    | cons s p ih =>
      cases stepped t dir s with
      | failed e hstep => rw [hstep] at h; cases h
      | moved next hreal hstep => exact ih hreal (hstep _ _ ▸ h)
      | linked target hstep => rw [hstep] at h; cases h
  | succ links ihlinks =>
    induction p generalizing dir with
    | nil => exact Except.ok.inj h ▸ hdir
    | cons s p ih =>
      cases stepped t dir s with
      | failed e hstep => rw [hstep] at h; cases h
      | moved next hreal hstep => exact ih hreal (hstep _ _ ▸ h)
      | linked target hstep =>
        rw [hstep, follow_succ] at h
        split at h
        · cases h
        · refine ihlinks ?_ h
          unfold origin
          split
          · exact real_nil
          · exact hdir

/-- A walk along a path without links passes it as it is. -/
lemma walk_append_of_real (h : t.Real (dir ++ p)) (q : Path) :
    t.walk links dir (p ++ q) = t.walk links (dir ++ p) q := by
  induction p generalizing dir with
  | nil => rw [List.nil_append, List.append_nil]
  | cons s p ih =>
    have hdir := h.node_of_append (List.cons_ne_nil s p)
    obtain ⟨hs, hup⟩ := h.isName s (List.mem_append_right _ List.mem_cons_self)
    rw [List.append_cons] at h ⊢
    rw [List.cons_append, walk_cons, if_neg (not_not.mpr hdir), if_neg (by simp [hs]), if_neg hup]
    rcases h.left with hnode | hnode <;> rw [hnode] <;> exact ih h

/-! ### Canonical paths -/

lemma real_of_canonicalize (h : t.canonicalize links p = .ok a) : t.Real a :=
  real_of_walk real_nil h

lemma canonicalize_of_real (h : t.Real p) (links : Nat) : t.canonicalize links p = .ok p := by
  have hwalk : t.walk links [] (p ++ []) = t.walk links p [] := walk_append_of_real h []
  rwa [List.append_nil] at hwalk

lemma canonicalize_parts_of_ok (h : t.canonicalize links p = .ok a) :
    t.canonicalize links (parts p) = .ok a := by
  rcases walk_parts t links [] p with herror | heq
  · cases herror.symm.trans h
  · exact heq.trans h

lemma canonicalize_parts_of_notFound (h : t.canonicalize links p = .error .notFound) :
    t.canonicalize links (parts p) = .error .notFound := by
  rcases walk_parts t links [] p with herror | heq
  · cases herror.symm.trans h
  · exact heq.trans h

end Tree

end Unix
