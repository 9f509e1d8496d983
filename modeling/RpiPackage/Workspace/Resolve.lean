import RpiPackage.Lib.Rust
import RpiPackage.Lib.Unix
import RpiPackage.Reply

/-!
# Paths of a project

How a path that a client names becomes a path of the file system: its components are checked as
they are written, and what its nearest existing ancestor resolves to is checked again. Of a
project only the root is read here.
-/

namespace Workspace

open Service Unix

structure Project where
  root : Path
  named : ∀ s ∈ root, IsName s

inductive OpenError where
  | io (kind : ErrorKind)
  | invalidInput (message : String)
  deriving DecidableEq, Repr

def Project.new (t : Tree) (links : Nat) (path : Path) : Except OpenError Project :=
  match h : t.canonicalize links path with
  | .error kind => .error (.io kind)
  | .ok root =>
    if t.node root = some .dir then .ok ⟨root, (Tree.real_of_canonicalize h).isName⟩
    else .error (.invalidInput "project must be a directory")

def hidden (name : String) : Bool :=
  [".git", ".rpi", "node_modules", "target", ".deploy"].any (Rust.eqIgnoreAsciiCase name) ||
    ".env".toList.isPrefixOf (name.toList.map Char.toLower)

def browsable : Component → Bool
  | .normal name => !hidden name
  | _ => false

def isHidden : Component → Bool
  | .normal name => hidden name
  | _ => false

/-- A reply, or an `unwrap` that fails. -/
inductive Failure where
  | refused (error : ServiceError)
  | panicked

def leaves : Failure := .refused (failure .accessDenied "path leaves the project")

def outside : Failure :=
  .refused (failure .accessDenied "path is outside the browsable project")

/-- The canonical target of an ancestor is checked, and what follows the ancestor is put behind it. -/
def rejoin (root joined ancestor actual : Path) : Except Failure Path :=
  if startsWith actual root = false then .error leaves
  else match stripPrefix actual root with
    | none => .error .panicked
    | some inside =>
      if (bodyComponents inside).any isHidden = true then .error outside
      else match stripPrefix joined ancestor with
        | none => .error .panicked
        | some remainder => .ok (if remainder = [] then actual else actual ++ remainder)

/-- The loop over the ancestors of a path, from the path itself upwards. -/
def nearest (t : Tree) (links : Nat) (root joined ancestor : Path) : Except Failure Path :=
  match t.canonicalize links ancestor with
  | .ok actual => rejoin root joined ancestor actual
  | .error .notFound =>
    match h : parent ancestor with
    | none => .error (.refused (failure .notFound "path not found"))
    | some up => nearest t links root joined up
  | .error _ => .error (.refused (failure .accessDenied "path is not accessible"))
termination_by (parts ancestor).length
decreasing_by exact length_of_parent h

def resolve (t : Tree) (links : Nat) (root : Path) (relative : String) : Except Failure Path :=
  if relative.toList.any (fun c => c == '\\' || c == '\x00' || c == ':') = true then
    .error (.refused (failure .invalidInput "invalid project path"))
  else if (components relative).all browsable = false then .error outside
  else nearest t links root (root ++ segments relative) (root ++ segments relative)

/-- A path that lies under a root, without a parent component, and shows nothing hidden there. -/
structure Confined (root path : Path) : Prop where
  under : root <+: path
  noParent : ".." ∉ path
  shown : ∀ name ∈ parts (path.drop root.length), hidden name = false

section

variable {t : Tree} {links : Nat} {root joined ancestor actual path base rest : Path}

lemma isHidden_normal {s : String} (h : s ≠ "..") :
    isHidden (if s = ".." then Component.parentDir else .normal s) = hidden s := by
  rw [if_neg h]
  rfl

lemma hidden_of_all {text : String} (h : (components text).all browsable = true) {s : String}
    (hs : s ∈ parts (segments text)) : s ≠ ".." ∧ hidden s = false := by
  have hbrowsable := List.all_eq_true.mp h _ (mem_components hs)
  by_cases hup : s = ".."
  · rw [if_pos hup] at hbrowsable
    cases hbrowsable
  · rw [if_neg hup] at hbrowsable
    exact ⟨hup, by simpa [browsable] using hbrowsable⟩

/-- A reply is no panic and gives no path out. -/
lemma refused_spec (error : ServiceError) (P : Path → Prop) :
    (Except.error (.refused error) : Except Failure Path) ≠ .error .panicked ∧
      ∀ path, (Except.error (.refused error) : Except Failure Path) = .ok path → P path := by
  constructor
  · intro h
    cases h
  · intro path h
    cases h

/-- An ancestor of a path with the canonical form it has, below which the path stops to exist. -/
structure Nearest (t : Tree) (links : Nat) (joined base rest actual : Path) : Prop where
  split : parts joined = base ++ rest
  resolves : t.canonicalize links base = .ok actual
  missing : ∀ s below, rest = s :: below → t.canonicalize links (base ++ [s]) = .error .notFound

/-- The canonical form of an ancestor with the rest of a path behind it. -/
structure Rejoined (root joined rest actual path : Path) : Prop where
  under : root <+: actual
  shown : ∀ name ∈ actual.drop root.length, hidden name = false
  path : ∃ remainder, path = actual ++ remainder ∧ parts remainder = rest ∧
    remainder <:+: joined ∧ (rest = [] → remainder = [])

/-- What is checked of an existing ancestor; nothing is left to go wrong in it. -/
lemma rejoin_spec (hroot : ∀ s ∈ root, IsName s) (hreal : t.Real actual)
    (hsplit : parts joined = parts ancestor ++ rest) :
    rejoin root joined ancestor actual ≠ .error .panicked ∧
      ∀ path, rejoin root joined ancestor actual = .ok path →
        Rejoined root joined rest actual path := by
  have hactual : parts actual = actual := parts_eq_self hreal.isName
  unfold rejoin
  by_cases hstarts : startsWith actual root = false
  · rw [if_pos hstarts]
    exact refused_spec _ _
  · rw [if_neg hstarts]
    have hunder : root <+: actual := by
      rw [Bool.not_eq_false, startsWith, List.isPrefixOf_iff_prefix, hactual,
        parts_eq_self hroot] at hstarts
      exact hstarts
    obtain ⟨below, rfl⟩ := hunder
    have hinside : parts (root ++ below) = parts root ++ below := by
      rw [hactual, parts_eq_self hroot]
    obtain ⟨inside, hstrip, hparts, -, -⟩ := stripPrefix_of_parts hinside
    obtain ⟨remainder, hremainder, hrest, hinfix, hempty⟩ := stripPrefix_of_parts hsplit
    simp only [hstrip, hremainder]
    by_cases hhidden : (bodyComponents inside).any isHidden = true
    · rw [if_pos hhidden]
      exact refused_spec _ _
    · rw [if_neg hhidden]
      refine ⟨?_, ?_⟩
      · intro h
        cases h
      · intro path h
        have hpath := (Except.ok.inj h).symm
        refine ⟨List.prefix_append _ _, ?_, remainder, ?_, hrest, hinfix, hempty⟩
        · rw [List.drop_left]
          intro name hname
          have hname' : name ∈ parts inside := hparts ▸ hname
          have hup := (hreal.isName name (List.mem_append_right _ hname)).2
          have hany := List.any_eq_false.mp (Bool.eq_false_iff.mpr hhidden) _
            (List.mem_map_of_mem hname')
          rw [isHidden_normal hup] at hany
          exact Bool.eq_false_iff.mpr hany
        · rw [hpath]
          split
          · next hnil => rw [hnil, List.append_nil]
          · rfl

/-- The loop stops at the nearest ancestor that resolves, or at an error. -/
lemma nearest_spec (hroot : ∀ s ∈ root, IsName s) (hsplit : parts joined = parts ancestor ++ rest)
    (hmissing : ∀ s below, rest = s :: below →
      t.canonicalize links (parts ancestor ++ [s]) = .error .notFound) :
    nearest t links root joined ancestor ≠ .error .panicked ∧
      ∀ path, nearest t links root joined ancestor = .ok path →
        ∃ base rest actual, Nearest t links joined base rest actual ∧
          Rejoined root joined rest actual path := by
  induction ancestor using (measure fun p => (parts p).length).wf.induction generalizing rest with
  | _ ancestor ih =>
  rw [nearest]
  split
  · next actual hok =>
    obtain ⟨hpanic, hpath⟩ := rejoin_spec hroot (Tree.real_of_canonicalize hok) hsplit
    refine ⟨hpanic, fun path h => ⟨parts ancestor, rest, actual, ⟨hsplit, ?_, hmissing⟩, hpath path h⟩⟩
    exact Tree.canonicalize_parts_of_ok hok
  · next hnotFound =>
    split
    · exact refused_spec _ _
    · next up hup =>
      obtain ⟨s, hs⟩ := parts_of_parent hup
      have hup' : parts joined = parts up ++ s :: rest := by
        rw [hsplit, hs, List.append_assoc, List.singleton_append]
      refine ih up (length_of_parent hup) hup' fun s' below hbelow => ?_
      obtain ⟨rfl, -⟩ := List.cons.inj hbelow
      rw [← hs]
      exact Tree.canonicalize_parts_of_notFound hnotFound
  · exact refused_spec _ _

/-- No ancestor above a root that exists is the nearest one. -/
lemma Nearest.root_prefix (h : Nearest t links joined base rest actual) (hunder : root <+: actual)
    (hjoined : root <+: parts joined) : root <+: base := by
  have hreal : t.Real root := (Tree.real_of_canonicalize h.resolves).mono hunder
  rw [h.split] at hjoined
  rcases List.prefix_or_prefix_of_prefix hjoined (List.prefix_append base rest) with hle | hle
  · exact hle
  · obtain ⟨below, rfl⟩ := hle
    cases below with
    | nil => rw [List.append_nil]
    | cons s below =>
      -- the step below the base is on the root, so it is not missing
      obtain ⟨rest', rfl⟩ := (List.prefix_append_right_inj base).mp hjoined
      have hmissing := h.missing s _ rfl
      rw [List.append_cons] at hreal
      rw [Tree.canonicalize_of_real hreal.left] at hmissing
      cases hmissing

/-- A path below which nothing was found does not resolve, with any number of links. -/
lemma Nearest.canonicalize (h : Nearest t links joined base rest actual)
    (hr : Rejoined root joined rest actual path) (more : Nat) {canonical : Path}
    (hok : t.canonicalize more path = .ok canonical) : canonical = actual := by
  have hreal := Tree.real_of_canonicalize h.resolves
  obtain ⟨remainder, rfl, hrest, -, hempty⟩ := hr.path
  cases rest with
  | nil =>
    rw [hempty rfl, List.append_nil, Tree.canonicalize_of_real hreal] at hok
    exact (Except.ok.inj hok).symm
  | cons s below =>
    obtain ⟨left, -, hall⟩ := Tree.walk_append_of_ok h.resolves
    have hleft : t.walk left actual [s] = .error .notFound :=
      (hall [s]).symm.trans (h.missing s below rfl)
    have hparts := Tree.canonicalize_parts_of_ok hok
    rw [parts_append, hrest, parts_eq_self hreal.isName] at hparts
    have hwalk : t.walk more [] (actual ++ s :: below) = t.walk more actual (s :: below) :=
      Tree.walk_append_of_real hreal (s :: below)
    rw [Tree.canonicalize, hwalk, ← List.singleton_append] at hparts
    -- with enough links for both walks, the missing part would be there
    rcases Tree.walk_append t more actual [s] with ⟨e, -, hall'⟩ | ⟨a, _, hfound, -⟩
    · rw [hall'] at hparts
      cases hparts
    · have hmore : t.walk (max more left) actual [s] = t.walk more actual [s] := by
        apply Tree.walk_mono (Nat.le_max_left more left)
        rw [hfound]
        exact fun h => nomatch h
      have hless : t.walk (max more left) actual [s] = t.walk left actual [s] := by
        apply Tree.walk_mono (Nat.le_max_right more left)
        rw [hleft]
        exact fun h => nomatch h
      rw [hmore, hfound, hleft] at hless
      cases hless

lemma Rejoined.confined (h : Rejoined root joined rest actual path) (hreal : t.Real actual)
    (hrest : ∀ s ∈ rest, s ≠ ".." ∧ hidden s = false) : Confined root path := by
  obtain ⟨remainder, rfl, hparts, -, -⟩ := h.path
  obtain ⟨below, rfl⟩ := h.under
  have hshown := h.shown
  rw [List.drop_left] at hshown
  constructor
  · rw [List.append_assoc]
    exact List.prefix_append _ _
  · intro hup
    rcases List.mem_append.mp hup with hup | hup
    · exact (hreal.isName _ hup).2 rfl
    · have hpart : ".." ∈ parts remainder := List.mem_filter.mpr ⟨hup, rfl⟩
      exact (hrest _ (hparts ▸ hpart)).1 rfl
  · intro name hname
    rw [List.append_assoc, List.drop_left, parts_append] at hname
    rcases List.mem_append.mp hname with hname | hname
    · exact hshown name (List.mem_filter.mp hname).1
    · exact (hrest name (hparts ▸ hname)).2

end

/-- A path that is given out stays in the project, and so does what it resolves to in the same
tree. The loop always ends with a reply, as each ancestor has fewer components than the last. -/
theorem resolve_confined (t : Tree) (links : Nat) (project : Project) (relative : String) :
    resolve t links project.root relative ≠ .error .panicked ∧
      ∀ path, resolve t links project.root relative = .ok path →
        Confined project.root path ∧
          ∀ more actual, t.canonicalize more path = .ok actual → Confined project.root actual := by
  have hroot := project.named
  unfold resolve
  split
  · exact refused_spec _ _
  · split
    · exact refused_spec _ _
    · next hbrowsable =>
      rw [Bool.not_eq_false] at hbrowsable
      obtain ⟨hpanic, hpath⟩ := @nearest_spec t links project.root (project.root ++ segments relative)
        (project.root ++ segments relative) [] hroot (List.append_nil _).symm
        (fun s below h => by cases h)
      refine ⟨hpanic, fun path h => ?_⟩
      obtain ⟨base, rest, actual, hnearest, hrejoined⟩ := hpath path h
      have hreal := Tree.real_of_canonicalize hnearest.resolves
      have hjoined : parts (project.root ++ segments relative) =
          project.root ++ parts (segments relative) := by
        rw [parts_append, parts_eq_self hroot]
      -- the rest behind the canonical ancestor holds only what the client wrote
      have hrest : ∀ s ∈ rest, s ≠ ".." ∧ hidden s = false := by
        obtain ⟨below, rfl⟩ := hnearest.root_prefix hrejoined.under
          (hjoined ▸ List.prefix_append _ _)
        have hsplit := hnearest.split
        rw [hjoined, List.append_assoc, List.append_cancel_left_eq] at hsplit
        intro s hs
        exact hidden_of_all hbrowsable (hsplit ▸ List.mem_append_right _ hs)
      refine ⟨hrejoined.confined hreal hrest, fun more canonical hcanonical => ?_⟩
      obtain rfl := hnearest.canonicalize hrejoined more hcanonical
      refine ⟨hrejoined.under, fun hup => (hreal.isName _ hup).2 rfl, fun name hname => ?_⟩
      exact hrejoined.shown name (List.mem_filter.mp hname).1

end Workspace
