import RpiPackage.Deletion.Erase
import RpiPackage.Lib.Run

/-!
# Retries of a deletion

An execution that gets as far as its removals leaves the files in a state from which the plan can
be executed again, whichever of them are gone. What it removes are files as they were captured, and
with any other file in the place of one of the plan it removes nothing.
-/

namespace Deletion

open Json Result Service FileSystem

/-! ### Names -/

lemma getLast?_append {name suffix : String} (h : suffix ≠ "") :
    (name ++ suffix).toList.getLast? = suffix.toList.getLast? := by
  rw [String.toList_append]
  refine List.getLast?_append_of_ne_nil _ ?_
  intro hnil
  exact h (String.toList_inj.mp hnil)

lemma getLast?_of_primaryName {name id : String} (h : primaryName name id = true) :
    name.toList.getLast? = some 'l' := by
  simp only [primaryName, Bool.and_eq_true, stripSuffix] at h
  have hsuffix := h.2
  split at hsuffix
  · rename_i hsuffix'
    obtain ⟨before, hbefore⟩ := List.isSuffixOf_iff_suffix.mp hsuffix'
    rw [← hbefore, String.toList_append, ← List.append_assoc,
      List.getLast?_append_of_ne_nil _ (by decide)]
    decide
  · cases hsuffix

namespace PathBuf

lemma fileName_concat (path : PathBuf) (name : String) :
    fileName (path ++ [.normal name]) = some name := by
  rw [fileName, List.getLast?_concat]

lemma fileName_append {path : PathBuf} {name : String} (h : fileName path = some name)
    (suffix : String) : fileName (append path suffix) = some (name ++ suffix) := by
  rw [append, h]
  exact fileName_concat _ _

lemma fileName_join {path other : PathBuf} (h : isAbsolute other = false) (hne : other ≠ []) :
    fileName (join path other) = fileName other := by
  rw [join, h, if_neg Bool.false_ne_true, fileName, fileName,
    List.getLast?_append_of_ne_nil _ hne]

end PathBuf

namespace DeletionPlan

variable {plan : DeletionPlan} {fromSlice : List UInt8 → Option Value} {lock : Option NativeLock}
  {fs : FileSystem} {kind : FileKind} {path : PathBuf} {root : DirectoryAnchor}

/-- The lock file of the plan, if it has a native history. -/
def lockPath (plan : DeletionPlan) : Option PathBuf :=
  plan.primary.map fun p => PathBuf.append (PathBuf.join plan.root.path p) ".lock"

lemma validRelative_of_validate (h : plan.validate plan.id = .ok ()) :
    ∀ p ∈ plan.primary, validRelative p plan.id = true := by
  rw [validate, failIf_eq_ok] at h
  push Not at h
  have hvalid := h.1
  simp only [ne_eq, Bool.not_eq_false, Bool.and_eq_true] at hvalid
  intro p hp
  have hall := hvalid.1.2
  rw [Option.mem_def.mp hp] at hall
  exact hall

lemma primary_isSome_of_validate (h : plan.validate plan.id = .ok ()) {f : PlannedFile}
    (hf : f ∈ plan.files) (hkind : f.kind.isTiming = false) : plan.primary ≠ none := by
  rw [validate, failIf_eq_ok] at h
  push Not at h
  refine h.2.2.2.1 ?_
  rw [List.any_eq_true]
  exact ⟨f.kind, List.mem_map_of_mem hf, by rw [hkind]; rfl⟩

lemma path_native (h : kind.isTiming = false) :
    plan.path kind = plan.primary.map fun p =>
      (PathBuf.append (PathBuf.join plan.root.path p) (companionSuffix kind), plan.root) := by
  cases kind with
  | timing | timingTmp => cases h
  | primary | primaryTmp | progress | progressTmp => rfl

/-- The name of a history is that of its main file. -/
lemma fileName_primary (h : plan.validate plan.id = .ok ()) {p : PathBuf}
    (hp : plan.primary = some p) :
    ∃ name, PathBuf.fileName (PathBuf.join plan.root.path p) = some name ∧
      name.toList.getLast? = some 'l' := by
  have hrelative := validRelative_of_validate h p hp
  simp only [validRelative, Bool.and_eq_true, decide_eq_true_eq] at hrelative
  obtain ⟨⟨⟨⟨hlength, -⟩, hparts⟩, -⟩, hname⟩ := hrelative
  obtain ⟨name, hname, hprimary⟩ := (Option.any_eq_true _ _).mp hname
  have hne : p ≠ [] := List.ne_nil_of_length_pos hlength
  have hrelative : PathBuf.isAbsolute p = false := by
    cases p with
    | nil => exact absurd rfl hne
    | cons part parts =>
      rw [List.all_cons, Bool.and_eq_true] at hparts
      cases part with
      | rootDir => exact absurd hparts.1 Bool.false_ne_true
      | curDir | parentDir | normal => rfl
  refine ⟨name, ?_, getLast?_of_primaryName hprimary⟩
  rw [PathBuf.fileName_join hrelative hne]
  exact hname

/-- A file of the plan is not its lock. -/
lemma path_ne_lockPath (h : plan.validate plan.id = .ok ()) (hpath : plan.path kind = some (path, root))
    {lockFile : PathBuf} (hlock : plan.lockPath = some lockFile) : path ≠ lockFile := by
  obtain ⟨p, hp, rfl⟩ := Option.map_eq_some_iff.mp hlock
  obtain ⟨main, hmain, hlast⟩ := fileName_primary h hp
  have hlockName := PathBuf.fileName_append hmain ".lock"
  have hlockLast : (main ++ ".lock").toList.getLast? = some 'k' := by
    rw [getLast?_append (by decide)]
    decide
  have htiming : PathBuf.fileName (PathBuf.join plan.timings.path [.normal (plan.id ++ ".json")]) =
      some (plan.id ++ ".json") :=
    PathBuf.fileName_concat _ _
  suffices hname : ∃ name, PathBuf.fileName path = some name ∧ name.toList.getLast? ≠ some 'k' by
    rintro rfl
    obtain ⟨name, hname, hne⟩ := hname
    obtain rfl := Option.some.inj (hlockName.symm.trans hname)
    exact hne hlockLast
  have hnative : ∀ kind, FileKind.isTiming kind = false → plan.path kind = some (path, root) →
      path = PathBuf.append (PathBuf.join plan.root.path p) (companionSuffix kind) := by
    intro kind htiming hpath
    rw [path_native htiming, hp] at hpath
    exact (Prod.mk.inj (Option.some.inj hpath)).1.symm
  cases kind with
  | timing =>
    obtain ⟨rfl, -⟩ := Prod.mk.inj (Option.some.inj hpath)
    refine ⟨_, htiming, ?_⟩
    rw [getLast?_append (by decide)]
    decide
  | timingTmp =>
    obtain ⟨rfl, -⟩ := Prod.mk.inj (Option.some.inj hpath)
    refine ⟨_, PathBuf.fileName_append htiming ".tmp", ?_⟩
    rw [getLast?_append (by decide)]
    decide
  | primary =>
    rw [hnative .primary rfl hpath]
    refine ⟨_, PathBuf.fileName_append hmain "", ?_⟩
    rw [String.append_empty, hlast]
    decide
  | primaryTmp =>
    rw [hnative .primaryTmp rfl hpath]
    refine ⟨_, PathBuf.fileName_append hmain ".tmp", ?_⟩
    rw [getLast?_append (by decide)]
    decide
  | progress =>
    rw [hnative .progress rfl hpath]
    refine ⟨_, PathBuf.fileName_append hmain ".progress.jsonl", ?_⟩
    rw [getLast?_append (by decide)]
    decide
  | progressTmp =>
    rw [hnative .progressTmp rfl hpath]
    refine ⟨_, PathBuf.fileName_append hmain ".progress.jsonl.tmp", ?_⟩
    rw [getLast?_append (by decide)]
    decide

/-! ### States from which the plan can be executed -/

lemma mem_of_captured {f : PlannedFile} (h : plan.captured kind = some f) :
    f ∈ plan.files ∧ f.kind = kind :=
  ⟨List.mem_of_find?_eq_some h, by simpa using List.find?_some h⟩

lemma preflightKind_eq_ok (hpath : plan.path kind = some (path, root)) :
    plan.preflightKind fromSlice fs kind = .ok () ↔
      ∃ o, fs.inspect path root = .ok o ∧ ∀ fp, o = some fp →
        ∃ f, plan.captured kind = some f ∧ f.fingerprint = fp ∧
          (kind = .primary → fs.header fromSlice path plan.id fp = .ok ()) := by
  rw [preflightKind, hpath]
  dsimp only
  rw [bind_eq_ok]
  refine exists_congr fun o => and_congr_right fun _ => ?_
  cases o with
  | none => exact ⟨fun _ fp hnone => absurd hnone (Option.some_ne_none fp).symm, fun _ => rfl⟩
  | some actual =>
    cases hcaptured : plan.captured kind with
    | none =>
      constructor
      · intro h
        cases h
      · intro h
        obtain ⟨f, hf, -⟩ := h actual rfl
        cases hf
    | some expected =>
      dsimp only
      rw [check_bind_eq_ok, failIf_eq_ok, not_not]
      constructor
      · rintro ⟨hfp, hheader⟩ fp heq
        obtain rfl := Option.some.inj heq
        refine ⟨expected, rfl, hfp.symm, ?_⟩
        intro hkind
        rwa [if_pos hkind] at hheader
      · intro h
        obtain ⟨f, hf, hfp, hheader⟩ := h actual rfl
        obtain rfl := Option.some.inj hf
        refine ⟨hfp.symm, ?_⟩
        split
        · exact hheader ‹_›
        · rfl

/-- What holds before and between the removals: the bindings, a scan that sees nothing but files of
the plan, and every file as it was captured, if it is there. -/
structure Ready (plan : DeletionPlan) (fromSlice : List UInt8 → Option Value)
    (lock : Option NativeLock) (fs : FileSystem) : Prop where
  bindings : plan.checkBindings lock fs = .ok ()
  candidates : plan.root.identity ≠ none → ∃ s, fs.scan plan.root plan.id = .ok s ∧
    (s.found = none ∨ s.found = plan.primary) ∧ ∀ p ∈ s.orphans, p ∈ plan.allowed
  files : ∀ kind, plan.preflightKind fromSlice fs kind = .ok ()

lemma Ready.verifyCandidates (h : plan.Ready fromSlice lock fs) :
    plan.verifyCandidates fs = .ok () := by
  rw [DeletionPlan.verifyCandidates, bind_eq_ok]
  by_cases hroot : plan.root.identity = none
  · refine ⟨none, if_pos hroot, ?_⟩
    rw [failIf_eq_ok]
    rintro ⟨hsome, -⟩
    cases hsome
  · obtain ⟨s, hscan, hfound, horphans⟩ := h.candidates hroot
    refine ⟨s.found, ?_, ?_⟩
    · rw [discover, if_neg hroot, hscan, ok_bind, check_bind_eq_ok, failIf_eq_ok]
      refine ⟨?_, rfl⟩
      rw [List.any_eq_true]
      rintro ⟨p, hp, hother⟩
      rw [List.contains_iff_mem.mpr (horphans p hp)] at hother
      cases hother
    · rw [failIf_eq_ok]
      rintro ⟨hsome, hne⟩
      rcases hfound with hnone | heq
      · rw [hnone] at hsome
        cases hsome
      · exact hne heq

/-- A companion of the history is a file of the plan, so it has been captured. -/
lemma mem_allowed_of_isCompanion (hfiles : ∀ kind, plan.preflightKind fromSlice fs kind = .ok ())
    {p : PathBuf} {fp : Fingerprint} (hinspect : fs.inspect p plan.root = .ok (some fp))
    (hcompanion : isCompanion plan.root plan.primary p = true) : p ∈ plan.allowed := by
  obtain ⟨h, hprimary, hany⟩ := (Option.any_eq_true _ _).mp hcompanion
  obtain ⟨suffix, hsuffix, heq⟩ := List.any_eq_true.mp hany
  have hkind : ∃ kind, isSidecar kind = true ∧ plan.path kind = some (p, plan.root) := by
    have hpath : PathBuf.append (PathBuf.join plan.root.path h) suffix = p := by simpa using heq
    simp only [companionSuffixes, List.mem_cons, List.not_mem_nil, or_false] at hsuffix
    rcases hsuffix with rfl | rfl | rfl
    · exact ⟨.primaryTmp, rfl, by rw [path_native rfl, hprimary, ← hpath]; rfl⟩
    · exact ⟨.progress, rfl, by rw [path_native rfl, hprimary, ← hpath]; rfl⟩
    · exact ⟨.progressTmp, rfl, by rw [path_native rfl, hprimary, ← hpath]; rfl⟩
  obtain ⟨kind, hsidecar, hpath⟩ := hkind
  obtain ⟨o, ho, hcaptured⟩ := (preflightKind_eq_ok hpath).mp (hfiles kind)
  obtain rfl := Except.ok.inj (hinspect.symm.trans ho)
  obtain ⟨f, hf, -⟩ := hcaptured fp rfl
  obtain ⟨hmem, rfl⟩ := mem_of_captured hf
  refine List.mem_filterMap.mpr ⟨f, hmem, ?_⟩
  rw [if_pos hsidecar, hpath]
  rfl

end DeletionPlan

namespace FileSystem

variable {fs : FileSystem} {root : DirectoryAnchor} {id : String}

/-- An orphan of a scan is a file. -/
lemma inspect_of_mem_orphans {s : Scan} (h : fs.scan root id = .ok s) :
    ∀ p ∈ s.orphans, ∃ fp, fs.inspect p root = .ok (some fp) := by
  have hlevels : ∀ levels depth (s t : Scan),
      (∀ p ∈ s.orphans, ∃ fp, fs.inspect p root = .ok (some fp)) →
        fs.scanLevels root id levels depth s = .ok t →
          ∀ p ∈ t.orphans, ∃ fp, fs.inspect p root = .ok (some fp) := by
    intro levels
    induction levels with
    | zero =>
      intro depth s t hs ht
      obtain rfl := Except.ok.inj ht
      exact hs
    | succ levels ih =>
      intro depth s t hs ht
      obtain ⟨u, hu, ht⟩ := bind_eq_ok.mp ht
      refine ih (depth + 1) u t ?_ ht
      refine foldlM_keeps (s := { s with next := [] }) (P := fun s : Scan =>
        ∀ p ∈ s.orphans, ∃ fp, fs.inspect p root = .ok (some fp)) ?_ hs hu
      intro dir _ s t hs hdir
      obtain ⟨names, -, hdir⟩ := bind_eq_ok.mp hdir
      refine foldlM_keeps (P := fun s : Scan =>
        ∀ p ∈ s.orphans, ∃ fp, fs.inspect p root = .ok (some fp)) ?_ hs hdir
      intro name _ s t hs hentry
      cases (seen_of_scanEntry hentry).2 with
      | directory | history | ignored => exact hs
      | orphan fp content node other companion inspected =>
        intro p hp
        rcases List.mem_append.mp hp with hp | hp
        · exact hs p hp
        · rw [List.mem_singleton.mp hp]
          exact ⟨fp, inspected⟩
  exact hlevels 3 0 _ s (fun _ hnil => absurd hnil List.not_mem_nil) h

end FileSystem

namespace DeletionPlan

variable {plan : DeletionPlan} {fromSlice : List UInt8 → Option Value} {lock : Option NativeLock}
  {fs : FileSystem} {kind : FileKind} {path : PathBuf} {root : DirectoryAnchor}

lemma ready_of_beforeRemoval (h : plan.beforeRemoval fromSlice lock fs = .ok ()) :
    plan.Ready fromSlice lock fs := by
  simp only [beforeRemoval, check_bind_eq_ok, preflight, forM_eq_ok] at h
  obtain ⟨hbindings, hcandidates, hfiles⟩ := h
  have hfiles : ∀ kind, plan.preflightKind fromSlice fs kind = .ok () :=
    fun kind => hfiles kind (FileKind.mem_kinds kind)
  refine ⟨hbindings, ?_, hfiles⟩
  intro hroot
  rw [DeletionPlan.verifyCandidates, bind_eq_ok] at hcandidates
  obtain ⟨found, hdiscover, hprimary⟩ := hcandidates
  rw [discover, if_neg hroot, bind_eq_ok] at hdiscover
  obtain ⟨s, hscan, hdiscover⟩ := hdiscover
  rw [check_bind_eq_ok, failIf_eq_ok, Bool.not_eq_true, List.any_eq_false] at hdiscover
  obtain ⟨horphans, hfound⟩ := hdiscover
  obtain rfl := Except.ok.inj hfound
  rw [failIf_eq_ok, not_and, not_not] at hprimary
  refine ⟨s, hscan, ?_, ?_⟩
  · cases hs : s.found with
    | none => exact .inl rfl
    | some found =>
      rw [hs] at hprimary
      exact .inr (hprimary rfl)
  · intro p hp
    have hallowed := horphans p hp
    by_contra hnot
    rw [Bool.and_eq_true, not_and, Bool.not_eq_true', Bool.not_eq_true', Bool.not_eq_false] at hallowed
    have hcompanion := hallowed (by simpa using hnot)
    obtain ⟨fp, hinspect⟩ := inspect_of_mem_orphans hscan p hp
    have hsome : s.found.isSome = true := by
      cases hs : s.found with
      | none =>
        rw [hs] at hcompanion
        cases hcompanion
      | some found => rfl
    rw [hprimary hsome] at hcompanion
    exact hnot (mem_allowed_of_isCompanion hfiles hinspect hcompanion)

/-! ### Removals -/

lemma checkBindings_eq_ok :
    plan.checkBindings lock fs = .ok () ↔ plan.root.check fs = .ok () ∧
      plan.timings.check fs = .ok () ∧ ∀ l ∈ lock, l.check fs plan.root = .ok () := by
  simp only [checkBindings, check_bind_eq_ok, forM_eq_ok, Option.mem_toList, Option.mem_def]

lemma lock_check_eq_ok {l : NativeLock} :
    l.check fs root = .ok () ↔
      ∃ fp, fs.inspect l.path root = .ok (some fp) ∧ fp.identity = l.identity := by
  simp only [NativeLock.check, bind_eq_ok, okOr_eq_ok, failIf_eq_ok, not_not]
  constructor
  · rintro ⟨o, ho, fp, rfl, hidentity⟩
    exact ⟨fp, ho, hidentity⟩
  · rintro ⟨fp, hinspect, hidentity⟩
    exact ⟨some fp, hinspect, fp, rfl, hidentity⟩

lemma header_erase {fp : Fingerprint} {q : PathBuf} (h : path ≠ q) :
    header (fs.erase q) fromSlice path plan.id fp = fs.header fromSlice path plan.id fp := by
  rw [header, Table.get_erase_of_ne h, header]

/-- With a file of the plan gone, the plan can still be executed. -/
lemma Ready.erase (h : plan.Ready fromSlice lock fs) (hplan : plan.validate plan.id = .ok ())
    (hheld : lock.map NativeLock.path = plan.lockPath) (hpath : plan.path kind = some (path, root))
    {fp : Fingerprint} {content : List UInt8} (hget : fs.get path = some (.file fp content)) :
    plan.Ready fromSlice lock (fs.erase path) := by
  obtain ⟨hroot, htimings, hlock⟩ := checkBindings_eq_ok.mp h.bindings
  refine ⟨checkBindings_eq_ok.mpr ⟨check_erase hroot hget, check_erase htimings hget, ?_⟩, ?_, ?_⟩
  · intro l hl
    obtain ⟨current, hinspect, hidentity⟩ := lock_check_eq_ok.mp (hlock l hl)
    have hne : l.path ≠ path := by
      rw [Option.mem_def.mp hl] at hheld
      exact (path_ne_lockPath hplan hpath hheld.symm).symm
    refine lock_check_eq_ok.mpr ⟨current, ?_, hidentity⟩
    rw [inspect_erase hinspect path, if_neg hne]
  · intro hidentity
    obtain ⟨s, hscan, hfound, horphans⟩ := h.candidates hidentity
    obtain ⟨t, ht, hfollows⟩ := scan_erase hget hscan
    refine ⟨t, ht, ?_, fun p hp => horphans p (hfollows.orphans p hp)⟩
    rcases hfollows.found with hnone | heq
    · exact .inl hnone
    · rw [heq]
      exact hfound
  · intro other
    cases hother : plan.path other with
    | none =>
      rw [preflightKind, hother]
    | some p =>
      obtain ⟨path', root'⟩ := p
      obtain ⟨o, ho, hcaptured⟩ := (preflightKind_eq_ok hother).mp (h.files other)
      refine (preflightKind_eq_ok hother).mpr ⟨_, inspect_erase ho path, ?_⟩
      intro fp' hfp'
      split at hfp'
      · cases hfp'
      · rename_i hne
        obtain ⟨f, hf, hfp, hheader⟩ := hcaptured fp' hfp'
        refine ⟨f, hf, hfp, ?_⟩
        intro hkind
        rw [header_erase hne]
        exact hheader hkind

/-- A removal is of a file as it was captured. -/
lemma recheck_eq_some {o : PathBuf} (h : plan.recheck lock fs kind = .ok (some o)) :
    ∃ f ∈ plan.files, f.kind = kind ∧ ∃ root content, plan.path kind = some (o, root) ∧
      fs.get o = some (.file f.fingerprint content) := by
  unfold recheck at h
  split at h
  · cases h
  · rename_i f hf
    obtain ⟨hmem, hkind⟩ := mem_of_captured hf
    rw [check_bind_eq_ok, bind_eq_ok] at h
    obtain ⟨-, ⟨path, root⟩, hpath, h⟩ := h
    obtain ⟨current, hinspect, h⟩ := bind_eq_ok.mp h
    split at h
    · cases h
    · rw [check_bind_eq_ok, failIf_eq_ok, not_not] at h
      obtain ⟨hfp, h⟩ := h
      obtain rfl := Option.some.inj (Except.ok.inj h)
      obtain ⟨-, -, ⟨hnone, -⟩ | ⟨fp, content, hsome, hget⟩⟩ := inspect_eq_ok.mp hinspect
      · cases hnone
      · obtain rfl := Option.some.inj hsome
        exact ⟨f, hmem, hkind, root, content, okOr_eq_ok.mp hpath, hfp ▸ hget⟩

/-- In a state from which the plan can be executed, a file is removed if it is there. -/
lemma Ready.recheck (h : plan.Ready fromSlice lock fs) (hplan : plan.validate plan.id = .ok ())
    (kind : FileKind) :
    ∃ o, plan.recheck lock fs kind = .ok o ∧
      (o = none → ∀ path root, plan.path kind = some (path, root) → fs.get path = none) := by
  unfold DeletionPlan.recheck
  cases hcaptured : plan.captured kind with
  | none =>
    refine ⟨none, rfl, ?_⟩
    intro _ path root hpath
    obtain ⟨o, ho, hall⟩ := (preflightKind_eq_ok hpath).mp (h.files kind)
    obtain ⟨-, -, ⟨rfl, hget⟩ | ⟨fp, content, rfl, hget⟩⟩ := inspect_eq_ok.mp ho
    · exact hget
    · obtain ⟨f, hf, -⟩ := hall fp rfl
      rw [hcaptured] at hf
      cases hf
  | some f =>
    obtain ⟨hmem, rfl⟩ := mem_of_captured hcaptured
    have hpath : ∃ p, plan.path f.kind = some p := by
      cases htiming : f.kind.isTiming with
      | false =>
        obtain ⟨p, hp⟩ := Option.ne_none_iff_exists'.mp (primary_isSome_of_validate hplan hmem htiming)
        rw [path_native htiming, hp]
        exact ⟨_, rfl⟩
      | true =>
        cases hkind : f.kind with
        | timing | timingTmp => exact ⟨_, rfl⟩
        | primary | primaryTmp | progress | progressTmp =>
          rw [hkind] at htiming
          cases htiming
    obtain ⟨⟨path, root⟩, hpath⟩ := hpath
    obtain ⟨o, ho, hall⟩ := (preflightKind_eq_ok hpath).mp (h.files f.kind)
    dsimp only
    rw [h.bindings, ok_bind, hpath, okOr, ok_bind]
    dsimp only
    rw [ho, ok_bind]
    obtain ⟨-, -, ⟨rfl, hget⟩ | ⟨fp, content, rfl, hget⟩⟩ := inspect_eq_ok.mp ho
    · refine ⟨none, rfl, ?_⟩
      intro _ path' root' hpath'
      obtain ⟨rfl, -⟩ := Prod.mk.inj (Option.some.inj hpath')
      exact hget
    · obtain ⟨g, hg, hfp, -⟩ := hall fp rfl
      obtain rfl := Option.some.inj (hcaptured.symm.trans hg)
      refine ⟨some path, ?_, fun hnone => absurd hnone (Option.some_ne_none _)⟩
      dsimp only
      rw [check_bind_eq_ok, failIf_eq_ok, not_not]
      exact ⟨hfp.symm, rfl⟩

/-- What is left of a file after some removals. -/
def Removed (plan : DeletionPlan) (fs fs' : FileSystem) (path : PathBuf) : Prop :=
  fs'.get path = none ∧ ∃ f ∈ plan.files, ∃ root content,
    plan.path f.kind = some (path, root) ∧ fs.get path = some (.file f.fingerprint content)

lemma removed_of_removeFiles (lock : Option NativeLock) (stop : Option Nat) (fs : FileSystem)
    (ks : List FileKind) (path : PathBuf) :
    (plan.removeFiles lock stop fs ks).files.get path = fs.get path ∨
      plan.Removed fs (plan.removeFiles lock stop fs ks).files path := by
  induction ks generalizing stop fs with
  | nil => exact .inl rfl
  | cons kind ks ih =>
    have hgone : ∀ o, plan.recheck lock fs kind = .ok (some o) → ∀ x : Execution,
        (x.files.get path = Table.get (fs.erase o) path ∨ plan.Removed (fs.erase o) x.files path) →
          x.files.get path = fs.get path ∨ plan.Removed fs x.files path := by
      intro o ho x hx
      obtain ⟨f, hf, rfl, root, content, hpath, hget⟩ := recheck_eq_some ho
      by_cases heq : path = o
      · subst heq
        refine .inr ⟨?_, f, hf, root, content, hpath, hget⟩
        rcases hx with hx | hx
        · rw [hx, Table.get_erase_self]
        · exact hx.1
      · rw [Removed, Table.get_erase_of_ne heq] at hx
        exact hx
    rw [removeFiles]
    split
    · exact .inl rfl
    · exact ih stop fs
    · rename_i o ho
      split
      · exact .inl rfl
      · exact hgone o ho _ (ih _ _)
      · exact hgone o ho _ (ih _ _)

/-- The removals are made until they are stopped, and none is refused. -/
lemma Ready.removeFiles (h : plan.Ready fromSlice lock fs) (hplan : plan.validate plan.id = .ok ())
    (hheld : lock.map NativeLock.path = plan.lockPath) (stop : Option Nat) (ks : List FileKind) :
    plan.Ready fromSlice lock (plan.removeFiles lock stop fs ks).files ∧
      (plan.removeFiles lock stop fs ks).result =
        (if stop.isSome then .error .interrupted else .ok ()) ∧
      (stop = none → ∀ kind ∈ ks, ∀ path root, plan.path kind = some (path, root) →
        (plan.removeFiles lock stop fs ks).files.get path = none) := by
  induction ks generalizing stop fs with
  | nil => exact ⟨h, rfl, fun _ _ hnil => absurd hnil List.not_mem_nil⟩
  | cons kind ks ih =>
    obtain ⟨o, ho, hnone⟩ := h.recheck hplan kind
    rw [DeletionPlan.removeFiles, ho]
    cases o with
    | none =>
      obtain ⟨hready, hresult, hgone⟩ := ih h stop
      refine ⟨hready, hresult, ?_⟩
      intro hstop kind' hkind' path root hpath
      rcases List.mem_cons.mp hkind' with rfl | hkind'
      · have hget := hnone rfl path root hpath
        rcases removed_of_removeFiles lock stop fs ks path with heq | hremoved
        · exact heq.trans hget
        · exact hremoved.1
      · exact hgone hstop kind' hkind' path root hpath
    | some q =>
      obtain ⟨f, -, rfl, root, content, hq, hget⟩ := recheck_eq_some ho
      have herase := h.erase hplan hheld hq hget
      cases stop with
      | none =>
        obtain ⟨hready, hresult, hgone⟩ := ih herase none
        refine ⟨hready, hresult, ?_⟩
        intro _ kind' hkind' path root' hpath
        rcases List.mem_cons.mp hkind' with rfl | hkind'
        · obtain ⟨rfl, -⟩ := Prod.mk.inj (Option.some.inj (hq.symm.trans hpath))
          rcases removed_of_removeFiles lock none (fs.erase q) ks q with heq | hremoved
          · exact heq.trans (Table.get_erase_self fs q)
          · exact hremoved.1
        · exact hgone rfl kind' hkind' path root' hpath
      | some n =>
        cases n with
        | zero => exact ⟨h, rfl, fun hstop => absurd hstop (Option.some_ne_none _)⟩
        | succ n =>
          obtain ⟨hready, hresult, -⟩ := ih herase (some n)
          exact ⟨hready, hresult, fun hstop => absurd hstop (Option.some_ne_none _)⟩

/-! ### Executions -/

lemma Ready.beforeRemoval (h : plan.Ready fromSlice lock fs) :
    plan.beforeRemoval fromSlice lock fs = .ok () := by
  rw [DeletionPlan.beforeRemoval, h.bindings, ok_bind, h.verifyCandidates, ok_bind, preflight,
    forM_eq_ok]
  exact fun kind _ => h.files kind

/-- With no file left, nothing stands against success. -/
lemma Ready.afterRemoval (h : plan.Ready fromSlice lock fs)
    (hgone : ∀ kind path root, plan.path kind = some (path, root) → fs.get path = none) :
    plan.afterRemoval lock fs = .ok () := by
  rw [DeletionPlan.afterRemoval, h.verifyCandidates, ok_bind, check_bind_eq_ok, forM_eq_ok]
  refine ⟨?_, h.bindings⟩
  intro kind _
  cases hpath : plan.path kind with
  | none => rfl
  | some p =>
    obtain ⟨path, root⟩ := p
    obtain ⟨o, ho, -⟩ := (preflightKind_eq_ok hpath).mp (h.files kind)
    dsimp only
    rw [ho, ok_bind, failIf_eq_ok]
    obtain ⟨-, -, ⟨rfl, -⟩ | ⟨fp, content, -, hget⟩⟩ := inspect_eq_ok.mp ho
    · exact Bool.false_ne_true
    · rw [hgone kind path root hpath] at hget
      cases hget

/-- An execution from such a state is done, unless it is stopped. -/
lemma Ready.executeLocked (h : plan.Ready fromSlice lock fs) (hplan : plan.validate plan.id = .ok ())
    (hheld : lock.map NativeLock.path = plan.lockPath) (stop : Option Nat) :
    plan.Ready fromSlice lock (plan.executeLocked fromSlice lock stop fs).files ∧
      (stop = none → (plan.executeLocked fromSlice lock stop fs).result = .ok () ∧
        ∀ kind path root, plan.path kind = some (path, root) →
          (plan.executeLocked fromSlice lock stop fs).files.get path = none) := by
  obtain ⟨hready, hresult, hgone⟩ := h.removeFiles hplan hheld stop kinds
  rw [DeletionPlan.executeLocked, h.beforeRemoval]
  dsimp only
  rw [hresult]
  cases stop with
  | some n => exact ⟨hready, fun hstop => absurd hstop (Option.some_ne_none n)⟩
  | none =>
    refine ⟨hready, fun _ => ?_⟩
    have hnone : ∀ kind path root, plan.path kind = some (path, root) →
        (plan.removeFiles lock none fs kinds).files.get path = none :=
      fun kind => hgone rfl kind (FileKind.mem_kinds kind)
    refine ⟨?_, hnone⟩
    show (plan.afterRemoval lock _).mapError Stop.refused = _
    rw [hready.afterRemoval hnone]
    rfl

/-- The lock that was held is taken again. -/
lemma Ready.acquireLock (h : plan.Ready fromSlice lock fs)
    (hheld : lock.map NativeLock.path = plan.lockPath) {attempt : LockAttempt}
    (hfree : attempt.contended = false) : plan.acquireLock attempt fs = (fs, .ok lock) := by
  rw [lockPath] at hheld
  unfold DeletionPlan.acquireLock
  cases hprimary : plan.primary with
  | none =>
    rw [hprimary] at hheld
    rw [Option.map_eq_none_iff.mp hheld]
  | some p =>
    rw [hprimary] at hheld
    obtain ⟨l, rfl, hpath⟩ := Option.map_eq_some_iff.mp hheld
    have hcheck := (checkBindings_eq_ok.mp h.bindings).2.2 l rfl
    obtain ⟨fp, hinspect, hidentity⟩ := lock_check_eq_ok.mp hcheck
    rw [hpath] at hinspect
    have hl : l = ⟨PathBuf.append (PathBuf.join plan.root.path p) ".lock", fp.identity⟩ := by
      cases l
      congr
      exact hidentity.symm
    obtain ⟨-, -, ⟨hnone, -⟩ | ⟨fp', content, hsome, hget⟩⟩ := inspect_eq_ok.mp hinspect
    · cases hnone
    · obtain rfl := Option.some.inj hsome
      have hopen : NativeLock.openFile fs
          (PathBuf.append (PathBuf.join plan.root.path p) ".lock") attempt.created = .ok (fs, fp) := by
        rw [NativeLock.openFile, hget]
      dsimp only
      rw [NativeLock.acquire]
      dsimp only
      rw [hinspect]
      dsimp only
      rw [hopen]
      dsimp only
      rw [← hl, hcheck, hfree]
      simp [failIf, Except.map]

/-- A persisted plan is executed as it was by the first holder of the lock. -/
lemma Ready.execute (h : plan.Ready fromSlice lock fs) (hplan : plan.validate plan.id = .ok ())
    (hheld : lock.map NativeLock.path = plan.lockPath) {attempt : LockAttempt}
    (hfree : attempt.contended = false) (stop : Option Nat) :
    plan.execute fromSlice attempt stop fs = plan.executeLocked fromSlice lock stop fs := by
  obtain ⟨hroot, htimings, -⟩ := checkBindings_eq_ok.mp h.bindings
  have hadmit : plan.admission fs = .ok () := by
    rw [admission, hplan, hroot]
    exact htimings
  rw [DeletionPlan.execute, hadmit]
  dsimp only
  rw [h.acquireLock hheld hfree]

/-- Whoever executes the plan: the holder of the lock under which it was made, or a later process
that takes the lock anew. -/
inductive Entry (plan : DeletionPlan) where
  | prepared (lock : Option NativeLock) (held : lock.map NativeLock.path = plan.lockPath)
  | persisted (attempt : LockAttempt)

def run (plan : DeletionPlan) (fromSlice : List UInt8 → Option Value) (entry : plan.Entry)
    (stop : Option Nat) (fs : FileSystem) : Execution :=
  match entry with
  | .prepared lock _ => plan.executeLocked fromSlice lock stop fs
  | .persisted attempt => plan.execute fromSlice attempt stop fs

/-- Executions that are stopped, one after the other. -/
def retries (plan : DeletionPlan) (fromSlice : List UInt8 → Option Value)
    (stops : List (LockAttempt × Nat)) (fs : FileSystem) : FileSystem :=
  Run.after (fun fs stop => (plan.execute fromSlice stop.1 (some stop.2) fs).files) fs stops

lemma Ready.retries (h : plan.Ready fromSlice lock fs) (hplan : plan.validate plan.id = .ok ())
    (hheld : lock.map NativeLock.path = plan.lockPath) {stops : List (LockAttempt × Nat)}
    (hfree : ∀ stop ∈ stops, stop.1.contended = false) :
    plan.Ready fromSlice lock (plan.retries fromSlice stops fs) := by
  unfold DeletionPlan.retries
  induction stops generalizing fs with
  | nil => exact h
  | cons stop stops ih =>
    rw [Run.after_cons]
    refine ih ?_ fun stop' hstop' => hfree stop' (List.mem_cons_of_mem _ hstop')
    rw [h.execute hplan hheld (hfree stop List.mem_cons_self)]
    exact (h.executeLocked hplan hheld (some stop.2)).1

/-! ### Any execution -/

lemma removed_of_executeLocked (lock : Option NativeLock) (stop : Option Nat) (fs : FileSystem)
    (path : PathBuf) :
    (plan.executeLocked fromSlice lock stop fs).files.get path = fs.get path ∨
      plan.Removed fs (plan.executeLocked fromSlice lock stop fs).files path := by
  unfold executeLocked
  split
  · exact .inl rfl
  · dsimp only
    split
    · exact removed_of_removeFiles lock stop fs kinds path
    · exact removed_of_removeFiles lock stop fs kinds path

/-- An execution that gets to its removals does so from a state in which they can be made. -/
lemma ready_of_interrupted (hplan : plan.validate plan.id = .ok ())
    (hheld : lock.map NativeLock.path = plan.lockPath) {stop : Option Nat}
    (h : (plan.executeLocked fromSlice lock stop fs).result = .error .interrupted) :
    plan.Ready fromSlice lock (plan.executeLocked fromSlice lock stop fs).files := by
  cases hbefore : plan.beforeRemoval fromSlice lock fs with
  | error e =>
    rw [executeLocked, hbefore] at h
    cases h
  | ok _ => exact ((ready_of_beforeRemoval hbefore).executeLocked hplan hheld stop).1

/-- A file that is not as it was captured stops everything. -/
lemma refused_of_other {fp : Fingerprint} {content : List UInt8}
    (hpath : plan.path kind = some (path, root)) (hget : fs.get path = some (.file fp content))
    (hother : ¬∃ f ∈ plan.files, f.kind = kind ∧ f.fingerprint = fp) (lock : Option NativeLock)
    (stop : Option Nat) :
    ∃ e, plan.executeLocked fromSlice lock stop fs = ⟨fs, .error (.refused e)⟩ := by
  cases hbefore : plan.beforeRemoval fromSlice lock fs with
  | error e =>
    refine ⟨e, ?_⟩
    rw [executeLocked, hbefore]
  | ok _ =>
    have hready := ready_of_beforeRemoval hbefore
    obtain ⟨o, ho, hall⟩ := (preflightKind_eq_ok hpath).mp (hready.files kind)
    obtain ⟨-, -, ⟨-, hnone⟩ | ⟨fp', content', rfl, hfile⟩⟩ := inspect_eq_ok.mp ho
    · rw [hnone] at hget
      cases hget
    · obtain ⟨f, hf, hfp, -⟩ := hall fp' rfl
      obtain ⟨hmem, hkind⟩ := mem_of_captured hf
      rw [hget] at hfile
      obtain ⟨rfl, -⟩ := Node.file.inj (Option.some.inj hfile)
      exact absurd ⟨f, hmem, hkind, hfp⟩ hother

/-- Taking the lock leaves every file where it is. -/
lemma get_acquireLock {attempt : LockAttempt} {node : Node} (h : fs.get path = some node) :
    (plan.acquireLock attempt fs).1.get path = some node := by
  unfold acquireLock
  split
  · exact h
  · dsimp only
    unfold NativeLock.acquire
    dsimp only
    split
    · exact h
    · split
      · exact h
      · rename_i fs' opened hopen
        show Table.get fs' path = some node
        unfold NativeLock.openFile at hopen
        split at hopen
        · obtain ⟨rfl, -⟩ := Prod.mk.inj (Except.ok.inj hopen)
          exact h
        · cases hopen
        · cases hopen
        · rename_i hnone
          split at hopen
          · obtain ⟨rfl, -⟩ := Prod.mk.inj (Except.ok.inj hopen)
            rw [Table.get_put_of_ne]
            · exact h
            · rintro rfl
              rw [hnone] at h
              cases h
          · cases hopen

lemma held_of_acquireLock {attempt : LockAttempt}
    (h : (plan.acquireLock attempt fs).2 = .ok lock) :
    lock.map NativeLock.path = plan.lockPath := by
  unfold acquireLock at h
  unfold lockPath
  cases hprimary : plan.primary with
  | none =>
    rw [hprimary] at h
    obtain rfl := Except.ok.inj h
    rfl
  | some p =>
    rw [hprimary] at h
    dsimp only at h
    unfold NativeLock.acquire at h
    dsimp only at h
    split at h
    · cases h
    · split at h
      · cases h
      · obtain ⟨l, hl, rfl⟩ := map_eq_ok.mp h
        simp only [check_bind_eq_ok, pure_eq_ok, Except.ok.injEq] at hl
        obtain ⟨-, -, -, rfl⟩ := hl
        rfl

/-- What an execution of a persisted plan comes to. -/
lemma execute_eq (attempt : LockAttempt) (stop : Option Nat) (fs : FileSystem) :
    (∃ e fs', plan.execute fromSlice attempt stop fs = ⟨fs', .error (.refused e)⟩ ∧
      ∀ path node, fs.get path = some node → fs'.get path = some node) ∨
    ∃ lock fs', plan.execute fromSlice attempt stop fs =
        plan.executeLocked fromSlice lock stop fs' ∧
      lock.map NativeLock.path = plan.lockPath ∧
      ∀ path node, fs.get path = some node → fs'.get path = some node := by
  unfold execute
  split
  · rename_i e _
    exact .inl ⟨e, fs, rfl, fun _ _ h => h⟩
  · cases hlock : (plan.acquireLock attempt fs).2 with
    | error e =>
      refine .inl ⟨e, (plan.acquireLock attempt fs).1, ?_, fun _ _ h => get_acquireLock h⟩
      dsimp only
      rw [hlock]
    | ok lock =>
      refine .inr ⟨lock, (plan.acquireLock attempt fs).1, ?_, held_of_acquireLock hlock,
        fun _ _ h => get_acquireLock h⟩
      dsimp only
      rw [hlock]

/-- Whoever executes a valid plan, and wherever it is stopped: only files as they were captured are
removed; once it is stopped, the plan can be executed again, however often that is stopped in turn,
and leaves none of its files; and with another file in the place of one of them nothing is
removed. -/
theorem run_retries (hplan : plan.validate plan.id = .ok ()) (entry : plan.Entry)
    (stop : Option Nat) (fs : FileSystem) :
    (∀ path node, fs.get path = some node →
      (plan.run fromSlice entry stop fs).files.get path = some node ∨
        plan.Removed fs (plan.run fromSlice entry stop fs).files path) ∧
    ((plan.run fromSlice entry stop fs).result = .error .interrupted →
      ∀ (stops : List (LockAttempt × Nat)) (attempt : LockAttempt),
        (∀ s ∈ stops, s.1.contended = false) → attempt.contended = false →
          (plan.execute fromSlice attempt none
            (plan.retries fromSlice stops (plan.run fromSlice entry stop fs).files)).result =
              .ok () ∧
          ∀ kind path root, plan.path kind = some (path, root) →
            (plan.execute fromSlice attempt none
              (plan.retries fromSlice stops
                (plan.run fromSlice entry stop fs).files)).files.get path = none) ∧
    ((∃ kind path root fp content, plan.path kind = some (path, root) ∧
        fs.get path = some (.file fp content) ∧
        ¬∃ f ∈ plan.files, f.kind = kind ∧ f.fingerprint = fp) →
      (∀ path node, fs.get path = some node →
        (plan.run fromSlice entry stop fs).files.get path = some node) ∧
      ∃ e, (plan.run fromSlice entry stop fs).result = .error (.refused e)) := by
  have hrun : (∃ e fs', plan.run fromSlice entry stop fs = ⟨fs', .error (.refused e)⟩ ∧
      ∀ path node, fs.get path = some node → fs'.get path = some node) ∨
      ∃ lock fs', plan.run fromSlice entry stop fs = plan.executeLocked fromSlice lock stop fs' ∧
        lock.map NativeLock.path = plan.lockPath ∧
        ∀ path node, fs.get path = some node → fs'.get path = some node := by
    cases entry with
    | prepared lock held => exact .inr ⟨lock, fs, rfl, held, fun _ _ h => h⟩
    | persisted attempt => exact execute_eq attempt stop fs
  rcases hrun with ⟨e, fs', hrun, hkeeps⟩ | ⟨lock, fs', hrun, hheld, hkeeps⟩
  · rw [hrun]
    refine ⟨fun path node h => .inl (hkeeps path node h), ?_, fun _ => ⟨hkeeps, e, rfl⟩⟩
    intro hresult
    cases hresult
  · rw [hrun]
    refine ⟨?_, ?_, ?_⟩
    · intro path node hget
      rcases removed_of_executeLocked lock stop fs' path with heq | ⟨hnone, f, hf, root, content, hpath, hfile⟩
      · exact .inl (heq.trans (hkeeps path node hget))
      · rw [hkeeps path node hget] at hfile
        exact .inr ⟨hnone, f, hf, root, content, hpath, hget.trans hfile⟩
    · intro hresult stops attempt hfrees hfree
      have hready := (ready_of_interrupted hplan hheld hresult).retries hplan hheld hfrees
      rw [hready.execute hplan hheld hfree]
      exact (hready.executeLocked hplan hheld none).2 rfl
    · rintro ⟨kind, path, root, fp, content, hpath, hget, hother⟩
      obtain ⟨e, he⟩ := refused_of_other hpath (hkeeps path _ hget) hother lock stop
      rw [he]
      exact ⟨hkeeps, e, rfl⟩

/-- A history with its timing, stopped when the history is gone. -/
def sampleId : String := "00000000-0000-0000-0000-000000000001"

def samplePlan : DeletionPlan where
  version := 1
  id := sampleId
  root := ⟨[.rootDir, .normal "sessions"], some ⟨none, none, some 1⟩⟩
  timings := ⟨[.rootDir, .normal "timings"], some ⟨none, none, some 2⟩⟩
  primary := some [.normal ("a_" ++ sampleId ++ ".jsonl")]
  files := [⟨.primary, 1, none, none, none, some 3⟩, ⟨.timing, 0, none, none, none, some 4⟩]

def sampleFiles : FileSystem :=
  ((((Table.empty.put [.rootDir] (.dir ⟨none, none, some 0⟩)).put
    samplePlan.root.path (.dir ⟨none, none, some 1⟩)).put
    samplePlan.timings.path (.dir ⟨none, none, some 2⟩)).put
    (samplePlan.root.path ++ [.normal ("a_" ++ sampleId ++ ".jsonl")])
      (.file ⟨1, none, none, none, some 3⟩ [10])).put
    (samplePlan.timings.path ++ [.normal (sampleId ++ ".json")])
      (.file ⟨0, none, none, none, some 4⟩ [])

def sampleLine (line : List UInt8) : Option Value :=
  if line = [10] then
    some (.object [("kind", .string "header"), ("version", .number (.posInt 4)),
      ("id", .string sampleId)])
  else none

def sampleAttempt : LockAttempt := ⟨false, 0, none, none, none, some 5⟩

theorem run_retries_sample : ∃ path root, samplePlan.path .primary = some (path, root) ∧
    (samplePlan.execute sampleLine sampleAttempt none
      (samplePlan.run sampleLine (.persisted sampleAttempt) (some 1) sampleFiles).files).files.get
        path = none :=
  have hpath : samplePlan.path .primary = some (samplePlan.root.path ++
      [.normal ("a_" ++ sampleId ++ ".jsonl")], samplePlan.root) := by decide +kernel
  ⟨_, _, hpath, ((run_retries (by decide +kernel) (.persisted sampleAttempt) (some 1)
    sampleFiles).2.1 rfl [] sampleAttempt (fun _ h => absurd h List.not_mem_nil) rfl).2
      .primary _ _ hpath⟩

end DeletionPlan

end Deletion
