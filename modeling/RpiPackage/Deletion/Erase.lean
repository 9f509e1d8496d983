import RpiPackage.Deletion.Execute

/-!
# Removing a file

What a deletion finds once one of the files is gone: the directories are as they were, every other
file is still the same, and a scan sees no history and no companion that it did not see before.
-/

namespace Deletion

open Json Result Service

namespace FileSystem

variable {fs : FileSystem} {path q : PathBuf} {root : DirectoryAnchor}

/-! ### Single paths -/

lemma metadata_eq_ok {o : Option Node} :
    fs.metadata path = .ok o ↔ fs.get path = o ∧ o ≠ some .symlink := by
  unfold metadata
  split
  · rename_i heq
    rw [heq]
    constructor
    · intro h
      cases h
    · rintro ⟨rfl, hne⟩
      exact absurd rfl hne
  · rename_i hne
    rw [Except.ok.injEq]
    constructor
    · rintro rfl
      exact ⟨rfl, hne⟩
    · exact fun h => h.1

lemma metadata_erase {o : Option Node} (h : fs.metadata path = .ok o) (q : PathBuf) :
    metadata (fs.erase q) path = .ok (if path = q then none else o) := by
  obtain ⟨hget, hne⟩ := metadata_eq_ok.mp h
  rw [metadata_eq_ok]
  by_cases heq : path = q
  · rw [if_pos heq, heq, Table.get_erase_self]
    exact ⟨rfl, fun hnone => absurd hnone (Option.some_ne_none _).symm⟩
  · rw [if_neg heq, Table.get_erase_of_ne heq]
    exact ⟨hget, hne⟩

lemma checkParts_erase {current : PathBuf} {parts : List Component}
    (h : fs.checkParts current parts = .ok ()) (q : PathBuf) :
    checkParts (fs.erase q) current parts = .ok () := by
  induction parts generalizing current with
  | nil => rfl
  | cons part parts ih =>
    rw [checkParts, check_bind_eq_ok] at h ⊢
    obtain ⟨hpart, h⟩ := h
    obtain ⟨node, hnode, h⟩ := bind_eq_ok.mp h
    refine ⟨hpart, ?_⟩
    rw [metadata_erase hnode, ok_bind]
    exact ih h

lemma checkComponents_erase (h : fs.checkComponents path = .ok ()) (q : PathBuf) :
    checkComponents (fs.erase q) path = .ok () := by
  rw [checkComponents, check_bind_eq_ok] at h ⊢
  exact ⟨h.1, checkParts_erase h.2 q⟩

lemma inspect_eq_ok {o : Option Fingerprint} :
    fs.inspect path root = .ok o ↔
      root.path.isPrefixOf path = true ∧ fs.checkComponents path = .ok () ∧
        ((o = none ∧ fs.get path = none) ∨
          ∃ fp content, o = some fp ∧ fs.get path = some (.file fp content)) := by
  have hcanonical : ∀ fp content, fs.get path = some (.file fp content) →
      fs.canonicalize path = .ok path := by
    intro fp content hget
    rw [canonicalize, hget]
    rfl
  unfold inspect
  simp only [check_bind_eq_ok, failIf_eq_ok, Bool.not_eq_false]
  constructor
  · rintro ⟨hstart, hcomponents, h⟩
    refine ⟨hstart, hcomponents, ?_⟩
    obtain ⟨node, hnode, h⟩ := bind_eq_ok.mp h
    obtain ⟨hget, -⟩ := metadata_eq_ok.mp hnode
    split at h
    · exact .inl ⟨(Except.ok.inj h).symm, hget⟩
    · rename_i fp content
      rw [hcanonical fp content hget, ok_bind, check_bind_eq_ok] at h
      exact .inr ⟨fp, content, (Except.ok.inj h.2).symm, hget⟩
    · cases h
  · rintro ⟨hstart, hcomponents, ⟨rfl, hget⟩ | ⟨fp, content, rfl, hget⟩⟩
    · refine ⟨hstart, hcomponents, ?_⟩
      rw [metadata_eq_ok.mpr ⟨hget, (Option.some_ne_none _).symm⟩]
      rfl
    · refine ⟨hstart, hcomponents, ?_⟩
      have hmetadata : fs.metadata path = .ok (some (.file fp content)) :=
        metadata_eq_ok.mpr ⟨hget, fun h => Node.noConfusion (Option.some.inj h)⟩
      rw [hmetadata, ok_bind]
      dsimp only
      rw [hcanonical fp content hget, ok_bind, check_bind_eq_ok, failIf_eq_ok]
      exact ⟨by rw [hstart]; decide, rfl⟩

lemma inspect_erase {o : Option Fingerprint} (h : fs.inspect path root = .ok o) (q : PathBuf) :
    inspect (fs.erase q) path root = .ok (if path = q then none else o) := by
  obtain ⟨hstart, hcomponents, hnode⟩ := inspect_eq_ok.mp h
  refine inspect_eq_ok.mpr ⟨hstart, checkComponents_erase hcomponents q, ?_⟩
  by_cases heq : path = q
  · rw [if_pos heq, heq, Table.get_erase_self]
    exact .inl ⟨rfl, rfl⟩
  · rw [if_neg heq, Table.get_erase_of_ne heq]
    exact hnode

lemma check_eq_ok {a : DirectoryAnchor} :
    a.check fs = .ok () ↔ fs.checkComponents a.path = .ok () ∧
      ((∃ identity, fs.get a.path = some (.dir identity) ∧ a.identity = some identity) ∨
        (fs.get a.path = none ∧ a.identity = none)) := by
  have hcanonical : ∀ node, fs.get a.path = some node → fs.canonicalize a.path = .ok a.path := by
    intro node hget
    rw [canonicalize, hget]
    rfl
  rw [DirectoryAnchor.check, check_bind_eq_ok]
  constructor
  · rintro ⟨hcomponents, h⟩
    refine ⟨hcomponents, ?_⟩
    obtain ⟨node, hnode, h⟩ := bind_eq_ok.mp h
    obtain ⟨hget, -⟩ := metadata_eq_ok.mp hnode
    split at h
    · rename_i identity expected hidentity
      rw [check_bind_eq_ok, failIf_eq_ok, not_not] at h
      exact .inl ⟨identity, hget, by rw [hidentity, h.1]⟩
    · rename_i hidentity
      exact .inr ⟨hget, hidentity⟩
    · cases h
  · rintro ⟨hcomponents, ⟨identity, hget, hidentity⟩ | ⟨hget, hidentity⟩⟩
    · refine ⟨hcomponents, ?_⟩
      have hmetadata : fs.metadata a.path = .ok (some (.dir identity)) :=
        metadata_eq_ok.mpr ⟨hget, fun h => Node.noConfusion (Option.some.inj h)⟩
      rw [hmetadata, ok_bind, hidentity]
      dsimp only
      rw [check_bind_eq_ok, failIf_eq_ok, not_not, hcanonical _ hget, ok_bind, failIf_eq_ok, not_not]
      exact ⟨rfl, rfl⟩
    · refine ⟨hcomponents, ?_⟩
      rw [metadata_eq_ok.mpr ⟨hget, (Option.some_ne_none _).symm⟩, ok_bind, hidentity]

/-- A directory is not a file. -/
lemma check_erase {a : DirectoryAnchor} (h : a.check fs = .ok ()) {fp : Fingerprint}
    {content : List UInt8} (hq : fs.get q = some (.file fp content)) :
    a.check (fs.erase q) = .ok () := by
  obtain ⟨hcomponents, hnode⟩ := check_eq_ok.mp h
  have hne : a.path ≠ q := by
    rintro rfl
    rcases hnode with ⟨identity, hget, -⟩ | ⟨hget, -⟩
    · rw [hget] at hq
      cases hq
    · rw [hget] at hq
      cases hq
  refine check_eq_ok.mpr ⟨checkComponents_erase hcomponents q, ?_⟩
  rw [Table.get_erase_of_ne hne]
  exact hnode

/-! ### Scans -/

lemma path_eq_of_fileName {dir path : PathBuf} {name : String} (hdir : path.dropLast = dir)
    (hname : PathBuf.fileName path = some name) : path = dir ++ [.normal name] := by
  unfold PathBuf.fileName at hname
  split at hname
  · rename_i last hlast
    obtain rfl := Option.some.inj hname
    rw [← hdir]
    exact (List.dropLast_append_getLast? _ hlast).symm
  · cases hname

lemma readDir_erase {dir : PathBuf} {names : List String} (h : fs.readDir dir = .ok names)
    {fp : Fingerprint} {content : List UInt8} (hq : fs.get q = some (.file fp content)) :
    readDir (fs.erase q) dir = .ok (names.filter fun name => dir ++ [.normal name] != q) := by
  unfold readDir at h
  split at h
  · rename_i identity hget
    obtain rfl := Except.ok.inj h
    have hne : dir ≠ q := by
      rintro rfl
      rw [hget] at hq
      cases hq
    rw [readDir, Table.get_erase_of_ne hne, hget]
    refine congrArg Except.ok ?_
    rw [Table.keys_erase, List.filterMap_filter, List.filter_filterMap]
    refine List.filterMap_congr ?_
    intro path _
    by_cases hdir : path.dropLast = dir
    · rw [if_pos hdir]
      cases hname : PathBuf.fileName path with
      | none => simp
      | some name =>
        rw [Option.filter_some, ← path_eq_of_fileName hdir hname]
        by_cases hpath : path = q
        · simp [hpath]
        · simp [hpath]
    · simp [if_neg hdir]
  · cases h

/-- A scan that has seen no more than another one, and has the same directories before it. -/
structure Scan.Follows (s t : Scan) : Prop where
  count : t.count ≤ s.count
  found : t.found = none ∨ t.found = s.found
  orphans : ∀ p ∈ t.orphans, p ∈ s.orphans
  next : t.next = s.next

variable {id : String} {depth : Nat} {dir : PathBuf} {s t u : Scan} {name : String}

/-- Everything that a name can do to a scan. -/
inductive Seen (fs : FileSystem) (root : DirectoryAnchor) (id : String) (depth : Nat)
    (dir : PathBuf) (s : Scan) (name : String) : Scan → Prop where
  | directory (identity : DirectoryIdentity)
      (node : fs.metadata (dir ++ [.normal name]) = .ok (some (.dir identity)))
      (allowed : depth = 0 ∨ (depth = 1 ∧ (PathBuf.fileName dir).any canonicalId = true)) :
      Seen fs root id depth dir s name
        { s with count := s.count + 1, next := s.next ++ [dir ++ [.normal name]] }
  | history (fp : Fingerprint) (content : List UInt8)
      (node : fs.metadata (dir ++ [.normal name]) = .ok (some (.file fp content)))
      (primary : primaryName name id = true)
      (relative : validRelative ((dir ++ [Component.normal name]).drop root.path.length) id = true)
      (inspected : fs.inspect (dir ++ [.normal name]) root = .ok (some fp))
      (new : s.found = none) :
      Seen fs root id depth dir s name
        { s with count := s.count + 1, found := some ((dir ++ [Component.normal name]).drop root.path.length) }
  | orphan (fp : Fingerprint) (content : List UInt8)
      (node : fs.metadata (dir ++ [.normal name]) = .ok (some (.file fp content)))
      (other : primaryName name id = false) (companion : orphanName name id = true)
      (inspected : fs.inspect (dir ++ [.normal name]) root = .ok (some fp)) :
      Seen fs root id depth dir s name
        { s with count := s.count + 1, orphans := s.orphans ++ [dir ++ [.normal name]] }
  | ignored (node : Node) (notDir : ∀ identity, node ≠ .dir identity)
      (found : fs.metadata (dir ++ [.normal name]) = .ok (some node))
      (other : primaryName name id = false) (another : orphanName name id = false) :
      Seen fs root id depth dir s name { s with count := s.count + 1 }

lemma seen_of_scanEntry (h : fs.scanEntry root id depth dir s name = .ok u) :
    s.count + 1 ≤ maxDirEntries ∧ Seen fs root id depth dir s name u := by
  rw [scanEntry, check_bind_eq_ok, failIf_eq_ok] at h
  obtain ⟨hcount, h⟩ := h
  refine ⟨Nat.le_of_not_lt hcount, ?_⟩
  obtain ⟨node, hnode, h⟩ := bind_eq_ok.mp h
  obtain ⟨hget, -⟩ := metadata_eq_ok.mp hnode
  have hinspected : ∀ o, fs.inspect (dir ++ [.normal name]) root = .ok o → ∀ fp, o = some fp →
      ∃ content, node = some (.file fp content) := by
    rintro o ho fp rfl
    obtain ⟨-, -, ⟨hnone, -⟩ | ⟨fp', content, hsome, hfile⟩⟩ := inspect_eq_ok.mp ho
    · cases hnone
    · obtain rfl := Option.some.inj hsome
      exact ⟨content, hget.symm.trans hfile⟩
  split at h
  · cases h
  · rename_i identity
    split at h
    · rename_i hallowed
      obtain rfl := Except.ok.inj h
      exact .directory identity hnode hallowed
    · cases h
  · rename_i other hdir
    split at h
    · rename_i hprimary
      simp only [bind_eq_ok, failIf_eq_ok, okOr_eq_ok, Bool.not_eq_false, Bool.not_eq_true,
        Option.isSome_eq_false_iff, Option.isNone_iff_eq_none, pure_eq_ok, Except.ok.injEq] at h
      obtain ⟨_, hrelative, o, hinspect, fp, rfl, _, hnew, rfl⟩ := h
      obtain ⟨content, hfile⟩ := hinspected _ hinspect fp rfl
      rw [hfile] at hnode
      exact .history fp content hnode hprimary hrelative hinspect hnew
    · rename_i hprimary
      split at h
      · rename_i horphan
        simp only [bind_eq_ok, okOr_eq_ok, pure_eq_ok, Except.ok.injEq] at h
        obtain ⟨o, hinspect, fp, rfl, rfl⟩ := h
        obtain ⟨content, hfile⟩ := hinspected _ hinspect fp rfl
        rw [hfile] at hnode
        exact .orphan fp content hnode (by simpa using hprimary) horphan hinspect
      · rename_i horphan
        obtain rfl := Except.ok.inj h
        exact .ignored other (fun identity heq => hdir identity heq) hnode
          (by simpa using hprimary) (by simpa using horphan)

lemma scanEntry_of_seen (hcount : s.count + 1 ≤ maxDirEntries) (h : Seen fs root id depth dir s name u) :
    fs.scanEntry root id depth dir s name = .ok u := by
  rw [scanEntry, check_bind_eq_ok, failIf_eq_ok]
  refine ⟨Nat.not_lt_of_le hcount, ?_⟩
  dsimp only
  cases h with
  | directory identity hnode hallowed =>
    rw [hnode, ok_bind]
    exact if_pos hallowed
  | history fp content hnode hprimary hrelative hinspect hnew =>
    rw [hnode, ok_bind]
    dsimp only
    rw [if_pos hprimary, hrelative, hinspect, hnew]
    rfl
  | orphan fp content hnode hother horphan hinspect =>
    rw [hnode, ok_bind]
    dsimp only
    rw [hother, if_neg Bool.false_ne_true, if_pos horphan, hinspect]
    rfl
  | ignored node hdir hnode hother hanother =>
    rw [hnode, ok_bind]
    cases node with
    | dir identity => exact absurd rfl (hdir identity)
    | file | symlink | special =>
      dsimp only
      rw [hother, if_neg Bool.false_ne_true, hanother, if_neg Bool.false_ne_true]
      rfl

/-- A name that is still there does what it did. -/
lemma Seen.follows (h : Seen fs root id depth dir s name u) (hst : s.Follows t)
    (hne : dir ++ [.normal name] ≠ q) :
    ∃ v, Seen (fs.erase q) root id depth dir t name v ∧ u.Follows v := by
  have hnode : ∀ node, fs.metadata (dir ++ [.normal name]) = .ok node →
      metadata (fs.erase q) (dir ++ [.normal name]) = .ok node := by
    intro node hmetadata
    rw [metadata_erase hmetadata q, if_neg hne]
  have hinspect : ∀ o, fs.inspect (dir ++ [.normal name]) root = .ok o →
      inspect (fs.erase q) (dir ++ [.normal name]) root = .ok o := by
    intro o ho
    rw [inspect_erase ho q, if_neg hne]
  cases h with
  | directory identity node allowed =>
    refine ⟨_, .directory identity (hnode _ node) allowed, ?_⟩
    exact ⟨Nat.succ_le_succ hst.count, hst.found, hst.orphans,
      congrArg (· ++ [dir ++ [.normal name]]) hst.next⟩
  | history fp content node primary relative inspected new =>
    have hnew : t.found = none := by
      rcases hst.found with hnone | heq
      · exact hnone
      · rw [heq, new]
    refine ⟨_, .history fp content (hnode _ node) primary relative (hinspect _ inspected) hnew, ?_⟩
    exact ⟨Nat.succ_le_succ hst.count, .inr rfl, hst.orphans, hst.next⟩
  | orphan fp content node other companion inspected =>
    refine ⟨_, .orphan fp content (hnode _ node) other companion (hinspect _ inspected), ?_⟩
    refine ⟨Nat.succ_le_succ hst.count, hst.found, ?_, hst.next⟩
    intro p hp
    rcases List.mem_append.mp hp with hp | hp
    · exact List.mem_append_left _ (hst.orphans p hp)
    · exact List.mem_append_right _ hp
  | ignored node notDir found other another =>
    refine ⟨_, .ignored node notDir (hnode _ found) other another, ?_⟩
    exact ⟨Nat.succ_le_succ hst.count, hst.found, hst.orphans, hst.next⟩

/-- A file that is gone is seen no more. -/
lemma Seen.follows_gone (h : Seen fs root id depth dir s name u) (hst : s.Follows t)
    {fp : Fingerprint} {content : List UInt8}
    (hq : fs.get (dir ++ [.normal name]) = some (.file fp content)) : u.Follows t := by
  cases h with
  | directory identity node allowed =>
    rw [(metadata_eq_ok.mp node).1] at hq
    cases hq
  | history fp content node primary relative inspected new =>
    refine ⟨hst.count.trans (Nat.le_succ _), ?_, hst.orphans, hst.next⟩
    rcases hst.found with hnone | heq
    · exact .inl hnone
    · exact .inl (heq.trans new)
  | orphan fp content node other companion inspected =>
    exact ⟨hst.count.trans (Nat.le_succ _), hst.found,
      fun p hp => List.mem_append_left _ (hst.orphans p hp), hst.next⟩
  | ignored node notDir found other another =>
    exact ⟨hst.count.trans (Nat.le_succ _), hst.found, hst.orphans, hst.next⟩

variable {fp : Fingerprint} {content : List UInt8}

lemma scanDir_erase (hq : fs.get q = some (.file fp content)) (hst : s.Follows t)
    (h : fs.scanDir root id depth s dir = .ok u) :
    ∃ v, scanDir (fs.erase q) root id depth t dir = .ok v ∧ u.Follows v := by
  obtain ⟨names, hnames, h⟩ := bind_eq_ok.mp h
  rw [scanDir, readDir_erase hnames hq, ok_bind]
  refine foldlM_filter_follows ?_ ?_ hst h
  · intro name _ hkeep s t u hst hentry
    obtain ⟨hcount, hseen⟩ := seen_of_scanEntry hentry
    obtain ⟨v, hv, hfollows⟩ := hseen.follows hst (bne_iff_ne.mp hkeep)
    exact ⟨v, scanEntry_of_seen ((Nat.succ_le_succ hst.count).trans hcount) hv, hfollows⟩
  · intro name _ hdrop s t u hst hentry
    have heq : dir ++ [.normal name] = q := by simpa using hdrop
    rw [← heq] at hq
    exact (seen_of_scanEntry hentry).2.follows_gone hst hq

lemma scanLevels_erase (hq : fs.get q = some (.file fp content)) {levels : Nat} (hst : s.Follows t)
    (h : fs.scanLevels root id levels depth s = .ok u) :
    ∃ v, scanLevels (fs.erase q) root id levels depth t = .ok v ∧ u.Follows v := by
  induction levels generalizing depth s t with
  | zero =>
    obtain rfl := Except.ok.inj h
    exact ⟨t, rfl, hst⟩
  | succ levels ih =>
    obtain ⟨w, hlevel, h⟩ := bind_eq_ok.mp h
    have hstart : Scan.Follows { s with next := [] } { t with next := [] } :=
      ⟨hst.count, hst.found, hst.orphans, rfl⟩
    obtain ⟨v, hv, hfollows⟩ := foldlM_filter_follows (p := fun _ => true)
      (f := fs.scanDir root id depth) (g := scanDir (fs.erase q) root id depth)
      (fun dir _ _ s t u hst hdir => scanDir_erase hq hst hdir)
      (fun _ _ hfalse => absurd hfalse.symm Bool.false_ne_true) hstart hlevel
    rw [List.filter_true, ← hst.next] at hv
    obtain ⟨v', hv', hfollows'⟩ := ih hfollows h
    refine ⟨v', ?_, hfollows'⟩
    rw [scanLevels, hst.next, ← hst.next, hv, ok_bind]
    exact hv'

/-- A scan still succeeds once a file is gone, and sees nothing new. -/
lemma scan_erase (hq : fs.get q = some (.file fp content)) (h : fs.scan root id = .ok s) :
    ∃ t, scan (fs.erase q) root id = .ok t ∧ s.Follows t :=
  scanLevels_erase hq ⟨Nat.le_refl _, .inl rfl, fun _ hp => hp, rfl⟩ h

end FileSystem

end Deletion
