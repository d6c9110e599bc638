import Autobackup.LiveSymlink.AtomicUpdate

/-!
# The symlink never dangles

As long as no run unpacks into the directory to which the symlink leads, and none deletes what a
symlink was led to by others around its own directory, the symlink always leads to a whole commit
(`never_dangles_of_apart`).  The directories are named after the second: of two runs in one second,
the later one deletes what it has just put there (`not_safe_sameSecond`).

Any number of runs follow one another, one at a time, and a run may stop at any of its steps.  A
directory that is being unpacked into has part of the commit, and it is not safe to be led to that.
Left out are the checks at the start of the program and permissions.
-/

namespace Autobackup.LiveSymlink

open QString

namespace Arguments

variable {a : Arguments} {st : State} {tree tree' : Tree} {r r' : Run} {p path : Path}
  {target : Option Path} {written rest : List (Path × SymlinkEntry Text Text)}

/-! ## What is unpacked and what is live -/

/-- These entries of the commit are there. -/
structure Unpacked (a : Arguments) (tree : Tree) (r : Run)
    (written : List (Path × SymlinkEntry Text Text)) : Prop where
  directory : tree.IsRealDirectory (a.latestCommitArchiveDest r)
  entries : ∀ entry ∈ written, tree (a.latestCommitArchiveDest r ++ entry.1) = some entry.2

/-- The symlink leads to the directory of the run. -/
structure Live (a : Arguments) (tree : Tree) (r : Run) : Prop where
  symlink : tree a.symlinkToAtomicallyUpdate = some (.symlink (a.latestCommitArchiveDestText r))
  directory : tree.IsRealDirectory a.directoryContainingSymlinkToAtomicallyUpdate
  unpacked : Unpacked a tree r r.latestCommit.entries
  text : a.tempDirForBothCloneDestinationsAndSymlinkPreparation.path
    a.directoryContainingSymlinkToAtomicallyUpdate = a.tempDir
  notInside : ¬ a.latestCommitArchiveDest r <+: a.symlinkToAtomicallyUpdate

lemma latestCommitArchiveDestText_path (r : Run) (directory : Path) :
    (a.latestCommitArchiveDestText r).path directory =
      a.tempDirForBothCloneDestinationsAndSymlinkPreparation.path directory ++ [r.repoAt] := by
  rw [LinkText.path, LinkText.path, latestCommitArchiveDestText]
  split
  · rfl
  · rw [List.append_assoc]

lemma Live.resolve (h : Live a tree r) :
    tree.resolve a.symlinkToAtomicallyUpdate = some (a.latestCommitArchiveDest r) := by
  have htarget : (a.latestCommitArchiveDestText r).path
      a.directoryContainingSymlinkToAtomicallyUpdate = a.latestCommitArchiveDest r := by
    rw [latestCommitArchiveDestText_path, h.text]
    rfl
  rw [← htarget]
  refine SymlinkTree.resolve_symlink h.directory h.symlink ?_
  rw [htarget]
  exact h.unpacked.directory

lemma Live.serves (h : Live a tree r) : a.Serves tree r.latestCommit :=
  ⟨_, h.resolve,
    h.unpacked.directory.entry (List.prefix_refl _) (by simp [latestCommitArchiveDest]),
    h.unpacked.entries⟩

/-- Nothing above or below the directory of the run has changed. -/
lemma Unpacked.frame (h : Unpacked a tree r written)
    (hkeeps : ∀ p entry, tree p = some entry → p <+: a.latestCommitArchiveDest r ∨
      a.latestCommitArchiveDest r <+: p → tree' p = some entry) : Unpacked a tree' r written := by
  refine ⟨fun p hp hne => ?_, fun entry hentry => ?_⟩
  · exact hkeeps p _ (h.directory p hp hne) (.inl ((List.mem_inits p _).1 hp))
  · exact hkeeps _ _ (h.entries entry hentry) (.inr (List.prefix_append _ _))

/-- Nor has the symlink. -/
lemma Live.frame (h : Live a tree r)
    (hkeeps : ∀ p entry, tree p = some entry → p <+: a.symlinkToAtomicallyUpdate ∨
      p <+: a.latestCommitArchiveDest r ∨ a.latestCommitArchiveDest r <+: p →
        tree' p = some entry) : Live a tree' r where
  symlink := hkeeps _ _ h.symlink (.inl (List.prefix_refl _))
  directory := fun p hp hne =>
    have hprefix : p <+: a.symlinkToAtomicallyUpdate :=
      ((List.mem_inits p _).1 hp).trans (List.prefix_append _ _)
    hkeeps p _ (h.directory p hp hne) (.inl hprefix)
  unpacked := h.unpacked.frame fun p entry hentry hp => hkeeps p entry hentry (.inr hp)
  text := h.text
  notInside := h.notInside

/-! ## The directories of two runs -/

lemma eq_of_latestCommitArchiveDest_isPrefix
    (h : a.latestCommitArchiveDest r <+: a.latestCommitArchiveDest r') :
    a.latestCommitArchiveDest r = a.latestCommitArchiveDest r' :=
  h.eq_of_length (by simp [latestCommitArchiveDest])

/-- What is below the directory of one run is not around that of another. -/
lemma not_around_of_below (hne : a.latestCommitArchiveDest r' ≠ a.latestCommitArchiveDest r)
    (hbelow : a.latestCommitArchiveDest r <+: p) :
    ¬ (p <+: a.latestCommitArchiveDest r' ∨ a.latestCommitArchiveDest r' <+: p) := by
  rintro (habove | hbelow')
  · exact hne (eq_of_latestCommitArchiveDest_isPrefix (hbelow.trans habove)).symm
  · rcases List.prefix_or_prefix_of_prefix hbelow hbelow' with hprefix | hprefix
    · exact hne (eq_of_latestCommitArchiveDest_isPrefix hprefix).symm
    · exact hne (eq_of_latestCommitArchiveDest_isPrefix hprefix)

lemma symlinkToAtomicallyUpdate_ne : a.symlinkToAtomicallyUpdate ≠ a.tempSymbolicLink := fun h =>
  a.outside (List.append_inj' h rfl).1

/-! ## What a step leaves as it is -/

/-- `tar` writes below the directory of its run. -/
lemma extract_eq {entry : SymlinkEntry Text Text} (h : extract tree path entry = some tree') :
    tree' = tree.put path entry := by
  rw [extract] at h
  split at h
  · exact (Option.some.inj h).symm
  · split at h
    · exact (Option.some.inj h).symm
    · exact absurd h (Option.some_ne_none _).symm

lemma Live.extract {entry : SymlinkEntry Text Text} (h : Live a tree r')
    (hne : a.latestCommitArchiveDest r' ≠ a.latestCommitArchiveDest r)
    (hinside : ¬ a.latestCommitArchiveDest r <+: a.symlinkToAtomicallyUpdate)
    (hextract : LiveSymlink.extract tree (a.latestCommitArchiveDest r ++ path) entry = some tree') :
    Live a tree' r' := by
  rw [extract_eq hextract]
  refine h.frame fun p old hold hp => ?_
  have hother : p ≠ a.latestCommitArchiveDest r ++ path := by
    rintro rfl
    rcases hp with hp | hp
    · exact hinside ((List.prefix_append _ _).trans hp)
    · exact not_around_of_below hne (List.prefix_append _ _) hp
  rw [SymlinkTree.put_of_ne hother, hold]

lemma Unpacked.extract {entry : Path × SymlinkEntry Text Text} (h : Unpacked a tree r written)
    (hentries : r.latestCommit.entries = written ++ entry :: rest)
    (hextract : LiveSymlink.extract tree (a.latestCommitArchiveDest r ++ entry.1) entry.2 =
      some tree') : Unpacked a tree' r (written ++ [entry]) := by
  rw [extract_eq hextract]
  have hmem : entry ∈ r.latestCommit.entries := by simp [hentries]
  refine ⟨fun p hp hne => ?_, fun old hold => ?_⟩
  · have hother : p ≠ a.latestCommitArchiveDest r ++ entry.1 := by
      rintro rfl
      have hlength := ((List.mem_inits _ _).1 hp).length_le
      have hpos := List.length_pos_of_ne_nil (r.latestCommit.inside entry hmem)
      rw [List.length_append] at hlength
      omega
    rw [SymlinkTree.put_of_ne hother]
    exact h.directory p hp hne
  · rcases List.mem_append.1 hold with hold | hold
    · have hother : a.latestCommitArchiveDest r ++ old.1 ≠
          a.latestCommitArchiveDest r ++ entry.1 := by
        intro heq
        have hnodup := r.latestCommit.nodup
        rw [hentries, List.map_append, List.nodup_append] at hnodup
        exact hnodup.2.2 old.1 (List.mem_map_of_mem hold) entry.1 (by simp)
          (List.append_cancel_left heq)
      rw [SymlinkTree.put_of_ne hother]
      exact h.entries old hold
    · obtain rfl := List.mem_singleton.1 hold
      rw [SymlinkTree.put_self]

/-- `QFile::remove` of the temporary symlink takes away no directory. -/
lemma removeFile_of_ne {entry : SymlinkEntry Text Text} (hentry : tree p = some entry)
    (h : p ≠ path ∨ entry = .directory) : removeFile tree path p = some entry := by
  rw [removeFile]
  split
  · exact hentry
  · next hne =>
      rcases h with h | rfl
      · rw [SymlinkTree.erase_of_ne h, hentry]
      · have hother : p ≠ path := by
          rintro rfl
          exact hne hentry
        rw [SymlinkTree.erase_of_ne hother, hentry]

/-- The temporary symlink is not around the directory of a run, unless it is a directory. -/
lemma eq_directory_of_tempSymbolicLink {entry : SymlinkEntry Text Text}
    (h : tree.IsRealDirectory (a.latestCommitArchiveDest r))
    (hentry : tree a.tempSymbolicLink = some entry)
    (hp : a.tempSymbolicLink <+: a.latestCommitArchiveDest r ∨
      a.latestCommitArchiveDest r <+: a.tempSymbolicLink) : entry = .directory := by
  have hlength : a.tempSymbolicLink.length = (a.latestCommitArchiveDest r).length := by
    simp [tempSymbolicLink, latestCommitArchiveDest]
  have heq : a.tempSymbolicLink = a.latestCommitArchiveDest r := by
    rcases hp with hp | hp
    · exact hp.eq_of_length hlength
    · exact (hp.eq_of_length hlength.symm).symm
  have hdirectory := h.entry (List.prefix_refl _) (by simp [latestCommitArchiveDest])
  rw [← heq, hentry] at hdirectory
  exact Option.some.inj hdirectory

lemma Unpacked.removeFile (h : Unpacked a tree r written) :
    Unpacked a (LiveSymlink.removeFile tree a.tempSymbolicLink) r written := by
  refine h.frame fun p entry hentry hp => removeFile_of_ne hentry ?_
  by_cases heq : p = a.tempSymbolicLink
  · subst heq
    exact .inr (eq_directory_of_tempSymbolicLink h.directory hentry hp)
  · exact .inl heq

lemma Live.removeFile (h : Live a tree r) :
    Live a (LiveSymlink.removeFile tree a.tempSymbolicLink) r := by
  refine h.frame fun p entry hentry hp => removeFile_of_ne hentry ?_
  by_cases heq : p = a.tempSymbolicLink
  · subst heq
    rcases hp with hp | hp
    · right
      rcases List.prefix_concat_iff.1 hp with hp | hp
      · exact absurd hp.symm symlinkToAtomicallyUpdate_ne
      · have hdirectory := h.directory.entry hp (by simp [tempSymbolicLink])
        exact Option.some.inj (hentry.symm.trans hdirectory)
    · exact .inr (eq_directory_of_tempSymbolicLink h.unpacked.directory hentry hp)
  · exact .inl heq

/-- The temporary symlink comes where nothing was. -/
lemma put_of_none {entry old : SymlinkEntry Text Text} (hnone : tree path = none)
    (hold : tree p = some old) : tree.put path entry p = some old := by
  have hother : p ≠ path := by
    rintro rfl
    exact Option.some_ne_none old (hold.symm.trans hnone)
  rw [SymlinkTree.put_of_ne hother, hold]

/-- `mv` puts the symlink in its place. -/
lemma Unpacked.live_mv (h : Unpacked a tree r r.latestCommit.entries)
    (htext : a.tempDirForBothCloneDestinationsAndSymlinkPreparation.path
      a.directoryContainingSymlinkToAtomicallyUpdate = a.tempDir)
    (hinside : ¬ a.latestCommitArchiveDest r <+: a.symlinkToAtomicallyUpdate)
    (hlink : tree a.tempSymbolicLink = some (.symlink (a.latestCommitArchiveDestText r)))
    (hmv : a.atomicMoveOverwritingDestinationPlx tree = some tree') : Live a tree' r := by
  rw [atomicMoveOverwritingDestinationPlx, hlink] at hmv
  simp only at hmv
  split at hmv
  · next hdirectory =>
      obtain rfl := Option.some.inj hmv
      have hkeeps : ∀ p entry, tree p = some entry → p ≠ a.symlinkToAtomicallyUpdate →
          p ≠ a.tempSymbolicLink →
          ((tree.put a.symlinkToAtomicallyUpdate (.symlink (a.latestCommitArchiveDestText r))).erase
            a.tempSymbolicLink) p = some entry := fun p entry hentry hsymlink htemp => by
        rw [SymlinkTree.erase_of_ne htemp, SymlinkTree.put_of_ne hsymlink, hentry]
      refine ⟨?_, ?_, h.frame fun p entry hentry hp => ?_, htext, hinside⟩
      · rw [SymlinkTree.erase_of_ne symlinkToAtomicallyUpdate_ne, SymlinkTree.put_self]
      · intro p hp hne
        have hentry := hdirectory.1 p hp hne
        refine hkeeps p _ hentry ?_ ?_
        · rintro rfl
          exact hdirectory.2 hentry
        · rintro rfl
          rw [hlink] at hentry
          exact nomatch Option.some.inj hentry
      · refine hkeeps p entry hentry ?_ ?_
        · rintro rfl
          rcases hp with hp | hp
          · exact hdirectory.2 (h.directory.entry hp (by simp [symlinkToAtomicallyUpdate]))
          · exact hinside hp
        · rintro rfl
          obtain rfl := eq_directory_of_tempSymbolicLink h.directory hentry hp
          rw [hlink] at hentry
          exact nomatch Option.some.inj hentry
  · exact absurd hmv (Option.some_ne_none _).symm

lemma Live.erase (h : Live a tree r) (hapart : a.TargetApart r target) {directory : Path}
    (hdirectory : directory ∈ target) (hpath : directory <+: path) :
    Live a (tree.erase path) r := by
  obtain ⟨hnotAbove, hnotBelow, hnotSymlink⟩ := hapart directory hdirectory
  refine h.frame fun p entry hentry hp => ?_
  have hother : p ≠ path := by
    rintro rfl
    rcases hp with hp | hp | hp
    · exact hnotSymlink (hpath.trans hp)
    · exact hnotAbove (hpath.trans hp)
    · rcases List.prefix_or_prefix_of_prefix hpath hp with h | h
      · exact hnotAbove h
      · exact hnotBelow h
  rw [SymlinkTree.erase_of_ne hother, hentry]

/-! ## Along a run -/

/-- A run that has not yet moved the symlink. -/
structure Running (a : Arguments) (st : State) (r : Run) : Prop where
  mem : r ∈ st.runs
  text : a.tempDirForBothCloneDestinationsAndSymlinkPreparation.path
    a.directoryContainingSymlinkToAtomicallyUpdate = a.tempDir
  notInside : ¬ a.latestCommitArchiveDest r <+: a.symlinkToAtomicallyUpdate
  live : st.hasSucceeded = true → ∃ r' ∈ st.runs, Live a st.tree r' ∧
    a.latestCommitArchiveDest r' ≠ a.latestCommitArchiveDest r

/-- What is known before each step. -/
def InStep (a : Arguments) (st : State) : Prop :=
  match st.phase with
  | .notRunning => st.hasSucceeded = true → ∃ r ∈ st.runs, Live a st.tree r
  | .mkpath r => Running a st r
  | .untar r rest => Running a st r ∧
      ∃ written, r.latestCommit.entries = written ++ rest ∧ Unpacked a st.tree r written
  | .canonicalFilePath r => Running a st r ∧ Unpacked a st.tree r r.latestCommit.entries
  | .removeTempSymbolicLink r target | .link r target =>
      Running a st r ∧ Unpacked a st.tree r r.latestCommit.entries ∧ a.TargetApart r target
  | .mv r target => Running a st r ∧ Unpacked a st.tree r r.latestCommit.entries ∧
      a.TargetApart r target ∧
      st.tree a.tempSymbolicLink = some (.symlink (a.latestCommitArchiveDestText r))
  | .removeRecursively r target => r ∈ st.runs ∧ Live a st.tree r ∧ a.TargetApart r target
  | .succeeded r => r ∈ st.runs ∧ Live a st.tree r

lemma Running.exists_live (h : Running a st r) (hsucceeded : st.hasSucceeded = true) :
    ∃ r ∈ st.runs, Live a st.tree r :=
  have ⟨r', hr', hlive, _⟩ := h.live hsucceeded
  ⟨r', hr', hlive⟩

lemma InStep.exists_live (h : InStep a st) (hsucceeded : st.hasSucceeded = true) :
    ∃ r ∈ st.runs, Live a st.tree r := by
  rw [InStep] at h
  split at h
  · exact h hsucceeded
  · exact h.exists_live hsucceeded
  · exact h.1.exists_live hsucceeded
  · exact h.1.exists_live hsucceeded
  · exact h.1.exists_live hsucceeded
  · exact h.1.exists_live hsucceeded
  · exact h.1.exists_live hsucceeded
  · exact ⟨_, h.1, h.2.1⟩
  · exact ⟨_, h.1, h.2⟩

lemma InStep.safe (h : InStep a st) : a.Safe st := by
  refine ⟨fun hsucceeded => ?_, fun r hphase => ?_⟩
  · obtain ⟨r, hr, hlive⟩ := h.exists_live hsucceeded
    exact ⟨r, hr, hlive.serves⟩
  · rw [InStep, hphase] at h
    exact h.2.serves

/-- A change of the tree that leaves what is live. -/
lemma Running.frame (h : Running a st r) {phase : Phase}
    (hlive : ∀ r', a.latestCommitArchiveDest r' ≠ a.latestCommitArchiveDest r →
      Live a st.tree r' → Live a tree' r') :
    Running a { st with tree := tree', phase := phase } r := by
  refine ⟨h.mem, h.text, h.notInside, fun hsucceeded => ?_⟩
  obtain ⟨r', hr', hold, hne⟩ := h.live hsucceeded
  exact ⟨r', hr', hlive r' hne hold, hne⟩

/-- A run that fails. -/
lemma Running.fails (h : Running a st r) : InStep a { st with phase := .notRunning } :=
  fun hsucceeded => h.exists_live hsucceeded

lemma InStep.start (h : InStep a st) (hapart : a.Apart st (.start r)) :
    InStep a { st with phase := .mkpath r, runs := st.runs ++ [r] } := by
  obtain ⟨htext, -, hinside, htarget⟩ := hapart
  refine ⟨List.mem_append_right _ (List.mem_singleton_self r), htext, hinside,
    fun hsucceeded => ?_⟩
  obtain ⟨r', hr', hlive⟩ := h.exists_live hsucceeded
  refine ⟨r', List.mem_append_left _ hr', hlive, fun heq => ?_⟩
  exact htarget _ hlive.resolve (heq ▸ List.prefix_refl _)

/-- One case for each phase. -/
lemma InStep.proceed (h : InStep a st) (hapart : a.Apart st .proceed) :
    InStep a (a.proceed st) := by
  rw [Arguments.proceed]
  rw [InStep] at h
  cases hphase : st.phase with
  | notRunning =>
      simp only [hphase] at h ⊢
      rw [InStep, hphase]
      exact h
  | succeeded r =>
      simp only [hphase] at h ⊢
      rw [InStep, hphase]
      exact h
  | mkpath r =>
      simp only [hphase] at h ⊢
      split
      · exact h.fails
      · next tree hmkpath =>
          obtain ⟨hdirectory, hkeeps⟩ := SymlinkTree.mkpath_entry hmkpath
          refine ⟨h.frame fun r' _ hlive => hlive.frame fun p entry hentry _ =>
            hkeeps p entry hentry, [], rfl, hdirectory, nofun⟩
  | untar r rest =>
      simp only [hphase] at h ⊢
      obtain ⟨hrunning, written, hentries, hunpacked⟩ := h
      cases rest with
      | nil =>
          rw [List.append_nil] at hentries
          exact ⟨hrunning.frame fun _ _ hlive => hlive, hentries ▸ hunpacked⟩
      | cons entry rest =>
          simp only
          split
          · exact hrunning.fails
          · next tree hextract =>
              refine ⟨hrunning.frame fun r' hne hlive =>
                hlive.extract hne hrunning.notInside hextract, written ++ [entry], ?_,
                hunpacked.extract hentries hextract⟩
              rw [hentries, List.append_assoc, List.singleton_append]
  | canonicalFilePath r =>
      simp only [Apart, hphase, LooksApart] at h hapart ⊢
      exact ⟨h.1.frame fun _ _ hlive => hlive, h.2, hapart⟩
  | removeTempSymbolicLink r target =>
      simp only [hphase] at h ⊢
      exact ⟨h.1.frame fun _ _ hlive => hlive.removeFile, h.2.1.removeFile, h.2.2⟩
  | link r target =>
      simp only [hphase] at h ⊢
      split
      · next hnone =>
          refine ⟨h.1.frame fun _ _ hlive => hlive.frame fun p entry hentry _ =>
            put_of_none hnone hentry, h.2.1.frame fun p entry hentry _ =>
            put_of_none hnone hentry, h.2.2, SymlinkTree.put_self⟩
      · exact h.1.fails
  | mv r target =>
      simp only [hphase] at h ⊢
      obtain ⟨hrunning, hunpacked, htarget, hlink⟩ := h
      split
      · exact hrunning.fails
      · next tree hmv =>
          exact ⟨hrunning.mem,
            hunpacked.live_mv hrunning.text hrunning.notInside hlink hmv, htarget⟩
  | removeRecursively r target =>
      simp only [hphase] at h ⊢
      exact ⟨h.1, h.2.1⟩

lemma InStep.delete (h : InStep a st) : InStep a (a.step st (.delete path)) := by
  rw [step]
  split
  · next r directory hphase =>
      split
      · next hdirectory =>
          rw [InStep, hphase] at h ⊢
          exact ⟨h.1, h.2.1.erase h.2.2 rfl hdirectory.2, h.2.2⟩
      · exact h
  · exact h

lemma InStep.step {event : Event} (h : InStep a st) (hapart : a.Apart st event) :
    InStep a (a.step st event) := by
  cases event with
  | start r =>
      rw [Arguments.step]
      split
      · exact h.start hapart
      · exact h.start hapart
      · exact h
  | proceed => exact h.proceed hapart
  | delete path => exact h.delete
  | stop => exact fun hsucceeded => h.exists_live hsucceeded

/-- **The symlink never dangles** in a run whose steps stay apart.

The web server follows the symlink at any time, so this has to hold between any two operations.  The
rename that replaces the symlink is atomic, and so nothing is to be feared from the replacing, only
from what is unpacked and deleted around it. -/
theorem never_dangles_of_apart {events : List Event}
    (h : Machine.StaysWithin a.step a.Apart { tree := tree } events) :
    Machine.HoldsThroughout a.step a.Safe { tree := tree } events := by
  have hstart : InStep a { tree := tree } := fun hsucceeded => absurd hsucceeded Bool.false_ne_true
  have hinStep : Machine.HoldsThroughout a.step (InStep a) { tree := tree } events :=
    Machine.holdsThroughout_of_staysWithin (fun _ _ => InStep.step) hstart h
  exact hinStep.imp fun _ => InStep.safe

/-! ## Two runs -/

/-- `/srv/live` and `/srv/tmp` -/
def srv : Arguments where
  workingDirectory := []
  tempDirForBothCloneDestinationsAndSymlinkPreparation := ⟨true, ["srv".toList, "tmp".toList]⟩
  directoryContainingSymlinkToAtomicallyUpdate := ["srv".toList]
  fileName := "live".toList
  outside := by decide

/-- A commit with one file. -/
def indexHtml (content : Text) : Archive where
  entries := [(["index.html".toList], .file content)]
  nodup := by simp
  inside := by simp

/-- The first commit is published, and the second one at this time, when all is deleted that the
first run has unpacked. -/
def twoRuns (currentMSecsSinceEpoch : ℤ) : List Event :=
  .start ⟨5000, indexHtml "1".toList⟩ :: List.replicate 8 .proceed ++
    .start ⟨currentMSecsSinceEpoch, indexHtml "2".toList⟩ :: List.replicate 7 .proceed ++
    [.delete ["srv".toList, "tmp".toList, "repoAt5".toList, "index.html".toList],
      .delete ["srv".toList, "tmp".toList, "repoAt5".toList], .proceed]

theorem never_dangles_of_apart_twoSeconds :
    Machine.HoldsThroughout srv.step srv.Safe { tree := fun _ => none } (twoRuns 7000) :=
  never_dangles_of_apart (by decide +kernel)

/-- In the same second, the second run deletes what it has published. -/
theorem not_safe_sameSecond :
    ¬ Machine.HoldsThroughout srv.step srv.Safe { tree := fun _ => none } (twoRuns 5500) := by
  intro h
  have hserved := h.run.served (by decide +kernel)
  revert hserved
  decide +kernel

end Arguments

end Autobackup.LiveSymlink
