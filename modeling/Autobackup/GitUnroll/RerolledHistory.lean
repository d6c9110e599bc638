import Autobackup.GitUnroll.CensorshipMachine
import Mathlib.Data.List.Chain

/-!
# What the censored repository has

A turn of the loop leaves the files of a commit that are neither censored nor ignored, but those
that are tracked already are not ignored (`rerolledTree`).  Between two turns, the index tracks the
files of the last commit of the censored repository, and the directory does not matter, since it is
emptied.  So a turn either adds one commit, or none, if the files are the same as before (`reroll`).

Which of the ignored files a commit has is therefore a matter of the commit before it
(`Represents`).  One that was added while it was not ignored stays as long as every commit has it,
and once it is gone it comes back only when it is not ignored any more.

A turn that does not get to its end adds nothing.  Hence what was censored is in no commit, however
far the machine gets (`rerolls`).

Files have contents and an executable bit, which is what git compares of them.  Left out are
symbolic links and submodules, the author and the dates of the new commits, and setting up the two
repositories; the list of what is censored has relative paths without `..`.
-/

namespace Autobackup.GitUnroll

open QString Filesystem

/-! ## Trees -/

namespace Tree

variable {tree tree' : Tree} {keep keep' : Path → Bool} {p : Path}

lemma lookup_restrict (tree : Tree) (keep : Path → Bool) (p : Path) :
    (tree.restrict keep).lookup p = if keep p then tree.lookup p else none := by
  apply Option.ext
  intro content
  have hiff : content ∈ (tree.restrict keep).lookup p ↔
      content ∈ tree.lookup p ∧ keep p = true := by
    rw [AList.mem_lookup_iff, AList.mem_lookup_iff]
    exact List.mem_filter
  show content ∈ (tree.restrict keep).lookup p ↔ content ∈ if keep p then tree.lookup p else none
  rw [hiff]
  by_cases hkeep : keep p = true
  · simp [hkeep]
  · simp [hkeep]

lemma mem_iff_lookup : p ∈ tree ↔ ∃ content, tree.lookup p = some content := by
  rw [← AList.lookup_isSome, Option.isSome_iff_exists]

lemma mem_restrict : p ∈ tree.restrict keep ↔ p ∈ tree ∧ keep p = true := by
  rw [mem_iff_lookup, lookup_restrict, mem_iff_lookup]
  by_cases hkeep : keep p = true
  · simp [hkeep]
  · simp [hkeep]

lemma restrict_congr (h : ∀ p ∈ tree, keep p = keep' p) :
    tree.restrict keep = tree.restrict keep' := by
  have hentries : tree.entries.filter (fun file => keep file.1) =
      tree.entries.filter fun file => keep' file.1 := by
    apply List.filter_congr
    intro file hfile
    exact h file.1 (List.mem_map_of_mem hfile)
  exact AList.ext hentries

lemma sameFiles_iff : tree.SameFiles tree' ↔ ∀ p, tree.lookup p = tree'.lookup p := by
  constructor
  · intro h p
    by_cases hmem : p ∈ tree.keys ++ tree'.keys
    · exact h p hmem
    · rw [List.mem_append, not_or] at hmem
      rw [AList.lookup_eq_none.2 hmem.1, AList.lookup_eq_none.2 hmem.2]
  · intro h p _
    exact h p

lemma SameFiles.mem_iff (h : tree.SameFiles tree') : p ∈ tree ↔ p ∈ tree' := by
  rw [mem_iff_lookup, mem_iff_lookup, sameFiles_iff.1 h p]

end Tree

/-! ## What is left of a commit -/

section

variable (filePathsToCensor : List FilePathToCensor)

/-- A line of the list is about the file.  One that can only be a directory's is about none. -/
def Censored (p : Path) : Prop :=
  ∃ filePath ∈ filePathsToCensor, filePath.isDirectory = false ∧ filePath.path = p

/-- `QFile::remove`, if there is a file. -/
def removeFile (tree : Tree) (filePath : FilePathToCensor) : Tree :=
  if IsFileIn tree filePath then tree.erase filePath.path else tree

/-- The files that are not deleted. -/
def left (tree : Tree) : Tree := filePathsToCensor.foldl removeFile tree

variable (git : Git)

/-- What is committed of a commit, where some files are tracked. -/
def rerolledTree (tracked tree : Tree) : Tree :=
  (left filePathsToCensor tree).restrict fun p =>
    decide (p ∈ tracked) || !git.ignored (left filePathsToCensor tree) p

/-- A turn adds one commit, or none. -/
def reroll (commits : List CensoredCommit) (source : SourceCommit) : List CensoredCommit :=
  if (rerolledTree filePathsToCensor git (headTree commits) source.tree).SameFiles
      (headTree commits) then commits
  else commits ++ [⟨source.info.date, source.info.subject,
    rerolledTree filePathsToCensor git (headTree commits) source.tree⟩]

/-- No censored path is a directory of the commit, and if nothing is to be committed then git says
what is looked for. -/
def CanReroll (commits : List CensoredCommit) (source : SourceCommit) : Prop :=
  (∀ filePath ∈ filePathsToCensor, ¬ IsDirectoryIn source.tree filePath) ∧
    ((rerolledTree filePathsToCensor git (headTree commits) source.tree).SameFiles
      (headTree commits) → workingDirectoryClean <:+: git.nothingToCommit (commits ≠ []))

/-- The same of one commit after the other. -/
def CanRerollAll : List CensoredCommit → List SourceCommit → Prop
  | _, [] => True
  | commits, source :: rest =>
      CanReroll filePathsToCensor git commits source ∧
        CanRerollAll (reroll filePathsToCensor git commits source) rest

end

variable {filePathsToCensor : List FilePathToCensor} {git : Git} {repo : SourceRepo}
  {tree : Tree} {p : Path}

lemma lookup_removeFile (tree : Tree) (filePath : FilePathToCensor) (p : Path) :
    (removeFile tree filePath).lookup p =
      if filePath.isDirectory = false ∧ filePath.path = p then none
      else tree.lookup p := by
  unfold removeFile
  by_cases hp : filePath.path = p
  · subst hp
    by_cases hfile : IsFileIn tree filePath
    · rw [if_pos hfile, if_pos ⟨hfile.1, rfl⟩, AList.lookup_erase]
    · rw [if_neg hfile]
      split
      · next hslash =>
          exact AList.lookup_eq_none.2 fun hmem => hfile ⟨hslash.1, hmem⟩
      · rfl
  · have hno : ¬ (filePath.isDirectory = false ∧ filePath.path = p) := fun h => hp h.2
    rw [if_neg hno]
    split
    · exact AList.lookup_erase_ne (Ne.symm hp)
    · rfl

open Classical in
/-- Deleting leaves what is not censored. -/
lemma lookup_left (filePathsToCensor : List FilePathToCensor) (tree : Tree) (p : Path) :
    (left filePathsToCensor tree).lookup p =
      if Censored filePathsToCensor p then none else tree.lookup p := by
  induction filePathsToCensor generalizing tree with
  | nil => rw [if_neg fun ⟨filePath, hmem, _⟩ => absurd hmem List.not_mem_nil]; rfl
  | cons filePath rest ih =>
      show (left rest (removeFile tree filePath)).lookup p = _
      rw [ih, lookup_removeFile]
      have hcons : Censored (filePath :: rest) p ↔
          (filePath.isDirectory = false ∧ filePath.path = p) ∨ Censored rest p :=
        List.exists_mem_cons_iff _ _ _
      by_cases hrest : Censored rest p
      · rw [if_pos hrest, if_pos (hcons.2 (.inr hrest))]
      · rw [if_neg hrest]
        by_cases hfirst : filePath.isDirectory = false ∧ filePath.path = p
        · rw [if_pos hfirst, if_pos (hcons.2 (.inl hfirst))]
        · rw [if_neg hfirst, if_neg fun h => (hcons.1 h).elim hfirst hrest]

/-- What is committed of a commit, where `tracked` are the files of the commit before. -/
structure Represents (filePathsToCensor : List FilePathToCensor) (git : Git)
    (source : SourceCommit) (tracked tree : Tree) : Prop where
  notCensored : ∀ p ∈ tree, ¬ Censored filePathsToCensor p
  sameFile : ∀ p file, tree.lookup p = some file → source.tree.lookup p = some file
  /-- No ignored file is new. -/
  notIgnored : ∀ p ∈ tree,
    p ∈ tracked ∨ git.ignored (left filePathsToCensor source.tree) p = false
  everyOther : ∀ p file, source.tree.lookup p = some file → ¬ Censored filePathsToCensor p →
    p ∈ tracked ∨ git.ignored (left filePathsToCensor source.tree) p = false →
    tree.lookup p = some file

lemma represents_rerolledTree (tracked : Tree) (source : SourceCommit) :
    Represents filePathsToCensor git source tracked
      (rerolledTree filePathsToCensor git tracked source.tree) := by
  have hkept (p : Path) : (decide (p ∈ tracked) ||
      !git.ignored (left filePathsToCensor source.tree) p) = true ↔
      p ∈ tracked ∨ git.ignored (left filePathsToCensor source.tree) p = false := by
    rw [Bool.or_eq_true, decide_eq_true_iff, Bool.not_eq_true']
  have hlookup (p : Path) (file : File)
      (h : (rerolledTree filePathsToCensor git tracked source.tree).lookup p = some file) :
      ¬ Censored filePathsToCensor p ∧ source.tree.lookup p = some file := by
    rw [rerolledTree, Tree.lookup_restrict] at h
    split at h
    · rw [lookup_left] at h
      split at h
      · exact absurd h (Option.some_ne_none file).symm
      · next hnot => exact ⟨hnot, h⟩
    · exact absurd h (Option.some_ne_none file).symm
  constructor
  · intro p hp
    obtain ⟨file, hfile⟩ := Tree.mem_iff_lookup.1 hp
    exact (hlookup p file hfile).1
  · intro p file h
    exact (hlookup p file h).2
  · intro p hp
    exact (hkept p).1 (Tree.mem_restrict.1 hp).2
  · intro p file h hnot hwanted
    rw [rerolledTree, Tree.lookup_restrict, if_pos ((hkept p).2 hwanted), lookup_left, if_neg hnot]
    exact h

lemma Represents.congr {source : SourceCommit} {tracked tree' : Tree}
    (h : Represents filePathsToCensor git source tracked tree) (hsame : tree.SameFiles tree') :
    Represents filePathsToCensor git source tracked tree' where
  notCensored p hp := h.notCensored p (hsame.mem_iff.2 hp)
  sameFile p file hp := h.sameFile p file ((Tree.sameFiles_iff.1 hsame p).trans hp)
  notIgnored p hp := h.notIgnored p (hsame.mem_iff.2 hp)
  everyOther p file hp hnot hwanted :=
    (Tree.sameFiles_iff.1 hsame p).symm.trans (h.everyOther p file hp hnot hwanted)

/-! ## A turn -/

section Turn

variable {s : CensorshipMachine} {source : SourceCommit}

lemma SourceRepo.find_eq (hsource : source ∈ repo.commits) :
    repo.find source.info.id = some source := by
  unfold SourceRepo.find
  cases hfind : repo.commits.find? (fun c => c.info.id = source.info.id) with
  | none =>
      have hnone := List.find?_eq_none.1 hfind source hsource
      exact absurd (decide_eq_true rfl) hnone
  | some c =>
      have hpred := List.find?_some hfind
      have hid : c.info.id = source.info.id := of_decide_eq_true hpred
      have hmem := List.mem_of_find?_eq_some hfind
      rw [List.inj_on_of_nodup_map repo.ids hmem hsource hid]

/-- A directory is no file. -/
lemma SourceCommit.not_isFileIn (source : SourceCommit) {filePath : FilePathToCensor}
    (h : IsDirectoryIn source.tree filePath) : filePath.path ∉ source.tree := by
  intro hmem
  rcases h with hnil | ⟨q, hq, hprefix, hne⟩
  · rw [hnil] at hmem
    exact source.named hmem
  · exact hne (source.separate _ hmem q hq hprefix)

lemma mem_of_mem_removeFile {filePath : FilePathToCensor} (h : p ∈ removeFile tree filePath) :
    p ∈ tree := by
  obtain ⟨content, hcontent⟩ := Tree.mem_iff_lookup.1 h
  rw [lookup_removeFile] at hcontent
  split at hcontent
  · exact absurd hcontent (Option.some_ne_none content).symm
  · exact Tree.mem_iff_lookup.2 ⟨content, hcontent⟩

/-- One deletion. -/
lemma perform_remove (hdir : s.checkedOut = source.tree)
    (hsub : ∀ p ∈ s.workingDir, p ∈ source.tree) (filePath : FilePathToCensor) :
    Action.perform git repo (.remove filePath) s =
      if IsDirectoryIn source.tree filePath then (s, false)
      else ({ s with workingDir := removeFile s.workingDir filePath }, true) := by
  show (if IsFileIn s.workingDir filePath then
      ({ s with workingDir := s.workingDir.erase (filePath.path) }, true)
    else (s, decide (¬ IsDirectoryIn s.checkedOut filePath))) = _
  unfold removeFile
  by_cases hdirectory : IsDirectoryIn source.tree filePath
  · have hfile : ¬ IsFileIn s.workingDir filePath := fun hfile =>
      source.not_isFileIn hdirectory (hsub _ hfile.2)
    rw [if_neg hfile, if_pos hdirectory]
    have hfails : decide (¬ IsDirectoryIn s.checkedOut filePath) = false := by
      rw [hdir]
      exact decide_eq_false (not_not.2 hdirectory)
    rw [hfails]
  · rw [if_neg hdirectory]
    by_cases hfile : IsFileIn s.workingDir filePath
    · rw [if_pos hfile, if_pos hfile]
    · rw [if_neg hfile, if_neg hfile]
      have hsucceeds : decide (¬ IsDirectoryIn s.checkedOut filePath) = true := by
        rw [hdir]
        exact decide_eq_true hdirectory
      rw [hsucceeds]

/-- All deletions. -/
lemma perform_removes (hdir : s.checkedOut = source.tree)
    (hsub : ∀ p ∈ s.workingDir, p ∈ source.tree) :
    ((Script.perform (Action.perform git repo) (filePathsToCensor.map .remove) s).2 = true ↔
      ∀ filePath ∈ filePathsToCensor, ¬ IsDirectoryIn source.tree filePath) ∧
    ((Script.perform (Action.perform git repo) (filePathsToCensor.map .remove) s).2 = true →
      (Script.perform (Action.perform git repo) (filePathsToCensor.map .remove) s).1 =
        { s with workingDir := left filePathsToCensor s.workingDir }) := by
  induction filePathsToCensor generalizing s with
  | nil => exact ⟨⟨fun _ filePath hmem => absurd hmem List.not_mem_nil, fun _ => rfl⟩, fun _ => rfl⟩
  | cons filePath rest ih =>
      have hfirst : Action.perform git repo (.remove filePath) s =
          if IsDirectoryIn source.tree filePath then (s, false)
          else ({ s with workingDir := removeFile s.workingDir filePath }, true) :=
        perform_remove hdir hsub filePath
      rw [List.map_cons]
      by_cases hdirectory : IsDirectoryIn source.tree filePath
      · rw [if_pos hdirectory] at hfirst
        have hfails : (Action.perform git repo (.remove filePath) s).2 = false := by rw [hfirst]
        rw [Script.perform_cons_of_fails hfails]
        refine ⟨⟨fun h => absurd h Bool.false_ne_true, fun h => ?_⟩, fun h =>
          absurd h Bool.false_ne_true⟩
        exact absurd hdirectory (h filePath List.mem_cons_self)
      · rw [if_neg hdirectory] at hfirst
        have hsucceeds : (Action.perform git repo (.remove filePath) s).2 = true := by rw [hfirst]
        rw [Script.perform_cons_of_succeeds hsucceeds, hfirst]
        have hrest := @ih { s with workingDir := removeFile s.workingDir filePath } hdir
          fun p hp => hsub p (mem_of_mem_removeFile hp)
        refine ⟨?_, hrest.2⟩
        rw [hrest.1, List.forall_mem_cons, and_iff_right hdirectory]

/-- The index has the files of the last commit. -/
def TracksHead (s : CensorshipMachine) : Prop := ∀ p, p ∈ s.index ↔ p ∈ headTree s.commits

lemma headTree_concat (commits : List CensoredCommit) (commit : CensoredCommit) :
    headTree (commits ++ [commit]) = commit.tree := by
  rw [headTree, List.getLast?_concat]
  rfl

/-- `gitAdd`, and then what `gitCommit` commits. -/
lemma staged_eq (htracks : TracksHead s) (index : Tree)
    (hindex : index = (s.workingDir.restrict fun p =>
      decide (p ∈ s.index) || !git.ignored s.workingDir p) ∪ s.index) :
    (s.workingDir.restrict fun p => decide (p ∈ index)) =
      s.workingDir.restrict fun p =>
        decide (p ∈ headTree s.commits) || !git.ignored s.workingDir p := by
  apply Tree.restrict_congr
  intro p hp
  have htracked := htracks p
  rw [Bool.eq_iff_iff, decide_eq_true_iff, hindex, AList.mem_union, Tree.mem_restrict,
    and_iff_right hp, Bool.or_eq_true, Bool.or_eq_true, decide_eq_true_iff, decide_eq_true_iff]
  tauto

/-- `gitAdd` and `gitCommit`, in a directory from which `tree` is left. -/
lemma perform_gitAdd_gitCommit (htracks : TracksHead s)
    (hleft : s.workingDir = left filePathsToCensor source.tree) :
    ((Script.perform (Action.perform git repo)
        [.gitAdd, .gitCommit source.info.subject source.info.date] s).2 = true ↔
      ((rerolledTree filePathsToCensor git (headTree s.commits) source.tree).SameFiles
        (headTree s.commits) → workingDirectoryClean <:+: git.nothingToCommit (s.commits ≠ []))) ∧
    (Script.perform (Action.perform git repo)
        [.gitAdd, .gitCommit source.info.subject source.info.date] s).1.commits =
      reroll filePathsToCensor git s.commits source ∧
    TracksHead (Script.perform (Action.perform git repo)
        [.gitAdd, .gitCommit source.info.subject source.info.date] s).1 := by
  obtain ⟨index, hindex⟩ : ∃ index, index = (s.workingDir.restrict fun p =>
    decide (p ∈ s.index) || !git.ignored s.workingDir p) ∪ s.index := ⟨_, rfl⟩
  have hstaged := staged_eq htracks index hindex
  rw [hleft, ← rerolledTree] at hstaged
  have hadd : Action.perform git repo .gitAdd s = ({ s with index := index }, true) := by
    rw [hindex]
    rfl
  have hcommit : Action.perform git repo (.gitCommit source.info.subject source.info.date)
      { s with index := index } =
      if (rerolledTree filePathsToCensor git (headTree s.commits) source.tree).SameFiles
          (headTree s.commits) then
        ({ s with index := index },
          decide (workingDirectoryClean <:+: git.nothingToCommit (s.commits ≠ [])))
      else
        ({ s with
            index := rerolledTree filePathsToCensor git (headTree s.commits) source.tree
            commits := s.commits ++ [⟨source.info.date, source.info.subject,
              rerolledTree filePathsToCensor git (headTree s.commits) source.tree⟩] }, true) := by
    rw [← hstaged, ← hleft]
    rfl
  have hsucceeds : (Action.perform git repo .gitAdd s).2 = true := by rw [hadd]
  rw [Script.perform_cons_of_succeeds hsucceeds, hadd, Script.perform_singleton, hcommit, reroll]
  by_cases hsame : (rerolledTree filePathsToCensor git (headTree s.commits) source.tree).SameFiles
      (headTree s.commits)
  · rw [if_pos hsame, if_pos hsame]
    refine ⟨?_, rfl, ?_⟩
    · rw [decide_eq_true_iff]
      exact ⟨fun h _ => h, fun h => h hsame⟩
    · intro p
      have hmem : p ∈ rerolledTree filePathsToCensor git (headTree s.commits) source.tree ↔
          p ∈ headTree s.commits := hsame.mem_iff
      rw [← hstaged, Tree.mem_restrict, decide_eq_true_iff] at hmem
      constructor
      · intro hp
        have hp' := hp
        rw [hindex, AList.mem_union, Tree.mem_restrict, hleft] at hp'
        rcases hp' with hadded | htracked
        · exact hmem.1 ⟨hadded.1, hp⟩
        · exact (htracks p).1 htracked
      · intro hp
        exact (hmem.2 hp).2
  · rw [if_neg hsame, if_neg hsame]
    refine ⟨?_, rfl, ?_⟩
    · exact ⟨fun _ h => absurd h hsame, fun _ => rfl⟩
    · intro p
      show _ ↔ p ∈ headTree (s.commits ++ [_])
      rw [headTree_concat]

lemma turn_eq (source : SourceCommit) : turn filePathsToCensor source.info.noted =
    .gitCheckout source.info.id :: (filePathsToCensor.map .remove ++
      [.gitAdd, .gitCommit source.info.subject source.info.date]) := rfl

/-- **A turn.** -/
lemma perform_turn (hsource : source ∈ repo.commits) (htracks : TracksHead s) :
    ((Script.perform (Action.perform git repo)
        (turn filePathsToCensor source.info.noted) s).2 = true ↔
      CanReroll filePathsToCensor git s.commits source) ∧
    ((Script.perform (Action.perform git repo)
        (turn filePathsToCensor source.info.noted) s).2 = true →
      (Script.perform (Action.perform git repo)
          (turn filePathsToCensor source.info.noted) s).1.commits =
        reroll filePathsToCensor git s.commits source ∧
      TracksHead (Script.perform (Action.perform git repo)
        (turn filePathsToCensor source.info.noted) s).1) := by
  have hcheckout : Action.perform git repo (.gitCheckout source.info.id) s =
      ({ s with checkedOut := source.tree, workingDir := source.tree }, true) := by
    rw [Action.perform, repo.find_eq hsource]
  have hsucceeds : (Action.perform git repo (.gitCheckout source.info.id) s).2 = true := by
    rw [hcheckout]
  rw [turn_eq, Script.perform_cons_of_succeeds hsucceeds, hcheckout]
  have hremoves := @perform_removes filePathsToCensor git repo
    { s with checkedOut := source.tree, workingDir := source.tree } source rfl fun p hp => hp
  cases hok : (Script.perform (Action.perform git repo) (filePathsToCensor.map .remove)
      { s with checkedOut := source.tree, workingDir := source.tree }).2 with
  | false =>
      rw [Script.perform_append_of_fails hok, hok]
      refine ⟨⟨fun h => absurd h Bool.false_ne_true, fun h => ?_⟩, fun h =>
        absurd h Bool.false_ne_true⟩
      have hdone := hremoves.1.2 h.1
      rw [hok] at hdone
      exact hdone
  | true =>
      have hdirectories := hremoves.1.1 hok
      rw [Script.perform_append_of_succeeds hok, hremoves.2 hok]
      have hrest := @perform_gitAdd_gitCommit filePathsToCensor git repo
        { s with checkedOut := source.tree, workingDir := left filePathsToCensor source.tree }
        source htracks rfl
      refine ⟨?_, fun _ => hrest.2⟩
      rw [hrest.1]
      exact ⟨fun h => ⟨hdirectories, h⟩, fun h => h.2⟩

/-- A turn without its last action. -/
def beforeGitCommit (filePathsToCensor : List FilePathToCensor) (source : SourceCommit) :
    List Action :=
  .gitCheckout source.info.id :: (filePathsToCensor.map .remove ++ [.gitAdd])

lemma turn_eq_beforeGitCommit (source : SourceCommit) :
    turn filePathsToCensor source.info.noted =
      beforeGitCommit filePathsToCensor source ++
        [.gitCommit source.info.subject source.info.date] := by
  rw [turn_eq, beforeGitCommit, List.cons_append, List.append_assoc]
  rfl

lemma commits_gitCheckout (commitId : Text) (s : CensorshipMachine) :
    (Action.perform git repo (.gitCheckout commitId) s).1.commits = s.commits := by
  rw [Action.perform]
  cases repo.find commitId with
  | none => rfl
  | some c => rfl

lemma commits_remove (filePath : FilePathToCensor) (s : CensorshipMachine) :
    (Action.perform git repo (.remove filePath) s).1.commits = s.commits := by
  rw [Action.perform]
  split
  · rfl
  · rfl

lemma commits_gitCommit_of_fails {message date : Text}
    (h : (Action.perform git repo (.gitCommit message date) s).2 = false) :
    (Action.perform git repo (.gitCommit message date) s).1.commits = s.commits := by
  rw [Action.perform] at h ⊢
  split at h
  · next hsame => rw [if_pos hsame]
  · exact absurd h.symm Bool.false_ne_true

/-- Before the end of a turn, nothing is committed. -/
lemma commits_beforeGitCommit {actions : List Action}
    (h : ∀ action ∈ actions, action ∈ beforeGitCommit filePathsToCensor source) :
    (Script.perform (Action.perform git repo) actions s).1.commits = s.commits := by
  apply Script.perform_of_forall (I := fun s' : CensorshipMachine => s'.commits = s.commits)
  · intro action haction s' hs'
    have hmem := h action haction
    rw [beforeGitCommit, List.mem_cons, List.mem_append, List.mem_map, List.mem_singleton] at hmem
    rcases hmem with rfl | ⟨filePath, _, rfl⟩ | rfl
    · exact (commits_gitCheckout _ s').trans hs'
    · exact (commits_remove filePath s').trans hs'
    · exact hs'
  · rfl

lemma commits_turn_take {n : ℕ} (hn : n < (turn filePathsToCensor source.info.noted).length) :
    (Script.perform (Action.perform git repo)
      ((turn filePathsToCensor source.info.noted).take n) s).1.commits = s.commits := by
  rw [turn_eq_beforeGitCommit, List.length_append, List.length_singleton] at hn
  rw [turn_eq_beforeGitCommit, List.take_append_of_le_length (Nat.le_of_lt_succ hn)]
  apply commits_beforeGitCommit
  intro action haction
  exact List.mem_of_mem_take haction

/-- Neither by a turn that fails. -/
lemma commits_turn_of_fails (h : (Script.perform (Action.perform git repo)
      (turn filePathsToCensor source.info.noted) s).2 = false) :
    (Script.perform (Action.perform git repo)
      (turn filePathsToCensor source.info.noted) s).1.commits = s.commits := by
  have hbefore : (Script.perform (Action.perform git repo)
      (beforeGitCommit filePathsToCensor source) s).1.commits = s.commits :=
    commits_beforeGitCommit fun action haction => haction
  rw [turn_eq_beforeGitCommit] at h ⊢
  cases hok : (Script.perform (Action.perform git repo)
      (beforeGitCommit filePathsToCensor source) s).2 with
  | false =>
      rw [Script.perform_append_of_fails hok]
      exact hbefore
  | true =>
      rw [Script.perform_append_of_succeeds hok, Script.perform_singleton] at h ⊢
      rw [commits_gitCommit_of_fails h, hbefore]

end Turn

/-! ## The loop -/

section Loop

variable {s : CensorshipMachine} {sources : List SourceCommit}

/-- One commit after the other. -/
def rerollAll (filePathsToCensor : List FilePathToCensor) (git : Git)
    (commits : List CensoredCommit) (sources : List SourceCommit) : List CensoredCommit :=
  sources.foldl (reroll filePathsToCensor git) commits

lemma perform_loop (hsources : ∀ source ∈ sources, source ∈ repo.commits) (htracks : TracksHead s) :
    ((Script.perform (Action.perform git repo)
        (sources.flatMap fun source => turn filePathsToCensor source.info.noted) s).2 = true ↔
      CanRerollAll filePathsToCensor git s.commits sources) ∧
    ((Script.perform (Action.perform git repo)
        (sources.flatMap fun source => turn filePathsToCensor source.info.noted) s).2 = true →
      (Script.perform (Action.perform git repo)
          (sources.flatMap fun source => turn filePathsToCensor source.info.noted) s).1.commits =
        rerollAll filePathsToCensor git s.commits sources) := by
  induction sources generalizing s with
  | nil => exact ⟨⟨fun _ => trivial, fun _ => rfl⟩, fun _ => rfl⟩
  | cons source rest ih =>
      obtain ⟨hsource, hrest⟩ := List.forall_mem_cons.1 hsources
      have hturn := @perform_turn filePathsToCensor git repo s source hsource htracks
      rw [List.flatMap_cons]
      cases hok : (Script.perform (Action.perform git repo)
          (turn filePathsToCensor source.info.noted) s).2 with
      | false =>
          rw [Script.perform_append_of_fails hok, hok]
          refine ⟨⟨fun h => absurd h Bool.false_ne_true, fun h => ?_⟩, fun h =>
            absurd h Bool.false_ne_true⟩
          have hdone := hturn.1.2 h.1
          rw [hok] at hdone
          exact hdone
      | true =>
          obtain ⟨hcommits, htracks'⟩ := hturn.2 hok
          have hloop := ih hrest htracks'
          rw [Script.perform_append_of_succeeds hok]
          rw [hcommits] at hloop
          refine ⟨?_, hloop.2⟩
          rw [hloop.1]
          exact ⟨fun h => ⟨hturn.1.1 hok, h⟩, fun h => h.2⟩

/-- However far the loop gets, the commits are those of the turns that were done. -/
lemma perform_loop_take (hsources : ∀ source ∈ sources, source ∈ repo.commits)
    (htracks : TracksHead s) (n : ℕ) :
    ∃ handled, handled <+: sources ∧
      (Script.perform (Action.perform git repo)
          ((sources.flatMap fun source => turn filePathsToCensor source.info.noted).take n)
          s).1.commits = rerollAll filePathsToCensor git s.commits handled := by
  induction sources generalizing s n with
  | nil => exact ⟨[], List.nil_prefix, by rw [List.flatMap_nil, List.take_nil]; rfl⟩
  | cons source rest ih =>
      obtain ⟨hsource, hrest⟩ := List.forall_mem_cons.1 hsources
      rw [List.flatMap_cons, List.take_append]
      by_cases hn : n < (turn filePathsToCensor source.info.noted).length
      · refine ⟨[], List.nil_prefix, ?_⟩
        rw [Nat.sub_eq_zero_of_le hn.le, List.take_zero, List.append_nil]
        exact commits_turn_take hn
      · rw [List.take_of_length_le (not_lt.1 hn)]
        have hturn := @perform_turn filePathsToCensor git repo s source hsource htracks
        cases hok : (Script.perform (Action.perform git repo)
            (turn filePathsToCensor source.info.noted) s).2 with
        | false =>
            refine ⟨[], List.nil_prefix, ?_⟩
            rw [Script.perform_append_of_fails hok]
            exact commits_turn_of_fails hok
        | true =>
            obtain ⟨hcommits, htracks'⟩ := hturn.2 hok
            obtain ⟨handled, hprefix, heq⟩ := ih hrest htracks'
              (n - (turn filePathsToCensor source.info.noted).length)
            refine ⟨source :: handled, List.cons_prefix_cons.2 ⟨rfl, hprefix⟩, ?_⟩
            rw [Script.perform_append_of_succeeds hok, heq, hcommits]
            rfl

end Loop

/-! ## The censored repository -/

/-- What a turn may add to the censored repository. -/
def Follows (earlier commits : List CensoredCommit) : Prop :=
  commits = earlier ∨ ∃ commit, commits = earlier ++ [commit]

/-- What the censored repository has of the commits that were handled, the oldest first. -/
structure IsRerolled (filePathsToCensor : List FilePathToCensor) (git : Git)
    (handled : List SourceCommit) (commits : List CensoredCommit) : Prop where
  notCensored : ∀ commit ∈ commits, ∀ p ∈ commit.tree, ¬ Censored filePathsToCensor p
  inOrder : (commits.map fun commit => (commit.date, commit.message)).Sublist
    (handled.map fun source => (source.info.date, source.info.subject))
  eachCommit : ∀ earlier commit, earlier ++ [commit] <+: commits →
    ∃ source ∈ handled, commit.date = source.info.date ∧ commit.message = source.info.subject ∧
      Represents filePathsToCensor git source (headTree earlier) commit.tree
  /-- Also a commit for which none was added is there: its files are those of the commit before. -/
  eachSource : ∀ source ∈ handled, ∃ earlier later, Follows earlier later ∧ later <+: commits ∧
    Represents filePathsToCensor git source (headTree earlier) (headTree later)
  head : ∀ source ∈ handled.getLast?, ∃ earlier, Follows earlier commits ∧
    Represents filePathsToCensor git source (headTree earlier) (headTree commits)
  /-- No commit changes nothing. -/
  changes : (∅ :: commits.map CensoredCommit.tree).IsChain
    fun before after => ¬ after.SameFiles before

variable {handled : List SourceCommit} {commits : List CensoredCommit}

lemma getLast?_trees (commits : List CensoredCommit) :
    (∅ :: commits.map CensoredCommit.tree).getLast? = some (headTree commits) := by
  rw [List.getLast?_cons, List.getLast?_map, headTree]
  cases commits.getLast? with
  | none => rfl
  | some commit => rfl

namespace IsRerolled

lemma nil : IsRerolled filePathsToCensor git [] [] where
  notCensored _ hcommit := absurd hcommit List.not_mem_nil
  inOrder := List.Sublist.refl _
  eachCommit _ _ hprefix :=
    absurd (List.prefix_nil.1 hprefix) (List.append_ne_nil_of_right_ne_nil _ (List.cons_ne_nil _ _))
  eachSource _ hsource := absurd hsource List.not_mem_nil
  head source hsource := absurd hsource (Option.not_mem_none source)
  changes := List.IsChain.singleton _

/-- A turn that adds no commit. -/
lemma snoc_of_same (h : IsRerolled filePathsToCensor git handled commits) {source : SourceCommit}
    (hhead : Represents filePathsToCensor git source (headTree commits) (headTree commits)) :
    IsRerolled filePathsToCensor git (handled ++ [source]) commits where
  notCensored := h.notCensored
  inOrder := by
    rw [List.map_append]
    exact h.inOrder.trans (List.sublist_append_left _ _)
  eachCommit earlier commit hprefix := by
    obtain ⟨source', hsource', hrepresents⟩ := h.eachCommit earlier commit hprefix
    exact ⟨source', List.mem_append_left _ hsource', hrepresents⟩
  eachSource source' hsource' := by
    rcases List.mem_append.1 hsource' with hhandled | hnew
    · exact h.eachSource source' hhandled
    · rw [List.mem_singleton.1 hnew]
      exact ⟨commits, commits, .inl rfl, List.prefix_rfl, hhead⟩
  head source' hsource' := by
    rw [List.getLast?_concat] at hsource'
    obtain rfl := Option.some.inj hsource'
    exact ⟨commits, .inl rfl, hhead⟩
  changes := h.changes

/-- A turn that adds one. -/
lemma snoc_of_changed (h : IsRerolled filePathsToCensor git handled commits)
    {source : SourceCommit}
    (hrepresents : Represents filePathsToCensor git source (headTree commits) tree)
    (hchanged : ¬ tree.SameFiles (headTree commits)) :
    IsRerolled filePathsToCensor git (handled ++ [source])
      (commits ++ [⟨source.info.date, source.info.subject, tree⟩]) where
  notCensored commit hcommit := by
    rcases List.mem_append.1 hcommit with hold | hnew
    · exact h.notCensored commit hold
    · rw [List.mem_singleton.1 hnew]
      exact hrepresents.notCensored
  inOrder := by
    rw [List.map_append, List.map_append]
    exact h.inOrder.append (List.Sublist.refl _)
  eachCommit earlier commit hprefix := by
    rcases List.prefix_concat_iff.1 hprefix with hnew | hold
    · obtain ⟨rfl, rfl⟩ := List.append_inj' hnew rfl |>.imp_right (List.cons.inj · |>.1)
      exact ⟨source, List.mem_append_right _ (List.mem_singleton_self source), rfl, rfl,
        hrepresents⟩
    · obtain ⟨source', hsource', hrest⟩ := h.eachCommit earlier commit hold
      exact ⟨source', List.mem_append_left _ hsource', hrest⟩
  eachSource source' hsource' := by
    rcases List.mem_append.1 hsource' with hhandled | hnew
    · obtain ⟨earlier, later, hfollows, hprefix, hold⟩ := h.eachSource source' hhandled
      exact ⟨earlier, later, hfollows, hprefix.trans (List.prefix_append _ _), hold⟩
    · rw [List.mem_singleton.1 hnew]
      refine ⟨commits, _, .inr ⟨_, rfl⟩, List.prefix_rfl, ?_⟩
      rw [headTree_concat]
      exact hrepresents
  head source' hsource' := by
    rw [List.getLast?_concat] at hsource'
    obtain rfl := Option.some.inj hsource'
    refine ⟨commits, .inr ⟨_, rfl⟩, ?_⟩
    rw [headTree_concat]
    exact hrepresents
  changes := by
    rw [List.map_append, ← List.cons_append, List.isChain_append]
    refine ⟨h.changes, List.IsChain.singleton _, ?_⟩
    intro before hbefore after hafter
    rw [getLast?_trees] at hbefore
    obtain rfl := Option.some.inj hbefore
    obtain rfl := Option.some.inj hafter
    exact hchanged

lemma snoc (h : IsRerolled filePathsToCensor git handled commits) (source : SourceCommit) :
    IsRerolled filePathsToCensor git (handled ++ [source])
      (reroll filePathsToCensor git commits source) := by
  have hrepresents : Represents filePathsToCensor git source (headTree commits)
      (rerolledTree filePathsToCensor git (headTree commits) source.tree) :=
    represents_rerolledTree (headTree commits) source
  unfold reroll
  split
  · next hsame => exact h.snoc_of_same (hrepresents.congr hsame)
  · next hchanged => exact h.snoc_of_changed hrepresents hchanged

lemma append (h : IsRerolled filePathsToCensor git handled commits) (sources : List SourceCommit) :
    IsRerolled filePathsToCensor git (handled ++ sources)
      (rerollAll filePathsToCensor git commits sources) := by
  induction sources generalizing handled commits with
  | nil =>
      rw [List.append_nil]
      exact h
  | cons source rest ih =>
      have hrest := ih (h.snoc source)
      rw [List.append_assoc] at hrest
      exact hrest

end IsRerolled

/-! ## The log -/

/-- What is read of the log. -/
def logRead (repo : SourceRepo) : Bool × List GitCommitIdTimestampAndMessage :=
  gitLogReturningCommitIdsAuthorDateAndCommitMessage repo.log.text

lemma logRead_eq (repo : SourceRepo) (h : ∀ source ∈ repo.commits, source.info.subject ≠ []) :
    logRead repo = (true, repo.commits.map fun source => source.info.noted) := by
  have hall : (repo.log.commits.all fun commit => commit.subject ≠ []) = true := by
    rw [List.all_eq_true]
    intro commit hcommit
    obtain ⟨source, hsource, rfl⟩ := List.mem_map.1 hcommit
    exact decide_eq_true (h source hsource)
  have hwhole : (repo.log.commits.takeWhile fun commit => commit.subject ≠ []) =
      repo.log.commits := by
    apply List.takeWhile_eq_self_iff.2
    exact List.all_eq_true.1 hall
  have hpos : 1 ≤ (repo.log.commits.map Commit.noted).length := by
    rw [List.length_map]
    exact List.length_pos_of_ne_nil repo.log.commits_ne_nil
  have hread : readCommits repo.log.text [] = (true, repo.log.commits.map Commit.noted) := by
    rw [GitLog.text, readCommits_formatCommits, hall, hwhole, List.nil_append]
  have hmap : repo.log.commits.map Commit.noted =
      repo.commits.map fun source => source.info.noted := List.map_map
  rw [logRead, gitLogReturningCommitIdsAuthorDateAndCommitMessage,
    if_neg repo.log.trimmed_text_ne_nil, hread]
  dsimp only
  rw [decide_eq_true hpos, hmap]
  rfl

lemma subject_ne_nil_of_logRead (h : (logRead repo).1 = true) :
    ∀ source ∈ repo.commits, source.info.subject ≠ [] := by
  intro source hsource
  rw [logRead, gitLogReturningCommitIdsAuthorDateAndCommitMessage,
    if_neg repo.log.trimmed_text_ne_nil, GitLog.text, readCommits_formatCommits] at h
  have hall := List.all_eq_true.1 (Bool.and_eq_true_iff.1 h).1
  exact of_decide_eq_true (hall source.info (List.mem_map_of_mem hsource))

lemma loop_logRead (h : ∀ source ∈ repo.commits, source.info.subject ≠ []) :
    loop filePathsToCensor (logRead repo).2 =
      repo.oldestFirst.flatMap fun source => turn filePathsToCensor source.info.noted := by
  rw [logRead_eq repo h, loop, ← List.map_reverse, List.flatMap_map]
  rfl

lemma tracksHead_start : TracksHead {} := fun _ => Iff.rfl

/-- **The censored repository has no censored file, however far the machine gets.**  It has one
commit after the other of those that were handled, without what is censored or newly ignored; those
that are not there have no file that the commit before does not have too.

Where nothing else goes wrong, the machine is done iterating if and only if every commit has a
subject, no censored path is ever a directory, and where there is nothing to commit git says it in
the words that are looked for.  Newer versions of git say "nothing to commit, working tree clean",
with which the machine stops at the first commit that has nothing but censored changes.

Ignored files are what makes the history matter: `git add` skips a file that is ignored and not
tracked, and takes one that is tracked.  So a commit of the new repository is a function of the
commit before it and of the files of the old one, and a file that is ignored and was never tracked
is in none of them. -/
theorem rerolls (git : Git) (repo : SourceRepo) (filePathsToCensor : List FilePathToCensor) :
    (∀ n, ∃ handled, handled <+: repo.oldestFirst ∧ IsRerolled filePathsToCensor git handled
      (unrollRerollUpTo git repo filePathsToCensor n).1.commits) ∧
    ((unrollReroll git repo filePathsToCensor).2 = true ↔
      (∀ source ∈ repo.commits, source.info.subject ≠ []) ∧
        CanRerollAll filePathsToCensor git [] repo.oldestFirst) ∧
    ((unrollReroll git repo filePathsToCensor).2 = true →
      IsRerolled filePathsToCensor git repo.oldestFirst
        (unrollReroll git repo filePathsToCensor).1.commits) := by
  have hsources : ∀ source ∈ repo.oldestFirst, source ∈ repo.commits :=
    fun source => List.mem_reverse.1
  have hupTo (n : ℕ) : unrollRerollUpTo git repo filePathsToCensor n =
      if (logRead repo).1 then Script.perform (Action.perform git repo)
        ((loop filePathsToCensor (logRead repo).2).take n) {} else ({}, false) := rfl
  have hall : unrollReroll git repo filePathsToCensor =
      if (logRead repo).1 then Script.perform (Action.perform git repo)
        (loop filePathsToCensor (logRead repo).2) {} else ({}, false) := rfl
  cases hread : (logRead repo).1 with
  | false =>
      rw [hread, if_neg Bool.false_ne_true] at hall
      rw [hall]
      refine ⟨fun n => ⟨[], List.nil_prefix, ?_⟩, ⟨fun h => absurd h Bool.false_ne_true, ?_⟩,
        fun h => absurd h Bool.false_ne_true⟩
      · rw [hupTo, hread, if_neg Bool.false_ne_true]
        exact IsRerolled.nil
      · intro h
        have hsubjects := logRead_eq repo h.1
        rw [hsubjects] at hread
        exact absurd hread.symm Bool.false_ne_true
  | true =>
      have hsubjects := subject_ne_nil_of_logRead hread
      have hloop := @perform_loop filePathsToCensor git repo {} repo.oldestFirst hsources
        tracksHead_start
      rw [hread, if_pos rfl, loop_logRead hsubjects] at hall
      rw [hall, hloop.1]
      refine ⟨?_, ⟨fun h => ⟨hsubjects, h⟩, fun h => h.2⟩, ?_⟩
      · intro n
        obtain ⟨handled, hprefix, hcommits⟩ := @perform_loop_take filePathsToCensor git repo {}
          repo.oldestFirst hsources tracksHead_start n
        refine ⟨handled, hprefix, ?_⟩
        rw [hupTo, hread, if_pos rfl, loop_logRead hsubjects, hcommits]
        exact IsRerolled.nil.append handled
      · intro h
        rw [hloop.2 (hloop.1.2 h)]
        exact IsRerolled.nil.append repo.oldestFirst

end Autobackup.GitUnroll
