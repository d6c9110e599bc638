import Autobackup.Foundation.Machine
import Autobackup.Foundation.QString
import Autobackup.Foundation.SymlinkTree

/-!
# The symlink to the latest commit

A run of `AtomicallyUpdateSymlinkToLatestGitCommit` unpacks the latest commit into a new directory
`repoAt…`, named after the second, and prepares a symlink to it, which `mv` puts in the place of the
one that visitors use.  Then it deletes the directory to which that one led before.

A run takes one step after the other, and it may fail or stop before each of them.  A run in which
the programs are not executable stops at once.  Deletions come in any order and may leave something
behind.  The directory of the symlink and the temporary directory are given by paths without
symlinks and without `..`.
-/

namespace Autobackup.LiveSymlink

open QString

abbrev Path := List Text

/-- The content of a file is a text. -/
abbrev Tree := SymlinkTree Text Text

/-- What `git archive` gives: the entries of a commit, directories before what is in them. -/
structure Archive where
  entries : List (Path × SymlinkEntry Text Text)
  nodup : (entries.map Prod.fst).Nodup
  inside : ∀ entry ∈ entries, entry.1 ≠ []

/-- The arguments of a run.  Their paths have no `.` or `..`, and all directories on them are
directories and no symlinks, so that `canonicalFilePath` has nothing else to resolve. -/
structure Arguments where
  workingDirectory : Path
  tempDirForBothCloneDestinationsAndSymlinkPreparation : LinkText Text
  /-- `QFileInfo::absolutePath` of `symlinkToAtomicallyUpdate` -/
  directoryContainingSymlinkToAtomicallyUpdate : Path
  /-- `QFileInfo::fileName` of `symlinkToAtomicallyUpdate` -/
  fileName : Text
  /-- The symlink must not be in the root of the temporary directory. -/
  outside : directoryContainingSymlinkToAtomicallyUpdate ≠
    tempDirForBothCloneDestinationsAndSymlinkPreparation.path workingDirectory

/-- When a run starts, and the commit that is the latest then. -/
structure Run where
  currentMSecsSinceEpoch : ℤ
  latestCommit : Archive

namespace Arguments

variable (a : Arguments)

def symlinkToAtomicallyUpdate : Path :=
  a.directoryContainingSymlinkToAtomicallyUpdate ++ [a.fileName]

def tempDir : Path :=
  a.tempDirForBothCloneDestinationsAndSymlinkPreparation.path a.workingDirectory

def tempSymbolicLink : Path := a.tempDir ++ [a.fileName]

end Arguments

def Run.repoAt (r : Run) : Text :=
  "repoAt".toList ++ number (r.currentMSecsSinceEpoch.tdiv 1000)

/-- As it is given to `QFile::link`. -/
def Arguments.latestCommitArchiveDestText (a : Arguments) (r : Run) : LinkText Text where
  absolute := a.tempDirForBothCloneDestinationsAndSymlinkPreparation.absolute
  names := a.tempDirForBothCloneDestinationsAndSymlinkPreparation.names ++ [r.repoAt]

/-- As the process itself sees it. -/
def Arguments.latestCommitArchiveDest (a : Arguments) (r : Run) : Path := a.tempDir ++ [r.repoAt]

/-- What comes next.  After `canonicalFilePath`, `symlinkTargetToMaybeDeleteLater` is known. -/
inductive Phase
  | notRunning
  | mkpath (r : Run)
  | untar (r : Run) (rest : List (Path × SymlinkEntry Text Text))
  | canonicalFilePath (r : Run)
  | removeTempSymbolicLink (r : Run) (target : Option Path)
  | link (r : Run) (target : Option Path)
  | mv (r : Run) (target : Option Path)
  | removeRecursively (r : Run) (target : Option Path)
  /-- The run has returned `true`. -/
  | succeeded (r : Run)

structure State where
  tree : Tree
  phase : Phase := .notRunning
  /-- The runs that were started. -/
  runs : List Run := []
  /-- A run has succeeded. -/
  hasSucceeded : Bool := false

inductive Event
  | start (r : Run)
  /-- The run takes its next step. -/
  | proceed
  /-- One of the deletions of `removeRecursively`, or that of `.lastModifiedTimestamps` before. -/
  | delete (path : Path)
  /-- The run fails, or the process ends. -/
  | stop

/-- `tar` writes an entry. -/
def extract (tree : Tree) (path : Path) (entry : SymlinkEntry Text Text) : Option Tree :=
  match tree path with
  | none => some (tree.put path entry)
  | some old =>
      if (old = .directory ↔ entry = .directory) then some (tree.put path entry) else none

/-- `QFile::remove` -/
def removeFile (tree : Tree) (path : Path) : Tree :=
  if tree path = some .directory then tree else tree.erase path

namespace Arguments

variable (a : Arguments)

/-- The symlink's target, if it is one and its target exists. -/
def symlinkTargetToMaybeDeleteLater (tree : Tree) : Option Path :=
  if tree.isSymLink a.symlinkToAtomicallyUpdate then tree.resolve a.symlinkToAtomicallyUpdate
  else none

/-- `mv -f` of the temporary symlink into the directory. -/
def atomicMoveOverwritingDestinationPlx (tree : Tree) : Option Tree :=
  match tree a.tempSymbolicLink with
  | none => none
  | some entry =>
      if tree.IsRealDirectory a.directoryContainingSymlinkToAtomicallyUpdate ∧
          tree a.symlinkToAtomicallyUpdate ≠ some .directory then
        some ((tree.put a.symlinkToAtomicallyUpdate entry).erase a.tempSymbolicLink)
      else none

def proceed (st : State) : State :=
  match st.phase with
  | .notRunning | .succeeded _ => st
  | .mkpath r =>
      match st.tree.mkpath (a.latestCommitArchiveDest r) with
      | none => { st with phase := .notRunning }
      | some tree => { st with tree := tree, phase := .untar r r.latestCommit.entries }
  | .untar r [] => { st with phase := .canonicalFilePath r }
  | .untar r (entry :: rest) =>
      match extract st.tree (a.latestCommitArchiveDest r ++ entry.1) entry.2 with
      | none => { st with phase := .notRunning }
      | some tree => { st with tree := tree, phase := .untar r rest }
  | .canonicalFilePath r =>
      { st with phase := .removeTempSymbolicLink r (a.symlinkTargetToMaybeDeleteLater st.tree) }
  | .removeTempSymbolicLink r target =>
      { st with tree := removeFile st.tree a.tempSymbolicLink, phase := .link r target }
  | .link r target =>
      if st.tree a.tempSymbolicLink = none then
        { st with
          tree := st.tree.put a.tempSymbolicLink (.symlink (a.latestCommitArchiveDestText r))
          phase := .mv r target }
      else { st with phase := .notRunning }
  | .mv r target =>
      match a.atomicMoveOverwritingDestinationPlx st.tree with
      | none => { st with phase := .notRunning }
      | some tree => { st with tree := tree, phase := .removeRecursively r target }
  | .removeRecursively r _ => { st with phase := .succeeded r, hasSucceeded := true }

def step (st : State) : Event → State
  | .start r =>
      match st.phase with
      | .notRunning | .succeeded _ => { st with phase := .mkpath r, runs := st.runs ++ [r] }
      | _ => st
  | .proceed => a.proceed st
  | .delete path =>
      match st.phase with
      | .removeRecursively _ (some target) =>
          if st.tree target = some .directory ∧ target <+: path then
            { st with tree := st.tree.erase path }
          else st
      | _ => st
  | .stop => { st with phase := .notRunning }

/-! ## Never dangling -/

/-- The symlink leads to a directory with everything that is in the commit. -/
def Serves (tree : Tree) (commit : Archive) : Prop :=
  ∃ directory ∈ tree.resolve a.symlinkToAtomicallyUpdate, tree directory = some .directory ∧
    ∀ entry ∈ commit.entries, tree (directory ++ entry.1) = some entry.2

/-- Once a run has succeeded, the symlink leads to a commit that was the latest at the start of some
run, and after each run that succeeds to that run's. -/
structure Safe (st : State) : Prop where
  served : st.hasSucceeded = true → ∃ r ∈ st.runs, a.Serves st.tree r.latestCommit
  latest : ∀ r, st.phase = .succeeded r → a.Serves st.tree r.latestCommit

/-- What is deleted is not around the directory of the run, nor above the symlink. -/
def TargetApart (r : Run) (target : Option Path) : Prop :=
  ∀ directory ∈ target, ¬ directory <+: a.latestCommitArchiveDest r ∧
    ¬ a.latestCommitArchiveDest r <+: directory ∧ ¬ directory <+: a.symlinkToAtomicallyUpdate

/-- A run starts while the symlink neither leads into the directory of the run nor is in there, and
this directory is not a symlink.  The temporary directory is given by a path that says the same in
the directory of the symlink, as an absolute one does. -/
def StartsApart (tree : Tree) (r : Run) : Prop :=
  a.tempDirForBothCloneDestinationsAndSymlinkPreparation.path
      a.directoryContainingSymlinkToAtomicallyUpdate = a.tempDir ∧
    tree.isSymLink (a.latestCommitArchiveDest r) = false ∧
    ¬ a.latestCommitArchiveDest r <+: a.symlinkToAtomicallyUpdate ∧
    ∀ target ∈ tree.resolve a.symlinkToAtomicallyUpdate, ¬ a.latestCommitArchiveDest r <+: target

def LooksApart (tree : Tree) : Phase → Prop
  | .canonicalFilePath r => a.TargetApart r (a.symlinkTargetToMaybeDeleteLater tree)
  | .notRunning | .mkpath _ | .untar _ _ | .removeTempSymbolicLink _ _ | .link _ _ | .mv _ _
  | .removeRecursively _ _ | .succeeded _ => True

/-- What must hold before a step.  It is asked of the step of one run, with the symlink and the
directories as they are at that moment. -/
def Apart (st : State) : Event → Prop
  | .start r => a.StartsApart st.tree r
  | .proceed => a.LooksApart st.tree st.phase
  | .delete _ | .stop => True

instance (tree : Tree) (commit : Archive) : Decidable (a.Serves tree commit) :=
  inferInstanceAs (Decidable (∃ directory ∈ tree.resolve a.symlinkToAtomicallyUpdate,
    tree directory = some .directory ∧
      ∀ entry ∈ commit.entries, tree (directory ++ entry.1) = some entry.2))

instance (r : Run) (target : Option Path) : Decidable (a.TargetApart r target) :=
  inferInstanceAs (Decidable (∀ directory ∈ target,
    ¬ directory <+: a.latestCommitArchiveDest r ∧ ¬ a.latestCommitArchiveDest r <+: directory ∧
      ¬ directory <+: a.symlinkToAtomicallyUpdate))

instance (tree : Tree) (r : Run) : Decidable (a.StartsApart tree r) :=
  inferInstanceAs (Decidable (_ ∧ _ ∧ ¬ _ <+: _ ∧
    ∀ target ∈ tree.resolve a.symlinkToAtomicallyUpdate,
      ¬ a.latestCommitArchiveDest r <+: target))

instance (tree : Tree) (phase : Phase) : Decidable (a.LooksApart tree phase) :=
  match phase with
  | .canonicalFilePath r =>
      inferInstanceAs (Decidable (a.TargetApart r (a.symlinkTargetToMaybeDeleteLater tree)))
  | .notRunning | .mkpath _ | .untar _ _ | .removeTempSymbolicLink _ _ | .link _ _ | .mv _ _
  | .removeRecursively _ _ | .succeeded _ => .isTrue trivial

instance (st : State) (event : Event) : Decidable (a.Apart st event) :=
  match event with
  | .start r => inferInstanceAs (Decidable (a.StartsApart st.tree r))
  | .proceed => inferInstanceAs (Decidable (a.LooksApart st.tree st.phase))
  | .delete _ | .stop => .isTrue trivial

end Arguments

end Autobackup.LiveSymlink
