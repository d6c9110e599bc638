import Autobackup.Filesystem.GitHelper
import Autobackup.Foundation.Script
import Mathlib.Data.List.AList
import Mathlib.Data.List.Infix

/-!
# A history without some of its files

`GitUnrollRerollCensorshipMachine` goes through the log of a repository, the oldest commit first.
It checks each commit out into an empty directory, deletes the files that are to be censored, and
commits what is left to another repository, with the date and the subject of the original.

What is deleted is given by paths relative to the directory, without `..`.  A directory cannot be
deleted, and stays when the files in it are.  What git passes over when it adds files, and what it
says when there is nothing to commit, is a parameter.

An action fails where the source says it does, for what is in the directory and in the two
repositories.  Anything else that can go wrong, a full disk or a git that does not start, can stop
the machine after any number of actions.  The commits have no symbolic links and no submodules, and
the custom hacks are not compiled.
-/

namespace Autobackup.GitUnroll

open QString Filesystem

abbrev Path := List Text

/-- What git has of a file: two that differ in their mode only are a change to commit. -/
structure File where
  executable : Bool
  content : List UInt8
deriving DecidableEq

/-- The files of a commit, of an index or of a directory. -/
abbrev Tree := AList fun _ : Path => File

namespace Tree

/-- Some of the files. -/
def restrict (tree : Tree) (keep : Path → Bool) : Tree where
  entries := tree.entries.filter fun file => keep file.1
  nodupKeys := tree.nodupKeys.sublist List.filter_sublist

/-- The same files, with the same modes and contents. -/
def SameFiles (tree tree' : Tree) : Prop :=
  ∀ p ∈ tree.keys ++ tree'.keys, tree.lookup p = tree'.lookup p

instance (tree tree' : Tree) : Decidable (tree.SameFiles tree') :=
  inferInstanceAs (Decidable (∀ p ∈ _, _))

end Tree

/-! ## The two repositories -/

structure SourceCommit where
  info : Commit
  tree : Tree
  named : [] ∉ tree
  /-- Nothing is both a file and a directory. -/
  separate : ∀ p ∈ tree, ∀ q ∈ tree, p <+: q → p = q

/-- The repository that is to be censored. -/
structure SourceRepo where
  /-- As `git log` has them, the latest first. -/
  commits : List SourceCommit
  commits_ne_nil : commits ≠ []
  ids : (commits.map fun c => c.info.id).Nodup

namespace SourceRepo

def log (repo : SourceRepo) : GitLog where
  commits := repo.commits.map SourceCommit.info
  commits_ne_nil := fun h => repo.commits_ne_nil (List.map_eq_nil_iff.1 h)

def oldestFirst (repo : SourceRepo) : List SourceCommit := repo.commits.reverse

def find (repo : SourceRepo) (commitId : Text) : Option SourceCommit :=
  repo.commits.find? fun c => c.info.id = commitId

end SourceRepo

structure CensoredCommit where
  date : Text
  message : Text
  tree : Tree

/-- The files of the last commit. -/
def headTree (commits : List CensoredCommit) : Tree := commits.getLast?.elim ∅ CensoredCommit.tree

structure Git where
  /-- A file of the directory is ignored, unless it is tracked. -/
  ignored : Tree → Path → Bool
  /-- What `git commit` says when nothing has changed, to a repository with or without commits. -/
  nothingToCommit : Bool → Text

/-- What `gitCommit` looks for in the output when the exit code is not zero. -/
def workingDirectoryClean : Text := "nothing to commit (working directory clean)".toList

/-! ## The machine -/

structure CensorshipMachine where
  /-- The commit that was checked out, whose directories are there. -/
  checkedOut : Tree := ∅
  /-- `absoluteActualWorkingDir` -/
  workingDir : Tree := ∅
  /-- The index of the censored repository. -/
  index : Tree := ∅
  /-- The censored repository, the oldest commit first. -/
  commits : List CensoredCommit := []

/-- A line of the list, relative to the directory.  Where `..` leads depends on which directories
there are, and may be outside of the directory, so there is none. -/
structure FilePathToCensor where
  relativeFilePath : Text
  noParent : ['.', '.'] ∉ relativeFilePath.splitOn '/'

namespace FilePathToCensor

/-- The names in it.  A single dot is the directory in which it stands. -/
def path (filePath : FilePathToCensor) : Path :=
  (splitSkippingEmptyParts '/' filePath.relativeFilePath).filter (· ≠ ['.'])

/-- It ends in a slash or in a single dot, so that nothing but a directory can be there. -/
def isDirectory (filePath : FilePathToCensor) : Bool :=
  (filePath.relativeFilePath.splitOn '/').getLast? ∈ [some [], some ['.']]

end FilePathToCensor

/-- There is a directory at the path. -/
def IsDirectoryIn (tree : Tree) (filePath : FilePathToCensor) : Prop :=
  filePath.path = [] ∨ ∃ q ∈ tree.keys, filePath.path <+: q ∧ filePath.path ≠ q

instance (tree : Tree) (filePath : FilePathToCensor) : Decidable (IsDirectoryIn tree filePath) :=
  inferInstanceAs (Decidable (_ ∨ ∃ q ∈ _, _))

/-- There is a file at the path. -/
def IsFileIn (tree : Tree) (filePath : FilePathToCensor) : Prop :=
  filePath.isDirectory = false ∧ filePath.path ∈ tree

instance (tree : Tree) (filePath : FilePathToCensor) : Decidable (IsFileIn tree filePath) :=
  inferInstanceAs (Decidable (_ ∧ _))

inductive Action
  /-- The directory is emptied, and the commit checked out. -/
  | gitCheckout (commitId : Text)
  | remove (filePathToCensor : FilePathToCensor)
  | gitAdd
  | gitCommit (commitMessage commitDate : Text)

section

variable (git : Git) (repo : SourceRepo)

def Action.perform : Action → CensorshipMachine → CensorshipMachine × Bool
  | .gitCheckout commitId, s =>
      match repo.find commitId with
      | none => ({ s with checkedOut := ∅, workingDir := ∅ }, false)
      | some c => ({ s with checkedOut := c.tree, workingDir := c.tree }, true)
  | .remove filePathToCensor, s =>
      if IsFileIn s.workingDir filePathToCensor then
        ({ s with workingDir := s.workingDir.erase filePathToCensor.path }, true)
      -- it exists, but is no file
      else (s, decide (¬ IsDirectoryIn s.checkedOut filePathToCensor))
  | .gitAdd, s =>
      let added := s.workingDir.restrict fun p =>
        decide (p ∈ s.index) || !git.ignored s.workingDir p
      ({ s with index := added ∪ s.index }, true)
  | .gitCommit commitMessage commitDate, s =>
      -- with `-a`, all that is tracked is committed as it is in the directory
      let staged := s.workingDir.restrict fun p => decide (p ∈ s.index)
      if staged.SameFiles (headTree s.commits) then
        (s, decide (workingDirectoryClean <:+: git.nothingToCommit (s.commits ≠ [])))
      else
        ({ s with
            index := staged
            commits := s.commits ++ [⟨commitDate, commitMessage, staged⟩] }, true)

/-- A turn of the loop over the commits. -/
def turn (filePathsToCensor : List FilePathToCensor) (commit : GitCommitIdTimestampAndMessage) :
    List Action :=
  .gitCheckout commit.commitId :: (filePathsToCensor.map .remove ++
    [.gitAdd, .gitCommit commit.commitMessage commit.commitDate])

/-- The loop, from the end of the log to its beginning. -/
def loop (filePathsToCensor : List FilePathToCensor)
    (log : List GitCommitIdTimestampAndMessage) : List Action :=
  log.reverse.flatMap (turn filePathsToCensor)

/-- As far as `n` actions: later something else has failed. -/
def unrollRerollUpTo (filePathsToCensor : List FilePathToCensor) (n : ℕ) :
    CensorshipMachine × Bool :=
  let read := gitLogReturningCommitIdsAuthorDateAndCommitMessage repo.log.text
  if read.1 then
    Script.perform (Action.perform git repo) ((loop filePathsToCensor read.2).take n) {}
  else ({}, false)

/-- `unrollRerollGitRepoCensoringAtEachCommit`, and whether it was done iterating. -/
def unrollReroll (filePathsToCensor : List FilePathToCensor) : CensorshipMachine × Bool :=
  let read := gitLogReturningCommitIdsAuthorDateAndCommitMessage repo.log.text
  if read.1 then Script.perform (Action.perform git repo) (loop filePathsToCensor read.2) {}
  else ({}, false)

end

end Autobackup.GitUnroll
