import Autobackup.Filesystem.LastModifiedTimestamp
import Autobackup.Foundation.Machine
import Autobackup.Foundation.Script
import Autobackup.Foundation.TextLines
import Autobackup.Foundation.TextParts
import Autobackup.Foundation.WrittenTree
import Mathlib.Data.List.AList
import Mathlib.Data.List.Lex
import Mathlib.Data.List.Sort

/-!
# A static git web

The program makes a page for each file of a git repository.  A run goes through the commits that
were made since the last run that succeeded.  The pages of the files that a commit has deleted are
removed, those of the files that it has added or modified are written, and the index is told of
them.  At the end of the run the index is written, which reads the new files from a temporary
directory.

Nothing is undone when a run fails.  The commit to go on from is only noted after a success, the
entries of the index are kept in any case, unless the program is killed.

A history is linear, and its files are no symbolic links or submodules.  What a text stream reads of
a file is a parameter, and so is what stands in `parentOid`, which is not initialized in a run that
goes on from a commit.  The paths in a timestamps file are taken as they stand: the program that
writes it has no reason to put `a//b` or `./a` for the file that git knows as `a/b` or `a`, and such
a line would be about another file here.
-/

namespace Autobackup.QuickDirtyStaticGitWeb

open QString Filesystem

abbrev Path := List Text

abbrev Blob := List UInt8

def filePath (p : Path) : Text := ['/'].intercalate p

/-- `LAST_MODIFIED_TIMESTAMPS_FILEPATH` -/
def lastModifiedTimestampsFilepath : Path := [".lastModifiedTimestamps".toList]

structure File where
  executable : Bool
  content : Blob
  deriving DecidableEq

/-- A commit with its files, in the order of a walk through its tree. -/
structure Commit where
  oid : Text
  time : ℤ
  tree : AList fun _ : Path => File
  named : [] ∉ tree

/-- The name of the page of a file. -/
def htmlPath (p : Path) : Path := p.dropLast ++ [p.getLastD [] ++ ".html".toList]

/-- `fileNamePlusDotHtmlMostLikely` -/
def outputPath (p : Path) : Path := if p = lastModifiedTimestampsFilepath then p else htmlPath p

inductive Page
  /-- The page with this path and this content. -/
  | html (filePath : Path) (content : Blob)
  | raw (content : Blob)
  | diff (oid : Text)
  | index
  deriving DecidableEq

/-- `fileHtml` -/
def fileHtml (p : Path) (content : Blob) : Page :=
  if p = lastModifiedTimestampsFilepath then .raw content else .html p content

/-- `diffHtmlFilePath` -/
def diffHtmlFilePath (parentOid oid : Text) : Path :=
  ["diff".toList, parentOid.take 9 ++ "..".toList ++ oid.take 9 ++ ".html".toList]

def indexHtml : Path := ["index.html".toList]

/-- `QString::toHtmlEscaped` -/
def toHtmlEscaped (text : Text) : Text :=
  text.flatMap fun c =>
    if c = '<' then "&lt;".toList
    else if c = '>' then "&gt;".toList
    else if c = '&' then "&amp;".toList
    else if c = '"' then "&quot;".toList
    else [c]

/-- The code units by which `QString` is ordered. -/
def utf16 (text : Text) : List ℕ :=
  text.flatMap fun c =>
    if c.toNat < 0x10000 then [c.toNat]
    else [0xd800 + (c.toNat - 0x10000) / 0x400, 0xdc00 + (c.toNat - 0x10000) % 0x400]

/-- The bytes of a `std::string` are ordered as these are. -/
def codePoints (text : Text) : List ℕ := text.map Char.toNat

/-! ## Timestamps -/

/-- The seconds that are found for a path, and nothing if a line before cannot be read. -/
def findTimestamp (searched : Text) : List Text → Option ℤ
  | [] => some 0
  | currentLine :: rest =>
      if trimmed currentLine = [] then findTimestamp searched rest
      else
        match SimplifiedLastModifiedTimestamp.ofLine currentLine with
        | none => none
        | some entry =>
            -- a directory of that name is passed over
            if entry.isDirectory = false ∧ entry.filePath = searched then
              some (entry.lastModifiedTimestamp.tdiv 1000)
            else findTimestamp searched rest

/-- `sortLastModifiedTimestamps`: the paths in the order of their times. -/
def sortLastModifiedTimestamps (lines : List Text) : List Path :=
  let entries := lines.filterMap SimplifiedLastModifiedTimestamp.ofLine
  let timed := entries.map fun entry => (entry.lastModifiedTimestamp.tdiv 1000, entry.filePath)
  let sorted := timed.insertionSort fun a b =>
    a.1 < b.1 ∨ a.1 = b.1 ∧ codePoints a.2 ≤ codePoints b.2
  sorted.map fun entry => entry.2.splitOn '/'

/-! ## The index -/

/-- What the index says of a file; a file that was created has no text before the run ends. -/
inductive EntryHtml
  | empty
  | created
  | modified
  deriving DecidableEq

structure IndexEntry where
  path : Path
  html : EntryHtml
  deriving DecidableEq

abbrev IndexHtmlFifo := List IndexEntry

namespace IndexHtmlFifo

/-- `MAX_INDEXHTML_ENTRIES` -/
def maxEntries : ℕ := 100

/-- `removeModificationEntriesByFilePath`: the first of them is removed. -/
def removeModificationEntries (fifo : IndexHtmlFifo) (p : Path) : IndexHtmlFifo :=
  fifo.eraseP fun entry => entry.path = p ∧ entry.html = .modified

def myEnqueue (fifo : IndexHtmlFifo) (newEntry : IndexEntry) : IndexHtmlFifo :=
  if newEntry.path = lastModifiedTimestampsFilepath then fifo
  else
    let queue := removeModificationEntries fifo newEntry.path ++ [newEntry]
    queue.drop (queue.length - maxEntries)

/-- `updateSecondWithoutMovingPositionInQueue` -/
def updateSecond : IndexHtmlFifo → Path → IndexHtmlFifo
  | [], _ => []
  | entry :: rest, p =>
      if entry.path = p then ⟨p, .created⟩ :: rest else entry :: updateSecond rest p

/-- The paths of the entries without text, the newest first. -/
def withoutText (fifo : IndexHtmlFifo) : List Path :=
  (fifo.reverse.filter fun entry => entry.html = .empty).map IndexEntry.path

/-- The entries with the texts that were made for the index. -/
def afterIndex (fifo : IndexHtmlFifo) : IndexHtmlFifo := fifo.withoutText.foldl updateSecond fifo

end IndexHtmlFifo

/-! ## What a commit has changed -/

structure Delta where
  added : List Path
  modified : List Path
  deleted : List Path

/-- `git_diff_tree_to_tree`; for the root commit no difference is taken. -/
def deltaTo (parent : Option Commit) (c : Commit) : Delta :=
  match parent with
  | none => ⟨[], [], []⟩
  | some old =>
      { added := c.tree.keys.filter fun p => p ∉ old.tree
        modified := c.tree.keys.filter fun p => p ∈ old.tree ∧ old.tree.lookup p ≠ c.tree.lookup p
        deleted := old.tree.keys.filter fun p => p ∉ c.tree }

/-- The files that are written: all of the root commit, or those that were added or modified. -/
def writtenFiles (parent : Option Commit) (c : Commit) : List (Σ _ : Path, File) :=
  c.tree.entries.filter fun file =>
    parent.isNone || decide (file.1 ∈ (deltaTo parent c).modified) ||
      decide (file.1 ∈ (deltaTo parent c).added)

/-- `m_TreeEntryPathsEitherAddedOrModified` -/
def writtenPaths (parent : Option Commit) (c : Commit) : List Path :=
  (writtenFiles parent c).map Sigma.fst

/-- The entries of the files that the lists still have; each is taken out of its list. -/
def takeEntries : List Path → List Path → List Path → List IndexEntry
  | _, _, [] => []
  | added, modified, p :: rest =>
      if p ∈ added then ⟨p, .empty⟩ :: takeEntries (added.erase p) modified rest
      else if p ∈ modified then ⟨p, .modified⟩ :: takeEntries added (modified.erase p) rest
      else takeEntries added modified rest

/-! ## A run -/

/-- A turn of the loop over the commits. -/
structure Turn where
  parent : Option Commit
  commit : Commit
  parentOid : Text

/-- What is done in a run, and can fail. -/
inductive Action
  /-- A file was deleted. -/
  | delete (parent : Option Commit) (p : Path)
  | writeDiff (parentOid oid : Text)
  /-- `treeWalkingCallback`, for a file that is written. -/
  | write (p : Path) (content : Blob)
  /-- An entry for the index. -/
  | list (parent : Option Commit) (searched : Text) (entry : IndexEntry)
  | writeIndex

structure Session where
  destination : WrittenTree Text Page
  /-- The plain texts of the files that this run has written. -/
  temp : WrittenTree Text Blob
  indexHtmlFifo : IndexHtmlFifo

section

variable (decode : Blob → Text)

/-- The lines of a timestamps file. -/
def readTimestamps (file : File) : List Text := linesOf (decode file.content)

/-- The time of a file in the commit before. -/
def oldTimestamp (parent : Option Commit) (searched : Text) : Option ℤ :=
  match parent with
  | none => some 0
  | some old =>
      match old.tree.lookup lastModifiedTimestampsFilepath with
      | some file => findTimestamp searched (readTimestamps decode file)
      | none =>
          if old.tree.keys.any fun p => lastModifiedTimestampsFilepath.isPrefixOf p then none
          -- no timestamps file was committed by then: the time of the commit stands in for it
          else some old.time

/-- Whether a time was found; for a modified file there is that of the commit as well. -/
def findsOldTimestamp (parent : Option Commit) (searched : Text) : EntryHtml → Bool
  | .modified =>
      match oldTimestamp decode parent searched with
      | none => false
      | some s => decide (s ≠ 0) || decide (parent.elim 0 Commit.time ≠ 0)
  | _ =>
      match oldTimestamp decode parent searched with
      | none => false
      | some s => decide (s ≠ 0)

namespace Turn

variable (turn : Turn)

/-- The files in the order in which the index is told of them: by the times of the timestamps file
if that was written, and otherwise by their paths, from the last one on. -/
def ordered : List Path :=
  if lastModifiedTimestampsFilepath ∈ writtenPaths turn.parent turn.commit then
    (turn.commit.tree.lookup lastModifiedTimestampsFilepath).elim [] fun file =>
      sortLastModifiedTimestamps (readTimestamps decode file)
  else
    ((writtenPaths turn.parent turn.commit).insertionSort fun p q =>
      utf16 (filePath p) ≤ utf16 (filePath q)).reverse

/-- What is looked for in the timestamps file of the commit before. -/
def searchedPath (p : Path) : Text :=
  if lastModifiedTimestampsFilepath ∈ writtenPaths turn.parent turn.commit then filePath p
  else toHtmlEscaped (filePath p)

def entries : List IndexEntry :=
  if turn.parent.isNone then (turn.ordered decode).map fun p => ⟨p, .empty⟩
  else
    let delta := deltaTo turn.parent turn.commit
    takeEntries delta.added delta.modified (turn.ordered decode)

/-- The body of the loop. -/
def actions : List Action :=
  let delta := deltaTo turn.parent turn.commit
  delta.deleted.map (Action.delete turn.parent) ++
    (if delta.modified = [] then [] else [.writeDiff turn.parentOid turn.commit.oid]) ++
    (writtenFiles turn.parent turn.commit).map (fun file => .write file.1 file.2.content) ++
    (turn.entries decode).map fun entry =>
      .list turn.parent (turn.searchedPath entry.path) entry

end Turn

/-- The actions of a run over the given commits. -/
def runActions (parent : Option Commit) (parentOid : Text) : List Commit → List Action
  | [] => [.writeIndex]
  | c :: rest =>
      Turn.actions decode ⟨parent, c, parentOid⟩ ++ runActions (some c) c.oid rest

def Action.perform : Action → Session → Session × Bool
  | .delete parent p, s =>
      match s.destination.remove (htmlPath p) with
      | none => (s, false)
      | some destination =>
          ({ s with destination, indexHtmlFifo := s.indexHtmlFifo.removeModificationEntries p },
            findsOldTimestamp decode parent (filePath p) .empty)
  | .writeDiff parentOid oid, s =>
      if (s.destination (diffHtmlFilePath parentOid oid)).isSome then (s, false)
      else
        match s.destination.put (diffHtmlFilePath parentOid oid) (.diff oid) with
        | none => (s, false)
        | some destination => ({ s with destination }, true)
  | .write p content, s =>
      match s.temp.put p content with
      | none => (s, false)
      | some temp =>
          match s.destination.put (outputPath p) (fileHtml p content) with
          | none => ({ s with temp }, false)
          | some destination => ({ s with temp, destination }, true)
  | .list parent searched entry, s =>
      match s.destination.touch (htmlPath entry.path) (.raw []) with
      | none => (s, false)
      | some destination =>
          ({ s with destination, indexHtmlFifo := s.indexHtmlFifo.myEnqueue entry },
            entry.html ≠ .modified || findsOldTimestamp decode parent searched entry.html)
  | .writeIndex, s =>
      if ∀ p ∈ s.indexHtmlFifo.withoutText, (s.temp.fileAt p).isSome then
        match s.destination.put indexHtml .index with
        | none => ({ s with indexHtmlFifo := s.indexHtmlFifo.afterIndex }, false)
        | some destination =>
            ({ s with destination, indexHtmlFifo := s.indexHtmlFifo.afterIndex }, true)
      else (s, false)

/-! ## Run after run -/

structure GitWeb where
  /-- The commits up to the one that the settings have noted. -/
  handled : List Commit
  /-- The commits that were made since. -/
  pending : List Commit
  destination : WrittenTree Text Page
  /-- The entries that the settings have. -/
  indexHtmlFifo : IndexHtmlFifo

inductive GitWebEvent
  | commit (c : Commit)
  | run (parentOid : Text)
  /-- A run that does not get further than so many actions: something else has failed, or the
  program was killed. -/
  | stopped (parentOid : Text) (n : ℕ) (killed : Bool)

namespace GitWeb

def initial : GitWeb where
  handled := []
  pending := []
  destination := WrittenTree.empty
  indexHtmlFifo := []

variable (s : GitWeb)

/-- The commit that the settings have noted. -/
def parent : Option Commit := s.handled.getLast?

/-- The temporary directory is a new one for each run. -/
def session : Session := ⟨s.destination, WrittenTree.empty, s.indexHtmlFifo⟩

def performed (actions : List Action) : Session × Bool :=
  Script.perform (Action.perform decode) actions s.session

/-- `generateStaticGitWeb` -/
def generateStaticGitWeb (parentOid : Text) : GitWeb :=
  let result := s.performed decode (runActions decode s.parent parentOid s.pending)
  { handled := if result.2 then s.handled ++ s.pending else s.handled
    pending := if result.2 then [] else s.pending
    destination := result.1.destination
    indexHtmlFifo := result.1.indexHtmlFifo }

def stop (parentOid : Text) (n : ℕ) (killed : Bool) : GitWeb :=
  let result := s.performed decode ((runActions decode s.parent parentOid s.pending).take n)
  { s with
    destination := result.1.destination
    indexHtmlFifo := if killed && result.2 then s.indexHtmlFifo else result.1.indexHtmlFifo }

variable {decode s} {parentOid : Text}

lemma generateStaticGitWeb_of_succeeds
    (h : (s.performed decode (runActions decode s.parent parentOid s.pending)).2 = true) :
    s.generateStaticGitWeb decode parentOid =
      let result := s.performed decode (runActions decode s.parent parentOid s.pending)
      ⟨s.handled ++ s.pending, [], result.1.destination, result.1.indexHtmlFifo⟩ := by
  simp only [generateStaticGitWeb, h, if_true]

lemma generateStaticGitWeb_of_fails
    (h : (s.performed decode (runActions decode s.parent parentOid s.pending)).2 = false) :
    s.generateStaticGitWeb decode parentOid =
      let result := s.performed decode (runActions decode s.parent parentOid s.pending)
      ⟨s.handled, s.pending, result.1.destination, result.1.indexHtmlFifo⟩ := by
  simp only [generateStaticGitWeb, h, Bool.false_eq_true, if_false]

variable (decode)

/-- Without a new commit nothing is done. -/
def step (s : GitWeb) : GitWebEvent → GitWeb
  | .commit c => { s with pending := s.pending ++ [c] }
  | .run parentOid => if s.pending = [] then s else s.generateStaticGitWeb decode parentOid
  | .stopped parentOid n killed => if s.pending = [] then s else s.stop decode parentOid n killed

end GitWeb

end

end Autobackup.QuickDirtyStaticGitWeb
