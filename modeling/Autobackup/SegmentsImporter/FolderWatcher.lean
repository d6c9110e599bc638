import Autobackup.Foundation.FileTree
import Autobackup.Foundation.Machine
import Autobackup.SegmentsImporter.Timestamps

/-!
# The folder watcher that imports video segments

Segments appear in watched folders under names that are timestamps.  When a watched folder has
changed, each file in it is moved to the folder of its day, `<year>/<day of year>/`, and enqueued
for the upload to the neighbor.  A folder that is not there yet appears with the first segment in
it: it is made in the scratch space and moved as a whole.

Watched folders, scratch space and destination are folders of their own, none below another.
-/

namespace Autobackup.SegmentsImporter

open QString

/-- The parts of a path: the configured folders, and names below them. -/
inductive Component where
  | watched (folder : ℕ)
  | scratchSpace
  | folderToMoveTo
  | name (text : Text)
  deriving DecidableEq

/-- A segment is known by the number it was recorded under. -/
structure Segment where
  number : ℕ
  lastModified : ℕ
  deriving DecidableEq

abbrev Path := List Component

inductive Error where
  | invalidFilename (entry : Text)
  | failedToMove (source destination : Path)
  deriving DecidableEq

structure VideoSegmentsImporterFolderWatcher where
  fileSystem : FileTree Component Segment
  propagateToNeighbor : Bool
  /-- What was enqueued at the uploader: the remote name and the local file. -/
  enqueuedForUpload : List (Text × Path) := []
  errors : List Error := []
  /-- How many segments there have been. -/
  segments : ℕ := 0

def yearFolder (root : Component) (year : ℤ) : Path := [root, .name (number year)]

def dayFolder (root : Component) (year day : ℤ) : Path :=
  [root, .name (number year), .name (number day)]

/-- Tries one name after the other.  The fuel is the number of entries there are, which cannot be
all of the names. -/
def ensureMoveWontOverwriteByAddingSeconds (tree : FileTree Component Segment) (folder : Path) :
    ℕ → ℤ → Path
  | 0, desiredFilename => folder ++ [.name (number desiredFilename ++ ogg)]
  | fuel + 1, desiredFilename =>
      if folder ++ [.name (number desiredFilename ++ ogg)] ∈ tree.paths then
        ensureMoveWontOverwriteByAddingSeconds tree folder fuel (desiredFilename + 1)
      else folder ++ [.name (number desiredFilename ++ ogg)]

namespace VideoSegmentsImporterFolderWatcher

def maybePropagateToNeighbor (st : VideoSegmentsImporterFolderWatcher)
    (timestampUsedInRename : Text) (localFilenameToPropagate : Path) :
    VideoSegmentsImporterFolderWatcher :=
  if st.propagateToNeighbor then
    { st with
      enqueuedForUpload :=
        st.enqueuedForUpload ++ [(timestampUsedInRename ++ ogg, localFilenameToPropagate)] }
  else st

/-- Moves a file and tells if that failed. -/
def move (st : VideoSegmentsImporterFolderWatcher) (source destination : Path)
    (next : VideoSegmentsImporterFolderWatcher → VideoSegmentsImporterFolderWatcher) :
    VideoSegmentsImporterFolderWatcher :=
  match st.fileSystem.rename source destination with
  -- `continue`: the other files of the folder are still imported
  | none => { st with errors := st.errors ++ [.failedToMove source destination] }
  | some tree => next { st with fileSystem := tree }

/-- What is done with one file of a watched folder. -/
def importEntry (folder : ℕ) (st : VideoSegmentsImporterFolderWatcher) (currentEntry : Text) :
    VideoSegmentsImporterFolderWatcher :=
  match toLongLong (filenameMinusExt currentEntry) with
  | none => { st with errors := st.errors ++ [.invalidFilename currentEntry] }
  | some timestamp =>
      let day := julianDay ((timestamp * 1000).bmod (2 ^ 64))
      let source : Path := [.watched folder, .name currentEntry]
      let yearFolderFinalDest := yearFolder .folderToMoveTo (year day)
      let dayFolderFinalDest := dayFolder .folderToMoveTo (year day) (dayOfYear day)
      let yearFolderInScratchSpace := yearFolder .scratchSpace (year day)
      let dayFolderInScratchSpace := dayFolder .scratchSpace (year day) (dayOfYear day)
      -- a folder must not be there before the video is in it, so it is made in the scratch space
      -- and then moved
      let throughScratchSpace (source' destination : Path) :=
        move { st with fileSystem := st.fileSystem.mkpath dayFolderInScratchSpace }
          source (dayFolderInScratchSpace ++ [.name currentEntry]) fun st =>
            st.move source' destination fun st =>
              st.maybePropagateToNeighbor (filenameMinusExt currentEntry)
                (dayFolderFinalDest ++ [.name currentEntry])
      if dayFolderFinalDest ∈ st.fileSystem.paths then
        -- only here can there be a file of that name; the seconds that are added to it do not come
        -- into the name that is propagated
        let moveToDestinationFilename := ensureMoveWontOverwriteByAddingSeconds st.fileSystem
          dayFolderFinalDest st.fileSystem.length timestamp
        st.move source moveToDestinationFilename fun st =>
          st.maybePropagateToNeighbor (filenameMinusExt currentEntry) moveToDestinationFilename
      -- second most common case, year folder already exists, day folder does not
      else if yearFolderFinalDest ∈ st.fileSystem.paths then
        throughScratchSpace dayFolderInScratchSpace dayFolderFinalDest
      else
        throughScratchSpace yearFolderInScratchSpace yearFolderFinalDest

/-- The files of a folder, the one that was modified first coming first. -/
def entryList (tree : FileTree Component Segment) (folder : ℕ) : List Text :=
  let entries := tree.files.filterMap fun file =>
    match file.1 with
    | [.watched folder', .name entry] =>
        if folder' = folder then some (entry, file.2.lastModified) else none
    | _ => none
  (entries.mergeSort fun one other => one.2 ≤ other.2).map Prod.fst

def handleDirectoryChanged (st : VideoSegmentsImporterFolderWatcher) (theDirectoryThatChanged : ℕ) :
    VideoSegmentsImporterFolderWatcher :=
  Machine.run (importEntry theDirectoryThatChanged) st
    (entryList st.fileSystem theDirectoryThatChanged)

/-- A file appears in a watched folder: what it is called, and when it was modified. -/
def put (folder : ℕ) (st : VideoSegmentsImporterFolderWatcher) (file : Text × ℕ) :
    VideoSegmentsImporterFolderWatcher :=
  { st with
    fileSystem := st.fileSystem ++
      [([.watched folder, .name file.1], some ⟨st.segments, file.2⟩)]
    segments := st.segments + 1 }

end VideoSegmentsImporterFolderWatcher

/-- A watched folder has changed: these files appeared in it. -/
structure DirectoryChanged where
  folder : ℕ
  added : List (Text × ℕ)

namespace VideoSegmentsImporterFolderWatcher

def step (st : VideoSegmentsImporterFolderWatcher) (x : DirectoryChanged) :
    VideoSegmentsImporterFolderWatcher :=
  (Machine.run (put x.folder) st x.added).handleDirectoryChanged x.folder

/-- Empty folders, some of them watched, and a neighbor to propagate to. -/
def start (watched : ℕ) : VideoSegmentsImporterFolderWatcher where
  fileSystem := [([.scratchSpace], none), ([.folderToMoveTo], none)] ++
    (List.range watched).map fun folder => ([.watched folder], none)
  propagateToNeighbor := true

end VideoSegmentsImporterFolderWatcher
end Autobackup.SegmentsImporter
