import Autobackup.Filesystem.LastModifiedTimestamp
import Autobackup.Foundation.Machine
import Autobackup.Foundation.QString
import Autobackup.Foundation.SortedMap
import Mathlib.Data.Char
import Mathlib.Data.List.AList
import Mathlib.Data.List.Lex
import Mathlib.Data.List.Sort
import Mathlib.Logic.Function.Basic
import Mathlib.Algebra.Group.Nat.Defs

/-!
# The last modified timestamps that are watched

A `.lastModifiedTimestamps` file has a line for each path, with the second it was last modified at.
`LastModifiedTimestampsWatcher` reads each file into a map from timestamps to lists of paths, and
combines the maps into one list that is sorted, and published with an index.

The lists are on the heap, and the maps hold pointers to them.  A list is known by how many were
made before it.  Combining gives the combined map the list of the first file that has a timestamp,
appends the lists of the others to it and sorts it, in place.  In which order the files come is up
to the hash they are in.
-/

namespace Autobackup.Timeline

open QString Filesystem

/-! ## The maps of the files -/

/-- A `QList<std::string>*`. -/
abbrev ListId := ℕ

abbrev Heap := ListId → List Text

/-- A map that is read, and the heap. -/
structure Reading where
  map : SortedMap ℤ ListId
  lists : Heap
  made : ℕ

def readLine (pathPrefix : Text) (reading : Reading) (line : Text) : Reading :=
  if line = [] then reading
  else
    match SimplifiedLastModifiedTimestamp.ofLine line with
    | none => reading
    | some timestampAndFilePath =>
        let currentTimestamp := timestampAndFilePath.lastModifiedTimestamp.tdiv 1000
        let path := pathPrefix ++ timestampAndFilePath.filePath
        match reading.map.lookup currentTimestamp with
        | none =>
            { map := reading.map.insert currentTimestamp reading.made
              lists := Function.update reading.lists reading.made [path]
              made := reading.made + 1 }
        | some listOfPaths =>
            { reading with
              lists := Function.update reading.lists listOfPaths
                (reading.lists listOfPaths ++ [path]) }

/-! ## Combining -/

structure Combining where
  combinedMap : SortedMap ℤ ListId
  lists : Heap

def combineEntry (combining : Combining) (entry : ℤ × ListId) : Combining :=
  match combining.combinedMap.lookup entry.1 with
  | some existingPathsForTimestamp =>
      { combining with
        lists := Function.update combining.lists existingPathsForTimestamp
          -- in place: the list belongs to the file that had the timestamp first
          (combining.lists existingPathsForTimestamp ++ combining.lists entry.2) }
  -- the pointer is copied, and not the list
  | none => { combining with combinedMap := combining.combinedMap.insert entry.1 entry.2 }

abbrev TimestampAndPath := ℤ × Text

/-- `LastModifiedTimestampsAndPaths` -/
structure LastModifiedTimestampsAndPaths where
  sortedTimestampAndPathFlatList : List TimestampAndPath
  pathsIndexIntoFlatListHash : AList fun _ : Text => ℕ

/-- The internal path of what is not a directory. -/
def internalPath (path : Text) : Option Text :=
  let currentPath := '/' :: path
  if currentPath.getLast? = some '/' ∨ currentPath = ['/'] then none else some currentPath

/-- The index that is counted up is the length of the list. -/
def addPath (timestamp : ℤ) (result : LastModifiedTimestampsAndPaths) (path : Text) :
    LastModifiedTimestampsAndPaths :=
  match internalPath path with
  | none => result
  | some currentPath =>
      { sortedTimestampAndPathFlatList :=
          result.sortedTimestampAndPathFlatList ++ [(timestamp, currentPath)]
        pathsIndexIntoFlatListHash := result.pathsIndexIntoFlatListHash.insert currentPath
          result.sortedTimestampAndPathFlatList.length }

structure Converting where
  lists : Heap
  result : LastModifiedTimestampsAndPaths

def convertEntry (converting : Converting) (entry : ℤ × ListId) : Converting :=
  let allPathsWithThisTimestamp := (converting.lists entry.2).insertionSort (· ≤ ·)
  { lists := Function.update converting.lists entry.2 allPathsWithThisTimestamp
    result := allPathsWithThisTimestamp.foldl (addPath entry.1) converting.result }

/-! ## The watcher -/

/-- What was published, and what the files contained when it was. -/
structure Published extends LastModifiedTimestampsAndPaths where
  contents : ℕ → List Text

structure LastModifiedTimestampsWatcher where
  /-- How many files are watched, and the prefix for the paths of each. -/
  files : ℕ
  pathPrefix : ℕ → Text
  maps : ℕ → SortedMap ℤ ListId := fun _ => .empty
  lists : Heap := fun _ => []
  made : ℕ := 0
  contents : ℕ → List Text := fun _ => []
  published : List Published := []

namespace LastModifiedTimestampsWatcher

variable (st : LastModifiedTimestampsWatcher)

/-- The map that was there is deleted, but not its lists. -/
def addAndReadLastModifiedTimestampsFile (file : ℕ) (lines : List Text) :
    LastModifiedTimestampsWatcher :=
  let reading := lines.foldl (readLine (st.pathPrefix file)) ⟨.empty, st.lists, st.made⟩
  { st with
    maps := Function.update st.maps file reading.map
    lists := reading.lists
    made := reading.made
    contents := Function.update st.contents file lines }

/-- The files come in the order that is given, if it is one of them. -/
def arrange (order : List ℕ) : List ℕ :=
  if order.Perm (List.range st.files) then order else List.range st.files

def combineAndPublishLastModifiedTimestampsFiles (order : List ℕ) :
    LastModifiedTimestampsWatcher :=
  let combining := (st.arrange order).foldl
    (fun combining file => (st.maps file).entries.foldl combineEntry combining) ⟨.empty, st.lists⟩
  let converting := combining.combinedMap.entries.foldl convertEntry ⟨combining.lists, ⟨[], ∅⟩⟩
  let st := { st with lists := converting.lists }
  -- nothing is published in the place of the last list
  if converting.result.sortedTimestampAndPathFlatList = [] then st
  else { st with published := st.published ++ [⟨converting.result, st.contents⟩] }

end LastModifiedTimestampsWatcher

/-- A file has other contents now, and the hash has the files in some order. -/
structure FileChanged where
  file : ℕ
  lines : List Text
  order : List ℕ

namespace LastModifiedTimestampsWatcher

def handleLastModifiedTimestampsChanged (st : LastModifiedTimestampsWatcher) (x : FileChanged) :
    LastModifiedTimestampsWatcher :=
  if x.file < st.files then
    (st.addAndReadLastModifiedTimestampsFile x.file
      x.lines).combineAndPublishLastModifiedTimestampsFiles x.order
  else st

def startWatchingLastModifiedTimestampsFiles (files : ℕ) (pathPrefix : ℕ → Text)
    (contents : ℕ → List Text) (order : List ℕ) : LastModifiedTimestampsWatcher :=
  let st : LastModifiedTimestampsWatcher := { files := files, pathPrefix := pathPrefix }
  ((List.range files).foldl (fun st file =>
    st.addAndReadLastModifiedTimestampsFile file (contents file))
      st).combineAndPublishLastModifiedTimestampsFiles order

end LastModifiedTimestampsWatcher
end Autobackup.Timeline
