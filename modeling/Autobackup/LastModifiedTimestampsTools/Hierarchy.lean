import Autobackup.Filesystem.LastModifiedTimestamp
import Autobackup.Foundation.AbsolutePath
import Autobackup.Foundation.TextLines
import Autobackup.Foundation.TimedTree

/-!
# Last modified timestamps of a hierarchy

`generateLastModifiedTimestampsFile` writes a line for each entry of a directory, in the order of
`QDirIterator`, in which a directory comes before what is in it.  `molestHeirarchy` reads the lines
and sets the times in another hierarchy, where it makes the directories that are missing.

The file with the timestamps is outside of both.  `touch` does what it is told, and the text is
written and read in a codec that loses nothing.
-/

namespace Autobackup.LastModifiedTimestampsTools

open QString AbsolutePath Filesystem Filesystem.SimplifiedLastModifiedTimestamp

/-- The names on the way to an entry. -/
abbrev Path := List Text

abbrev Tree := TimedTree Text

/-- A directory and what is in it, in the order in which it is iterated over.  Times are seconds. -/
structure Hierarchy where
  dirToCreateLastModifiedTimestampsFor : Text
  isAbsolute : dirToCreateLastModifiedTimestampsFor.head? = some '/'
  entries : List (Path × TimedEntry)
  nodup : (entries.map Prod.fst).Nodup
  isName : ∀ entry ∈ entries, entry.1 ≠ [] ∧ ∀ name ∈ entry.1, IsName name ∧ '\n' ∉ name
  /-- `QDateTime` has milliseconds. -/
  isLongLong : ∀ entry ∈ entries, IsLongLong (entry.2.lastModified * 1000)
  /-- The directories that an entry is in come before it. -/
  directories : ∀ before entry after, entries = before ++ entry :: after →
    ∀ path, path <+: entry.1 → path ≠ [] → path ≠ entry.1 →
      ∃ s, (path, ⟨true, s⟩) ∈ before

namespace Hierarchy

variable (o : Hierarchy)

/-- What the text says, without `//`, `.` and `..`. -/
def root : AbsolutePath := absolute fileSystemRoot o.dirToCreateLastModifiedTimestampsFor

/-- `currentEntryAbsoluteFilePath`, with as much left out as the text of the directory is long. -/
def relativePathNoLeadingSlash (path : Path) : Text :=
  (joinNames (o.root.names ++ path)).drop
    (Autobackup.appendSlashIfNeeded o.dirToCreateLastModifiedTimestampsFor).length

def currentEntryLastModifiedTimestamp (entry : Path × TimedEntry) :
    SimplifiedLastModifiedTimestamp :=
  ofFilePath (o.relativePathNoLeadingSlash entry.1) (entry.2.lastModified * 1000)
    (if entry.2.isDirectory then .isDirectory else .isNotDirectory)

/-- What is written to the file. -/
def generateLastModifiedTimestampsFile : Text :=
  joinLines (o.entries.map fun entry =>
    (o.currentEntryLastModifiedTimestamp entry).toColonSeparatedLineOfText)

end Hierarchy

/-- The path that a line is about. -/
def filePathToMolest (dirToMolest : AbsolutePath) (filePath : Text) : Path :=
  (splitSkippingEmptyParts '/' filePath).foldl enter dirToMolest.names

/-- `QFile::exists`, where a slash at the end asks for a directory. -/
def exists_ (tree : Tree) (path : Path) (isDirectory : Bool) : Bool :=
  match tree path with
  | none => false
  | some entry => entry.isDirectory || !isDirectory

/-- A directory that is missing was empty, so git missed it. -/
def molestPath (now : Path → ℤ) (tree : Tree) (path : Path) (isDirectory : Bool) (s : ℤ) :
    Option Tree :=
  (if isDirectory && !exists_ tree path true then tree.mkpath now path else some tree).map
    fun tree => if exists_ tree path isDirectory then tree.setTime path s else tree

/-- One turn of the loop; nothing where the loop returns `false`. -/
def molestEntry (now : Path → ℤ) (dirToMolest : AbsolutePath) (tree : Tree) (currentLine : Text) :
    Option Tree :=
  match ofLine currentLine with
  | none => some tree
  | some entry => molestPath now tree (filePathToMolest dirToMolest entry.filePath)
      entry.isDirectory (entry.lastModifiedTimestamp.tdiv 1000)

/-- The hierarchy afterwards, if `true` is returned.  `now` is the time at which each directory is
made. -/
def molestHeirarchy (now : Path → ℤ) (dirToMolest : AbsolutePath) (tree : Tree)
    (lastModifiedTimestampsFile : Text) : Option Tree :=
  ((linesOf (readAsText lastModifiedTimestampsFile)).filter (· ≠ [])).foldlM
    (molestEntry now dirToMolest) tree

/-! ## Restored times -/

namespace Hierarchy

variable (o : Hierarchy)

/-- git keeps files, and the directories that they are in. -/
def Keeps (path : Path) : Prop :=
  ∃ entry ∈ o.entries, entry.2.isDirectory = false ∧ path <+: entry.1

instance (path : Path) : Decidable (o.Keeps path) :=
  inferInstanceAs (Decidable (∃ entry ∈ o.entries, _))

/-- A copy in which the times are lost, and the directories without files. -/
structure Copy where
  dirToMolest : AbsolutePath
  tree : Tree
  isDir : ∀ path, path <+: dirToMolest.names → tree.IsDir path
  entries : ∀ path, path ≠ [] →
    (tree (dirToMolest.names ++ path)).map TimedEntry.isDirectory =
      if o.Keeps path then (o.entries.lookup path).map TimedEntry.isDirectory else none

/-- **The hierarchy is restored**, whatever the times in the copy were and whenever the missing
directories are made. -/
def IsRestored : Prop :=
  ∀ (now : Path → ℤ) (c : o.Copy), ∃ tree,
    molestHeirarchy now c.dirToMolest c.tree o.generateLastModifiedTimestampsFile = some tree ∧
      ∀ path, path ≠ [] → tree (c.dirToMolest.names ++ path) = o.entries.lookup path

/-- The directory is given by a clean path, no name has a carriage return, no file has a name that
ends with a backslash, and a directory without files is not in another one. -/
structure IsRestorable : Prop where
  clean : (Autobackup.appendSlashIfNeeded o.dirToCreateLastModifiedTimestampsFor).length ≤
    o.root.withSlash.length
  carriageReturn : ∀ entry ∈ o.entries, ∀ name ∈ entry.1, '\r' ∉ name
  backslash : ∀ entry ∈ o.entries, entry.2.isDirectory = false →
    (joinNames entry.1).getLast? ≠ some '\\'
  emptyDirectories : ∀ entry ∈ o.entries, ¬ o.Keeps entry.1 → entry.1.length = 1

end Hierarchy

end Autobackup.LastModifiedTimestampsTools
