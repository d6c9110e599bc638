import Autobackup.Filesystem.EasyTreeHashItem
import Autobackup.Foundation.Script
import Autobackup.Foundation.TextParts
import Autobackup.HeirarchyMolester.OccuranceRateMerging
import Autobackup.LastModifiedTimestampsTools.Hierarchy

/-!
# Times that are read from a timestamp file

`molestLastModifiedDateHeirarchy` reads what `tree -X` has written, or an easy tree, into the tables
of a `LastModifiedDateHeirarchyMolester`, and makes the directories that are missing.  Then it
touches every file in the tables, and after that every folder: a file that is missing is made by
`touch`, which changes the time of its folder.

The document is read token by token, and a directory is entered and left as in a shell.  There are
no symbolic links.  `touch` starts and finishes, takes no path for an option and says nothing when
it succeeds, and the timestamp file can be read if it can be opened.  That a file stays open when
its loading has failed, so that the next one cannot be opened, is left out.
-/

namespace Autobackup.HeirarchyMolester

open QString Filesystem LastModifiedTimestampsTools

inductive XmlToken
  | startElement (name : Text) (attributes : List (Text × Text))
  | endElement (name : Text)
  | other
  deriving DecidableEq

structure XmlError where
  lineNumber : ℕ
  columnNumber : ℕ
  errorString : Text

/-- What `QXmlStreamReader` reads, and the error that it stops at, if any. -/
structure XmlDocument where
  tokens : List XmlToken
  error : Option XmlError

structure Environment where
  orders : HashOrders
  workingDirectory : AbsolutePath
  xml : Text → XmlDocument
  /-- The time at which a directory or a file is made. -/
  now : Path → ℤ
  /-- What `touch` says when it fails. -/
  touchResultString : Text → Text
  /-- `toMSecsSinceEpoch` of a date that was never set. -/
  nullDateTime : ℤ
  /-- A member that the constructor does not set. -/
  uninitialized : Bool

inductive TimestampFile
  | missing
  | unreadable
  | readable (text : Text)

/-- The molester and the file system. -/
structure Molestation where
  molester : LastModifiedDateHeirarchyMolester
  tree : Tree

namespace Molestation

variable (s : Molestation)

def d (message : Text) : Molestation :=
  { s with molester := { s.molester with messages := s.molester.messages ++ [message] } }

@[simp] lemma d_files (message : Text) : (s.d message).molester.files = s.molester.files := rfl

@[simp] lemma d_folders (message : Text) : (s.d message).molester.folders = s.molester.folders :=
  rfl

@[simp] lemma d_tree (message : Text) : (s.d message).tree = s.tree := rfl

def insertFile (absoluteFilePath : Text) (dateTime : ℤ) : Molestation :=
  { s with molester := { s.molester with
      files := s.molester.files.insert absoluteFilePath dateTime } }

def insertFolder (absoluteFilePath : Text) (dateTime : ℤ) : Molestation :=
  { s with molester := { s.molester with
      folders := s.molester.folders.insert absoluteFilePath dateTime } }

end Molestation

namespace Environment

variable (e : Environment)

/-- The names on the way that a text describes. -/
def resolve (path : Text) : Path := (AbsolutePath.absolute e.workingDirectory path).names

/-- `QFile::exists` -/
def exists_ (tree : Tree) (path : Text) : Bool :=
  LastModifiedTimestampsTools.exists_ tree (e.resolve path) (detectIfFilePathIsDirectory path)

/-! ## Touching -/

/-- What `touch` does; nothing if it fails.  A slash at the end asks for a directory. -/
def touch (tree : Tree) (path : Text) (s : ℤ) : Option Tree :=
  if detectIfFilePathIsDirectory path && !e.exists_ tree path then none
  else tree.touch e.now (e.resolve path) s

def changeModificationDate (absolutePathOfFileToTouch : Text) (newDateTime : ℤ) (s : Molestation) :
    Molestation × Bool :=
  match e.touch s.tree absolutePathOfFileToTouch (newDateTime.tdiv 1000) with
  | some tree => ({ s with tree := tree }, true)
  | none =>
      let s := s.d "touch exit code was not zero".toList
      let output := e.touchResultString absolutePathOfFileToTouch
      -- touch has failed and has not told why
      if trimmed output = [] then (s, false)
      else
        ((s.d "touch said something on stdout/stderr, so there was probably an error:".toList).d
          output, false)

/-- One turn of the loop over a table. -/
def touchEntry (entry : Sigma fun _ : Text => ℤ) (s : Molestation) : Molestation × Bool :=
  match e.changeModificationDate entry.1 entry.2 s with
  | (s, true) => (s, true)
  | (s, false) => (s.d ("failed to change timestamp of: ".toList ++ entry.1), false)

def touchTable (table : TimestampTable) : Molestation → Molestation × Bool :=
  Script.perform e.touchEntry (e.orders.tables.order table.entries)

/-- The table that has been used becomes the old one. -/
def molestUsingInternalTables (s : Molestation) : Molestation × Bool :=
  let s := s.d ("Beginning Molestation using table size: ".toList ++
    number s.molester.files.entries.length)
  match e.touchTable s.molester.files s with
  | (s, false) => (s, false)
  | (s, true) =>
      match e.touchTable s.molester.folders s with
      | (s, false) => (s, false)
      | (s, true) =>
          let molester := { s.molester with
            oldFiles := s.molester.files
            oldFolders := s.molester.folders
            firstTimeDoingHackyOccuranceRateMerging := false }
          (({ s with molester := molester }).d "Finished Molesting".toList, true)

/-! ## Loading -/

def doSharedInitBetweenXmlAndEasyTree (directoryHeirarchy : Text) (timestampFile : TimestampFile)
    (s : Molestation) : Molestation × Option Text :=
  let s := { s with molester := { s.molester with files := ∅, folders := ∅ } }
  if !e.exists_ s.tree (Autobackup.appendSlashIfNeeded directoryHeirarchy) then
    (s.d "Directory to Molest does Not Exist".toList, none)
  else if ¬ s.tree.IsDir (e.resolve (Autobackup.appendSlashIfNeeded directoryHeirarchy)) then
    (s.d "Directory to Molest is not a directory".toList, none)
  else
    match timestampFile with
    | .missing => (s.d "Timestamp File Does Not Exist".toList, none)
    | .unreadable => (s.d "Failed to open timestamp File for reading".toList, none)
    | .readable text => (s, some text)

/-- What the loop over the tokens keeps.  `directory` and `file` have a name and a time: where one
is missing, it is that of an element before.  The program then reads a name whose memory may be in
use for something else, so nothing is proved about such an element. -/
structure TreeXmlReading where
  s : Molestation
  currentDir : AbsolutePath
  currentNameAttribute : Text
  currentDateTimeAttribute : ℤ
  /-- So that the end of the directory `.` does not lead up. -/
  currentDepthHack : ℕ

def readAttributes (attributes : List (Text × Text)) (r : TreeXmlReading) : TreeXmlReading :=
  { r with
    currentNameAttribute := (attributes.lookup "name".toList).getD r.currentNameAttribute
    currentDateTimeAttribute :=
      ((attributes.lookup "time".toList).map dateOfField).getD r.currentDateTimeAttribute }

/-- A directory that is missing was empty, so git missed it. -/
def mkdirIfMissing (tree : Tree) (dirAbsolutePath : Text) : Option Tree :=
  let path := e.resolve dirAbsolutePath
  if e.exists_ tree dirAbsolutePath then some tree
  else if tree.IsDir path.dropLast then tree.mkdir e.now path
  else none

/-- `QDir::cd` -/
def cd (tree : Tree) (dir : AbsolutePath) (dirName : Text) : Option AbsolutePath :=
  let newDir := AbsolutePath.absolute dir dirName
  if tree.IsDir newDir.names then some newDir else none

def readDirectory (r : TreeXmlReading) : TreeXmlReading × Bool :=
  if r.currentNameAttribute = ['.'] then (r, true)
  else
    match e.mkdirIfMissing r.s.tree (r.currentDir.text ++ '/' :: r.currentNameAttribute) with
    | none =>
        let message := ("failed to make a dir that was missed in git commit because it was " ++
          "empty (xml format tree file processing)").toList
        ({ r with s := r.s.d message }, false)
    | some tree =>
        let s := { r.s with tree := tree }
        match cd tree r.currentDir r.currentNameAttribute with
        | none => ({ r with s := s.d "failed to cd into a directory, so stopping".toList }, false)
        | some newDir =>
            ({ r with
                s := s.insertFolder (newDir.text ++ ['/']) r.currentDateTimeAttribute
                currentDir := newDir
                currentDepthHack := (r.currentDepthHack + 1) % 2 ^ 32 }, true)

def readFile (r : TreeXmlReading) : TreeXmlReading :=
  { r with
    s := r.s.insertFile (r.currentDir.text ++ '/' :: r.currentNameAttribute)
      r.currentDateTimeAttribute }

def leaveDirectory (r : TreeXmlReading) : TreeXmlReading :=
  if r.currentDepthHack > 0 then
    { r with
      currentDir := (cd r.s.tree r.currentDir "..".toList).getD r.currentDir
      currentDepthHack := r.currentDepthHack - 1 }
  else r

/-- One turn of the loop. -/
def readToken : XmlToken → TreeXmlReading → TreeXmlReading × Bool
  | .startElement name attributes, r =>
      let r := readAttributes attributes r
      if name = "directory".toList then e.readDirectory r
      else if name = "file".toList then (readFile r, true)
      else (r, true)
  | .endElement name, r => (if name = "directory".toList then leaveDirectory r else r, true)
  | .other, r => (r, true)

def startReading (directoryHeirarchy : Text) (s : Molestation) : TreeXmlReading where
  s := s
  currentDir := AbsolutePath.absolute e.workingDirectory
    (Autobackup.appendSlashIfNeeded directoryHeirarchy)
  currentNameAttribute := []
  currentDateTimeAttribute := e.nullDateTime
  currentDepthHack := 0

def loadFromXml (directoryHeirarchy : Text) (timestampFile : TimestampFile) (s : Molestation) :
    Molestation × Bool :=
  match e.doSharedInitBetweenXmlAndEasyTree directoryHeirarchy timestampFile s with
  | (s, none) => (s.d "failed to doSharedInitBetweenXmlAndEasyTree".toList, false)
  | (s, some text) =>
      let s := s.d "Beginning trying to read XML timestamp file".toList
      match Script.perform e.readToken (e.xml text).tokens
          (e.startReading directoryHeirarchy s) with
      | (r, false) => (r.s, false)
      | (r, true) =>
          match (e.xml text).error with
          | some error =>
              (r.s.d ("Error reading XML from tree command (row: ".toList ++
                number error.lineNumber ++ ",col: ".toList ++ number error.columnNumber ++
                "): ".toList ++ error.errorString), false)
          | none => (r.s.d "Finished reading XML timestamp file".toList, true)

/-- What is read of a line: the path, and the time.  The program ends if a field is missing. -/
def easyTreeItem (easyTreeLinesHaveCreationDate : Bool) (currentLine : Text) : Option (Text × ℤ) :=
  if easyTreeLinesHaveCreationDate then
    (EasyTreeHashItem.newEasyTreeHashItemFromLineOfText e.uninitialized currentLine false).map
      fun item => (item.relativeFilePath, item.lastModifiedDateTime)
  else
    match splitAtColons currentLine with
    | [] => none
    | relativeFilePath :: fields =>
        -- a file has its size before the time
        (if detectIfFilePathIsDirectory relativeFilePath then fields[0]? else fields[1]?).map
          fun field => (relativeFilePath, dateOfField field)

/-- An item of an easy tree. -/
def loadItem (directoryHeirarchyWithSlash : Text) (item : Text × ℤ) (s : Molestation) :
    Molestation × Bool :=
  let path := directoryHeirarchyWithSlash ++ item.1
  if detectIfFilePathIsDirectory item.1 then
    match (if e.exists_ s.tree path then some s.tree
      else s.tree.mkpath e.now (e.resolve path)) with
    | none =>
        (s.d ("while trying to make a dir in easy tree file (that was empty so git missed it), " ++
          "we failed").toList, false)
    | some tree => (({ s with tree := tree }).insertFolder path item.2, true)
  else (s.insertFile path item.2, true)

/-- The loop over the lines. -/
def loadLines (directoryHeirarchyWithSlash : Text) (easyTreeLinesHaveCreationDate : Bool) :
    List Text → Molestation → Option (Molestation × Bool)
  | [], s => some (s, true)
  | currentLine :: rest, s =>
      if trimmed currentLine = [] then
        loadLines directoryHeirarchyWithSlash easyTreeLinesHaveCreationDate rest s
      else
        match e.easyTreeItem easyTreeLinesHaveCreationDate currentLine with
        | none => none
        | some item =>
            match e.loadItem directoryHeirarchyWithSlash item s with
            | (s, false) => some (s, false)
            | (s, true) =>
                loadLines directoryHeirarchyWithSlash easyTreeLinesHaveCreationDate rest s

/-- It is not asked whether the initialisation has succeeded. -/
def loadFromEasyTreeFile (directoryHeirarchy : Text) (timestampFile : TimestampFile)
    (easyTreeLinesHaveCreationDate : Bool) (s : Molestation) : Option (Molestation × Bool) :=
  let s := s.d "Beginning trying to read Easy Tree timestamp file".toList
  match e.doSharedInitBetweenXmlAndEasyTree directoryHeirarchy timestampFile s with
  | (s, text) =>
      match e.loadLines (Autobackup.appendSlashIfNeeded directoryHeirarchy)
          easyTreeLinesHaveCreationDate (linesOf (readAsText (text.getD []))) s with
      | none => none
      | some (s, false) => some (s, false)
      | some (s, true) => some (s.d "Finished reading Easy Tree timestamp file".toList, true)

/-- Nothing if a line of an easy tree ends the program. -/
def molestLastModifiedDateHeirarchy (directoryHeirarchy : Text) (timestampFile : TimestampFile)
    (easyTreeLinesHaveCreationDate xmlFormattedTreeCommandOutputActually : Bool)
    (s : Molestation) : Option Molestation :=
  if easyTreeLinesHaveCreationDate && xmlFormattedTreeCommandOutputActually then
    some (s.d ("You can't have a creation date in an XML formatted tree command output, so uhh " ++
      "just stopping to play it safe because I dunno wtf you wan't").toList)
  else
    let loaded :=
      if xmlFormattedTreeCommandOutputActually then
        some (e.loadFromXml directoryHeirarchy timestampFile s,
          "failed to load timestamps from xml".toList)
      else
        (e.loadFromEasyTreeFile directoryHeirarchy timestampFile
          easyTreeLinesHaveCreationDate s).map fun loaded =>
            (loaded, "failed to load timestamps from easy tree file".toList)
    loaded.map fun
      | ((s, false), failed) => s.d failed
      | ((s, true), _) =>
          match e.molestUsingInternalTables s with
          | (s, false) => s.d "failed to molest".toList
          | (s, true) =>
              s.d ("got to the end of the easy tree file, so if you didn't see any errors, " ++
                "molestation probably went smoothly").toList

end Environment

end Autobackup.HeirarchyMolester
