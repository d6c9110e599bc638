import Autobackup.Foundation.AssociationList
import Autobackup.Foundation.DirectoryTree
import Autobackup.Foundation.Machine
import Mathlib.Logic.Function.Basic

/-!
# The lossy directory copier

`ConcurrentLossyDirectoryCopier` makes a list of copy operations, one for each file of the source
tree, and makes the directories of the destination.  The type of an operation comes from the name
of its file.  Then all operations run concurrently.  A conversion writes to the destination path
with an extension behind it, and where it fails its output is deleted and the file is copied to the
destination path itself.
-/

namespace Autobackup.LossyCopier

open QString DirectoryTree

inductive CopyOperationTypes
  | copyFallback
  | stillImage
  | audio
  | rawPcm22050s16leAudio
  | video
  deriving DecidableEq

structure CopyOperation where
  sourceFilePath : Text
  destinationFilePath : Text
  copyOperationType : CopyOperationTypes
  deriving DecidableEq

/-- The extension that `singleLossyCopyOperation` appends to the destination of a conversion. -/
def conversionExtension : CopyOperationTypes → Option Text
  | .copyFallback => none
  | .stillImage => some ".webp".toList
  | .audio => some ".opus".toList
  | .rawPcm22050s16leAudio => some ".opus".toList
  | .video => some ".webm".toList

/-! ## The list of operations -/

def videoExtensions : List Text :=
  ["m4v", "3gp", "3gpp", "mp4", "mov", "wmv", "3g2", "avi", "mpg", "mpeg", "ogv", "mkv", "webm",
    "flv"].map String.toList

def specialCaseRawAudioExtensions : List Text := ["pcm".toList]

def audioExtensions : List Text := ["m4a", "wav", "mp3", "wma", "ogg", "flac"].map String.toList

def imageExtensions : List Text := ["jpg", "png", "bmp", "jpeg", "tif", "tiff"].map String.toList

/-- The extensions are compared with the lower case of the name. -/
def fileNameEndsWithOneOfTheseExentions (toLower : Text → Text) (fileName : Text)
    (fileNameExtensions : List Text) : Bool :=
  fileNameExtensions.any fun extension => ('.' :: extension).isSuffixOf (toLower fileName)

def copyOperationType (toLower : Text → Text) (fileName : Text) : CopyOperationTypes :=
  if fileNameEndsWithOneOfTheseExentions toLower fileName videoExtensions then .video
  else if fileNameEndsWithOneOfTheseExentions toLower fileName specialCaseRawAudioExtensions then
    .rawPcm22050s16leAudio
  else if fileNameEndsWithOneOfTheseExentions toLower fileName audioExtensions then .audio
  else if fileNameEndsWithOneOfTheseExentions toLower fileName imageExtensions then .stillImage
  else .copyFallback

def withSlashAppended (folder : Text) : Text :=
  if folder.getLast? = some '/' then folder else folder ++ ['/']

/-- What is to be copied, from one folder to another.  `toLower` is `QString::toLower`.

The source folder is given by a clean absolute path, such as `/home/user/photos`.  The entries are
listed with their absolute paths, and the beginning of these is cut off by its length: given as
`photos` or `/home//user/photos` it would not be what they begin with. -/
structure Request where
  toLower : Text → Text
  sourceDir : Text
  destinationDir : Text
  entries : List (Entry Unit)
  wellFormed : WellFormed entries

namespace Request

variable (r : Request)

/-- The entries that the recursion meets, with their absolute paths. -/
def listed : List (Listed Unit) := listing (withSlashAppended r.sourceDir) r.entries

def destinationAbsoluteFilePath (currentAbsoluteFilePath : Text) : Text :=
  withSlashAppended r.destinationDir ++
    currentAbsoluteFilePath.drop (withSlashAppended r.sourceDir).length

def newCopyOperation (file : Listed Unit) : CopyOperation where
  sourceFilePath := file.path
  destinationFilePath := r.destinationAbsoluteFilePath file.path
  copyOperationType := LossyCopier.copyOperationType r.toLower file.name

def sourceFiles : List (Listed Unit) := r.listed.filter (·.content.isSome)

/-- `m_ListOfCopyOperationsToDoConcurrently`, as the recursion leaves it. -/
def copyOperations : List CopyOperation := r.sourceFiles.map r.newCopyOperation

/-- The directories that the recursion makes. -/
def destinationDirectories : List Text :=
  (r.listed.filter (·.content.isNone)).map fun directory =>
    r.destinationAbsoluteFilePath directory.path

end Request

/-! ## Running the operations -/

/-- The files of the destination, and for each of them the source of the operation that made it. -/
abbrev Files := AList fun _ : Text => Text

/-- Where an operation is in `singleLossyCopyOperation`. -/
inductive Phase
  | notStarted
  | converting
  /-- The output of the conversion has been created. -/
  | written
  /-- `deleteFileIfExists` is about to look for the output. -/
  | deleting
  | removing
  | fallingBack
  | done
  deriving DecidableEq

inductive Outcome
  | succeeds
  | fails
  /-- `ffprobe`, or the conversion to a png, fails in front of the conversion. -/
  | failsBeforeConversion

def convertedFilePath (op : CopyOperation) : Text :=
  op.destinationFilePath ++ (conversionExtension op.copyOperationType).getD []

/-- `QFile::exists` -/
def fileExists (directories : List Text) (files : Files) (path : Text) : Bool :=
  path ∈ files ∨ path ∈ directories

/-- One step of `singleLossyCopyOperation`.  A conversion cannot write to a directory, and a
directory is not removed. -/
def advance (directories : List Text) (op : CopyOperation) (outcome : Outcome) (files : Files) :
    Phase → Phase × Files
  | .notStarted =>
      (if op.copyOperationType = .copyFallback then .fallingBack else .converting, files)
  | .converting =>
      match outcome with
      | .succeeds =>
          if convertedFilePath op ∈ directories then (.deleting, files)
          else (.written, files.insert (convertedFilePath op) op.sourceFilePath)
      | .fails => (.deleting, files)
      | .failsBeforeConversion =>
          -- Only these two do something first, and delete nothing if it fails.
          if op.copyOperationType = .video ∨ op.copyOperationType = .stillImage then
            (.fallingBack, files)
          else (.deleting, files)
  | .written =>
      match outcome with
      | .succeeds => (.done, files)
      | _ => (.deleting, files)
  | .deleting =>
      (if fileExists directories files (convertedFilePath op) then .removing else .fallingBack,
        files)
  | .removing => (.fallingBack, files.erase (convertedFilePath op))
  | .fallingBack =>
      -- `QFile::copy` fails if there is something.
      (.done, if fileExists directories files op.destinationFilePath then files
        else files.insert op.destinationFilePath op.sourceFilePath)
  | .done => (.done, files)

/-- The phases of the operations, by their places in the list. -/
structure State where
  phase : ℕ → Phase := fun _ => .notStarted
  files : Files := ∅

/-- One of the operations takes a step. -/
def step (directories : List Text) (operations : List CopyOperation) (s : State)
    (event : ℕ × Outcome) : State :=
  match operations[event.1]? with
  | none => s
  | some op =>
      let advanced := advance directories op event.2 s.files (s.phase event.1)
      { phase := Function.update s.phase event.1 advanced.1
        files := advanced.2 }

/-- The operations run, from an empty destination on. -/
def Request.run (r : Request) (events : List (ℕ × Outcome)) : State :=
  Machine.run (step r.destinationDirectories r.copyOperations) {} events

def Request.AllDone (r : Request) (s : State) : Prop :=
  ∀ i < r.copyOperations.length, s.phase i = .done

/-- The destination of a file, and the one with the conversion extension. -/
def outputPaths (op : CopyOperation) : List Text :=
  op.destinationFilePath ::
    ((conversionExtension op.copyOperationType).map (op.destinationFilePath ++ ·)).toList

/-- Every source file has its own destination file.  The destination is the path of the operation or
the one with its conversion extension, and what is there was made of that source file. -/
def LosesNoFile (operations : List CopyOperation) (files : Files) : Prop :=
  ∃ output : CopyOperation → Text,
    (∀ op ∈ operations, output op ∈ outputPaths op ∧
      files.lookup (output op) = some op.sourceFilePath) ∧
    ∀ op ∈ operations, ∀ op' ∈ operations, output op = output op' → op = op'

/-- No source file has the name of another one with its conversion extension. -/
def Request.NoClash (r : Request) : Prop :=
  ∀ file ∈ r.sourceFiles, ∀ other ∈ r.sourceFiles, ∀ extension,
    conversionExtension (copyOperationType r.toLower file.name) = some extension →
      file.path ++ extension ≠ other.path

end Autobackup.LossyCopier
