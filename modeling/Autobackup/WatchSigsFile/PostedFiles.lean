import Autobackup.Foundation.HashOrder
import Autobackup.Foundation.Machine
import Autobackup.RecursiveGpgTools.SignedTwice

/-!
# Posting the files of a sigs file

The program posts every file that a sigs file has a record of.  A file that is not larger than a
part is one post, a larger one is split by 7-zip and every volume is a post, and an empty one is
skipped.  There is one post at a time.  Where it fails it is tried again, with a new Message-ID, and
when all posts of a file have succeeded, the file and its Message-IDs are noted for good.

`step` is what the event loop does on an event; `none` is a null pointer that is followed.  What was
begun, started, posted and read is kept beside the members, to speak about it.

Two errors are left out, with which the program says that it is done in the middle of its work: that
a file cannot be opened which was readable a moment before, and that the settings with what was
posted cannot be written.
-/

namespace Autobackup.WatchSigsFile

open QString RecursiveGpgTools

abbrev MessageId := Text

structure DirEntry where
  fileName : Text
  isFile : Bool

/-- `QFileInfo::suffix` -/
def suffix (fileName : Text) : Text :=
  if '.' ∈ fileName then (fileName.splitOn '.').getLastD [] else []

/-- What is posted out of the temp dir. -/
def DirEntry.isVolume (entry : DirEntry) : Bool :=
  entry.isFile && ((suffix entry.fileName).map Char.toLower != "asc".toList)

/-- A file when its turn comes. -/
structure FileOnDisk where
  readable : Bool
  size : ℕ
  /-- What is in the temp dir behind 7-zip, as it is listed; `none` when 7-zip fails. -/
  sevenZip : Option (List DirEntry)

/-- `MAX_SINGLE_PART_SIZE_ANDOR_SPLIT_FILE_VOLUME_SIZE` -/
def maxSinglePartSize : ℕ := 350000

/-- What is in a post.  The number of a volume and of how many it is are in the subject. -/
inductive Part
  | single
  | volume (fileName : Text) (number : ℕ) (numParts : ℤ)
  deriving DecidableEq

/-- A post, and whether it was started behind the request to quit. -/
structure Post where
  upload : ℕ
  filePath : Text
  part : Part
  messageId : MessageId
  quitRequested : Bool

/-- A file that was begun. -/
structure Upload where
  filePath : Text
  file : FileOnDisk

/-- `CurrentFileBeingUploadedToUsenetInfo` -/
structure CurrentFile where
  fileMeta : FileMeta
  postTimestampInSeconds : ℤ
  successfullyPostedMessageIds : List MessageId
  /-- `PostInProgressDetails` -/
  part : Part
  messageId : MessageId
  /-- Which of the files that were begun it is. -/
  upload : ℕ

/-- A value of `m_AlreadyPostedFiles`, with its key. -/
structure PostedFile where
  filePath : Text
  postTimestampInSeconds : ℤ
  messageIds : List MessageId

structure Watcher where
  /-- The values in the order in which they were set. -/
  alreadyPostedFiles : List PostedFile
  filesEnqueued : Sigs
  current : Option CurrentFile
  volumesTempDir : Option (List DirEntry)
  /-- What the iterator has not listed yet. -/
  volumesTempDirIterator : Option (List DirEntry)
  numPartsInCurrentSplitUpload : ℤ
  currentPartInSplitUpload : ℕ
  /-- What is given to postnews and is not finished. -/
  postnews : List Post
  retryTimer : Bool
  cleanQuitRequested : Bool
  /-- `doneWatchingSigsFileAndPostingChangesToUsenet` was emitted. -/
  done : Bool
  uploads : List Upload
  started : List Post
  posted : List Post
  /-- How often the program was started. -/
  starts : ℕ
  /-- The paths that were read, with the start after which they were. -/
  read : List (ℕ × Text)

/-- What the program finds while it handles an event. -/
structure Surroundings where
  disk : Text → FileOnDisk
  now : ℤ
  messageId : MessageId

namespace Watcher

variable (order : HashOrder (Σ _ : Text, FileMeta)) (env : Surroundings)

/-- Nothing was ever posted, and the program does not run. -/
def initial : Watcher where
  alreadyPostedFiles := []
  filesEnqueued := ∅
  current := none
  volumesTempDir := none
  volumesTempDirIterator := none
  numPartsInCurrentSplitUpload := 0
  currentPartInSplitUpload := 0
  postnews := []
  retryTimer := false
  cleanQuitRequested := true
  done := true
  uploads := []
  started := []
  posted := []
  starts := 0
  read := []

/-- A path is a key of `m_AlreadyPostedFiles`. -/
def IsPosted (s : Watcher) (filePath : Text) : Prop :=
  filePath ∈ s.alreadyPostedFiles.map PostedFile.filePath

instance (s : Watcher) (filePath : Text) : Decidable (s.IsPosted filePath) :=
  inferInstanceAs (Decidable (_ ∈ _))

def doCleanQuitTasks (s : Watcher) : Watcher := { s with done := true }

/-- `generateMessageIdAndPostToUsenet`, where `c` is the current file. -/
def generateMessageIdAndPostToUsenet (s : Watcher) (c : CurrentFile) : Watcher :=
  if s.cleanQuitRequested then s.doCleanQuitTasks
  else
    let post := ⟨c.upload, c.fileMeta.filePath, c.part, env.messageId, s.cleanQuitRequested⟩
    { s with
      current := some { c with messageId := env.messageId }
      postnews := s.postnews ++ [post]
      started := s.started ++ [post] }

def beginPostingToUsenet (s : Watcher) (c : CurrentFile) (part : Part) : Watcher :=
  generateMessageIdAndPostToUsenet env { s with current := some { c with part := part } }
    { c with part := part }

/-- `handleFullFilePostedToUsenet`; `next` goes on with the next file. -/
def handleFullFilePostedToUsenet (next : Watcher → Watcher) (s : Watcher) (c : CurrentFile) :
    Watcher :=
  next
    { s with
      filesEnqueued := s.filesEnqueued.erase c.fileMeta.filePath
      alreadyPostedFiles := s.alreadyPostedFiles ++
        [⟨c.fileMeta.filePath, c.postTimestampInSeconds, c.successfullyPostedMessageIds⟩]
      current := none }

/-- The iterator goes on to the next volume. -/
def nextVolume : List DirEntry → Option (DirEntry × List DirEntry)
  | [] => none
  | entry :: rest => if entry.isVolume then some (entry, rest) else nextVolume rest

/-- A multi-part post begins with the first volume. -/
def startIterating (s : Watcher) (dir : List DirEntry) : Watcher :=
  if s.volumesTempDirIterator.isNone then
    { s with
      numPartsInCurrentSplitUpload := dir.length - 1
      currentPartInSplitUpload := 1
      volumesTempDirIterator := some dir }
  else s

/-- `postNextVolumePartInDir_OrContinueOntoNextFullFileIfAllPartsOfCurrentFileHaveBeenPosted`, where
`dir` is in the temp dir. -/
def postNextVolumePartInDir (next : Watcher → Watcher) (s : Watcher) (c : CurrentFile)
    (dir : List DirEntry) : Watcher :=
  let s := s.startIterating dir
  match nextVolume (s.volumesTempDirIterator.getD []) with
  | some (entry, rest) =>
      beginPostingToUsenet env
        { s with
          volumesTempDirIterator := some rest
          currentPartInSplitUpload := s.currentPartInSplitUpload + 1 }
        c (.volume entry.fileName s.currentPartInSplitUpload s.numPartsInCurrentSplitUpload)
  | none =>
      handleFullFilePostedToUsenet next
        { s with volumesTempDirIterator := none, volumesTempDir := none } c

/-- The file that is posted now. -/
def beginFile (s : Watcher) (nextFile : FileMeta) : CurrentFile :=
  ⟨nextFile, env.now, [], .single, [], s.uploads.length⟩

/-- `postToUsenet` -/
def postToUsenet (next : Watcher → Watcher) (s : Watcher) (nextFile : FileMeta) : Watcher :=
  let c := s.beginFile env nextFile
  let file := env.disk nextFile.filePath
  let s := { s with current := some c, uploads := s.uploads ++ [⟨nextFile.filePath, file⟩] }
  if !file.readable then { s with done := true }
  else if maxSinglePartSize < file.size then
    -- too large for a single part: it is split into volumes first
    match file.sevenZip with
    | none => { s with volumesTempDir := some [], done := true }
    | some dir => postNextVolumePartInDir env next { s with volumesTempDir := some dir } c dir
  -- an empty file has nothing to post, and counts as posted
  else if 0 < file.size then beginPostingToUsenet env s c .single
  else handleFullFilePostedToUsenet next s c

/-- `postAnEnqueuedFileIfNotAlreadyPostingOne_OrQuitIfCleanQuitRequested`, for as many files in a
row; there are more of them only where a file has no parts. -/
def postAnEnqueuedFile : ℕ → Watcher → Watcher
  | 0, s => s
  | files + 1, s =>
      if s.current.isSome then s
      else if s.cleanQuitRequested then s.doCleanQuitTasks
      else
        match (order.order s.filesEnqueued.entries).head? with
        | none => s -- the post queue is empty
        | some nextFile => postToUsenet env (postAnEnqueuedFile files) s nextFile.2

/-- A file leaves the queue when it is posted, so these are enough. -/
def postEnqueuedFiles (s : Watcher) : Watcher :=
  postAnEnqueuedFile order env (s.filesEnqueued.keys.length + 1) s

/-- The files that are not enqueued or posted. -/
def newSigs (s : Watcher) (sigs : Sigs) : Sigs :=
  ⟨sigs.entries.filter fun e => !(decide (e.1 ∈ s.filesEnqueued) || decide (s.IsPosted e.1)),
    sigs.nodupKeys.sublist List.filter_sublist⟩

/-- `readInSigsFileAndPostAllNewEntries`, of a sigs file that can be read. -/
def readInSigsFileAndPostAllNewEntries (s : Watcher) (sigsText : Text) : Watcher :=
  let sigs := recorded (some sigsText)
  postEnqueuedFiles order env
    { s with
      filesEnqueued := s.filesEnqueued ∪ s.newSigs sigs
      read := s.read ++ sigs.keys.map fun filePath => (s.starts, filePath) }

def quitCleanly (s : Watcher) : Watcher :=
  postEnqueuedFiles order env { s with cleanQuitRequested := true }

/-- The program is started again, and what it has posted is what it finds. -/
def restarted (s : Watcher) : Watcher :=
  { initial with
    alreadyPostedFiles := s.alreadyPostedFiles
    postnews := s.postnews
    retryTimer := s.retryTimer
    cleanQuitRequested := false
    done := false
    uploads := s.uploads
    started := s.started
    posted := s.posted
    starts := s.starts + 1
    read := s.read }

end Watcher

inductive PostnewsResult
  | success
  /-- "441 Posting Failed. Message-ID is not unique E1" -/
  | notUnique
  | failure

/-- A sigs file that can be read. -/
structure SigsFile where
  text : Text
  readable : IsReadable text

inductive WatcherEvent
  | sigsFileChanged (sigsFile : SigsFile)
  | postnewsFinished (result : PostnewsResult)
  | retryTimeout
  | quitCleanly
  /-- The program has ended, and is started. -/
  | restart (sigsFile : SigsFile)

namespace Watcher

variable (order : HashOrder (Σ _ : Text, FileMeta)) (env : Surroundings)

/-- `handlePostnewsProcessFinished`, where `post` is what was given to postnews. -/
def handlePostnewsProcessFinished (s : Watcher) (c : CurrentFile) (post : Post) :
    PostnewsResult → Watcher
  -- the message id is taken: the same part again, under a new one
  | .notUnique => generateMessageIdAndPostToUsenet env s c
  | .failure => { s with retryTimer := true }
  | .success =>
      let c :=
        { c with
          successfullyPostedMessageIds := c.successfullyPostedMessageIds ++ [c.messageId] }
      let s := { s with current := some c, posted := s.posted ++ [post] }
      let next := postAnEnqueuedFile order env (s.filesEnqueued.keys.length + 1)
      match s.volumesTempDir with
      | some dir => postNextVolumePartInDir env next s c dir
      | none => handleFullFilePostedToUsenet next s c

/-- One event.  Only what was given to postnews finishes, the timer must have been started, and the
program is not started again before it is done. -/
def handle (s : Watcher) : WatcherEvent → Option Watcher
  | .sigsFileChanged sigsFile =>
      some (s.readInSigsFileAndPostAllNewEntries order env sigsFile.text)
  | .postnewsFinished result =>
      match s.postnews with
      | [] => some s
      | post :: rest =>
          s.current.map fun c =>
            { s with postnews := rest }.handlePostnewsProcessFinished order env c post result
  | .retryTimeout =>
      if s.retryTimer then
        s.current.map fun c =>
          { s with retryTimer := false }.generateMessageIdAndPostToUsenet env c
      else some s
  | .quitCleanly => some (s.quitCleanly order env)
  | .restart sigsFile =>
      if s.done then some (s.restarted.readInSigsFileAndPostAllNewEntries order env sigsFile.text)
      else some s

/-- What happens in an event, in the surroundings that it finds. -/
def step (s : Option Watcher) (event : Surroundings × WatcherEvent) : Option Watcher :=
  s.bind fun s => s.handle order event.1 event.2

/-! ## The files in a row -/

section

variable {order} {env} {s : Watcher} {next next' : Watcher → Watcher}

/-- The queue is kept by the paths of its files. -/
def KeptByPath (sigs : Sigs) : Prop :=
  ∀ filePath fileMeta, sigs.lookup filePath = some fileMeta → fileMeta.filePath = filePath

lemma KeptByPath.erase {sigs : Sigs} (h : KeptByPath sigs) (filePath : Text) :
    KeptByPath (sigs.erase filePath) := by
  intro path fileMeta hlookup
  by_cases heq : path = filePath
  · rw [heq, AList.lookup_erase] at hlookup
    exact absurd hlookup (Option.some_ne_none _).symm
  · rw [AList.lookup_erase_ne heq] at hlookup
    exact h path fileMeta hlookup

/-- The file at the front of the queue, in any order, is in the queue. -/
lemma mem_of_head_order {e : Σ _ : Text, FileMeta}
    (h : (order.order s.filesEnqueued.entries).head? = some e)
    (hkeys : KeptByPath s.filesEnqueued) : e.2.filePath ∈ s.filesEnqueued := by
  have hmem := (HashOrder.mem_order order).1 (List.mem_of_mem_head? h)
  have hlookup := AList.mem_lookup_iff.2 hmem
  rw [hkeys e.1 e.2 hlookup]
  exact AList.lookup_isSome.1 (Option.isSome_of_mem hlookup)

lemma length_keys_erase {α : Type} {β : α → Type} [DecidableEq α] {sigs : AList β} {a : α}
    (h : a ∈ sigs) : (sigs.erase a).keys.length + 1 = sigs.keys.length := by
  rw [AList.keys_erase, List.length_erase_of_mem (AList.mem_keys.1 h)]
  exact Nat.sub_add_cancel (List.length_pos_of_mem (AList.mem_keys.1 h))

/-- What goes on with the next file finds the queue without this one. -/
lemma postToUsenet_congr {nextFile : FileMeta}
    (h : ∀ t : Watcher, t.filesEnqueued = s.filesEnqueued.erase nextFile.filePath →
      next t = next' t) :
    postToUsenet env next s nextFile = postToUsenet env next' s nextFile := by
  have hvolume : ∀ (t : Watcher) (c : CurrentFile) (dir : List DirEntry),
      t.filesEnqueued = s.filesEnqueued → c.fileMeta.filePath = nextFile.filePath →
      postNextVolumePartInDir env next t c dir = postNextVolumePartInDir env next' t c dir := by
    intro t c dir hqueue hpath
    have hstart : (t.startIterating dir).filesEnqueued = t.filesEnqueued := by
      unfold startIterating
      split <;> rfl
    unfold postNextVolumePartInDir
    dsimp only
    cases nextVolume ((t.startIterating dir).volumesTempDirIterator.getD []) with
    | some => rfl
    | none =>
        apply h
        show (t.startIterating dir).filesEnqueued.erase c.fileMeta.filePath = _
        rw [hstart, hqueue, hpath]
  unfold postToUsenet
  dsimp only
  split_ifs
  · rfl
  · cases (env.disk nextFile.filePath).sevenZip with
    | none => rfl
    | some dir => exact hvolume _ _ dir rfl rfl
  · rfl
  · exact h _ rfl

/-- **As many files in a row as there are in the queue** are enough. -/
lemma postAnEnqueuedFile_of_lt {files : ℕ} (hkeys : KeptByPath s.filesEnqueued)
    (h : s.filesEnqueued.keys.length < files) :
    postAnEnqueuedFile order env files s = s.postEnqueuedFiles order env := by
  unfold postEnqueuedFiles
  generalize hfiles' : s.filesEnqueued.keys.length + 1 = files'
  have h' : s.filesEnqueued.keys.length < files' := hfiles' ▸ Nat.lt_succ_self _
  clear hfiles'
  induction files generalizing files' s with
  | zero => exact absurd h (Nat.not_lt_zero _)
  | succ files ih =>
      obtain ⟨files', rfl⟩ : ∃ n, files' = n + 1 :=
        ⟨files' - 1, (Nat.sub_add_cancel (Nat.one_le_of_lt h')).symm⟩
      rw [postAnEnqueuedFile, postAnEnqueuedFile]
      cases hhead : (order.order s.filesEnqueued.entries).head? with
      | none => rfl
      | some nextFile =>
          have hcongr : postToUsenet env (postAnEnqueuedFile order env files) s nextFile.2 =
              postToUsenet env (postAnEnqueuedFile order env files') s nextFile.2 := by
            apply postToUsenet_congr
            intro t ht
            have hless : t.filesEnqueued.keys.length + 1 = s.filesEnqueued.keys.length := by
              rw [ht]
              exact length_keys_erase (mem_of_head_order hhead hkeys)
            apply ih
            · rw [ht]
              exact hkeys.erase _
            · omega
            · omega
          dsimp only
          rw [hcongr]

end

end Watcher

end Autobackup.WatchSigsFile
