import Mathlib.Data.List.Basic

/-!
# The queue of uploads

`SftpUploaderAndRenamerQueue`, with the sftp process that it writes to and what that has renamed on
the remote host.  In batch mode the process takes one command after the other: it echoes it, and
then executes it.  When a command fails it ends, and it may end at any time.

What happens is a sequence of events: what is asked of the queue, its timers and queued invocations,
and what the process does.  `QProcess` tells that the process has finished only after what it wrote
has been read.
-/

namespace Autobackup.SftpQueue

/-- What `enqueueFileForUploadAndRename` is given. -/
structure Segment where
  destFilenameToRenameToAfterUpload : String
  srcFilenameToUpload : String
  /-- How many were enqueued before.  The source does not keep it. -/
  number : ℕ
  deriving DecidableEq, Repr

/-- `SftpUploaderAndRenamerQueueStateEnum` -/
inductive QueueState
  | notYetStarted
  | started
  | stopWhenAllUploadsFinishSuccessfully
  | stopWhenAllUploadsFinishSuccessfullyUnlessDc
  | stopNow
  deriving DecidableEq, Repr

/-- A line that is written to sftp. -/
inductive Command
  | put (s : Segment)
  | rename (s : Segment)
  | bye
  deriving DecidableEq, Repr

/-- `QProcess::state`; a process that has ended is `running` for it until that is noticed. -/
inductive ProcessState
  | notRunning
  | starting
  | running
  | ended
  deriving DecidableEq, Repr

structure SftpProcess where
  state : ProcessState := .notRunning
  stdin : List Command := []
  /-- The command that was echoed and is not yet executed. -/
  executing : Option Command := none
  /-- The echoes that were not read. -/
  stdout : List Command := []
  /-- It was told to quit. -/
  told : Bool := false

structure SftpUploaderAndRenamerQueue where
  segmentsQueuedForUpload : List Segment := []
  fiveSecondRetryDequeueAndUploadTimer : Bool := false
  sftp30secondKillerTimer : Bool := false
  sftpProcess : SftpProcess := {}
  sftpIsReadyForCommands : Bool := false
  sftpPutInProgressSoWatchForRenameCommandEcho : Bool := false
  state : QueueState := .notYetStarted
  /-- Queued invocations of `tryDequeueAndUploadSingleSegment`. -/
  invocations : ℕ := 0
  /-- Timers that are going to start the process again. -/
  restarts : ℕ := 0
  /-- The segments that were enqueued. -/
  enqueued : List Segment := []
  /-- The signals `fileUploadAndRenameSuccess`. -/
  fileUploadAndRenameSuccess : List Segment := []
  /-- The segments that have their destination name on the remote host. -/
  renamed : List Segment := []
  /-- The states that were asked for. -/
  requested : List QueueState := []
  /-- The signals `sftpUploaderAndRenamerQueueStopped`, with what was queued and had been asked for
  at the time. -/
  stopped : List (List Segment × List QueueState) := []

inductive Event
  | enqueueFileForUploadAndRename (destFilenameToRenameToAfterUpload srcFilenameToUpload : String)
  | changeState (new : QueueState)
  | retryTimerTimedOut
  | invoked
  | restartTimerTimedOut
  | killerTimerTimedOut
  /-- The process has started; whether it finishes within the five seconds for which that is
  waited. -/
  | processStarted (finishes : Bool)
  /-- The process echoes a command. -/
  | echo
  /-- The process executes the command that it has echoed. -/
  | execute (succeeds : Bool)
  /-- The process ends, for whatever reason. -/
  | lost
  /-- A line of the process is read. -/
  | readLine
  | processFinished

namespace SftpUploaderAndRenamerQueue

/-! ## The process -/

/-- What is written to a process that has ended is lost. -/
def write (st : SftpUploaderAndRenamerQueue) (commands : List Command) :
    SftpUploaderAndRenamerQueue :=
  if st.sftpProcess.state = .running then
    { st with sftpProcess.stdin := st.sftpProcess.stdin ++ commands }
  else st

/-- What the process has written can still be read. -/
def processEnds (st : SftpUploaderAndRenamerQueue) : SftpUploaderAndRenamerQueue :=
  { st with
    sftpProcess.state := .ended
    sftpProcess.stdin := []
    sftpProcess.executing := none }

/-- `startSftpProcessInBatchMode`.  A process that is there already stays. -/
def startSftpProcessInBatchMode (st : SftpUploaderAndRenamerQueue) : SftpUploaderAndRenamerQueue :=
  if st.sftpProcess.state = .notRunning then { st with sftpProcess := { state := .starting } }
  else st

def stopSftpProcess (st : SftpUploaderAndRenamerQueue) : SftpUploaderAndRenamerQueue :=
  if st.sftpIsReadyForCommands then
    { st.write [.bye, .bye] with sftpProcess.told := true, sftp30secondKillerTimer := true }
  else if st.sftpProcess.state ≠ .notRunning then
    { st with sftpProcess.told := true, sftp30secondKillerTimer := true }
  else st

/-! ## The queue -/

/-- As `startSftpUploaderAndRenamerQueue` leaves it, when these were enqueued before. -/
def start (queued : List (String × String)) : SftpUploaderAndRenamerQueue :=
  let segments := queued.mapIdx fun i names => ⟨names.1, names.2, i⟩
  startSftpProcessInBatchMode { segmentsQueuedForUpload := segments, enqueued := segments }

def setTheStateEnumValueUpgradingStopSpeedOnly (state new : QueueState) : QueueState :=
  if state = .notYetStarted ∨ new = .started then state
  else if state = .started then
    -- any request to stop counts as the slowest one at least
    if new = .notYetStarted ∨ new = .stopWhenAllUploadsFinishSuccessfully then
      .stopWhenAllUploadsFinishSuccessfully
    else new
  else if state = .stopWhenAllUploadsFinishSuccessfully ∧
      (new = .stopWhenAllUploadsFinishSuccessfullyUnlessDc ∨ new = .stopNow) then new
  else if state = .stopWhenAllUploadsFinishSuccessfullyUnlessDc ∧ new = .stopNow then new
  else state

def tryDequeueAndUploadSingleSegment (st : SftpUploaderAndRenamerQueue) :
    SftpUploaderAndRenamerQueue :=
  let st := { st with fiveSecondRetryDequeueAndUploadTimer := false }
  match st.segmentsQueuedForUpload with
  | [] =>
      if st.state = .stopWhenAllUploadsFinishSuccessfullyUnlessDc ∨ st.state = .stopNow then
        st.stopSftpProcess
      else st
  | head :: _ =>
      -- one at a time: the next is sent when the rename was echoed
      if st.sftpPutInProgressSoWatchForRenameCommandEcho then st
      else if st.sftpIsReadyForCommands then
        { st.write [.put head, .rename head] with
          sftpPutInProgressSoWatchForRenameCommandEcho := true }
      else if st.state = .started ∨ st.state = .stopWhenAllUploadsFinishSuccessfully then
        { st with fiveSecondRetryDequeueAndUploadTimer := true }
      else st

def enqueueFileForUploadAndRename (st : SftpUploaderAndRenamerQueue)
    (destFilenameToRenameToAfterUpload srcFilenameToUpload : String) :
    SftpUploaderAndRenamerQueue :=
  let s : Segment :=
    ⟨destFilenameToRenameToAfterUpload, srcFilenameToUpload, st.enqueued.length⟩
  { st with
    segmentsQueuedForUpload := st.segmentsQueuedForUpload ++ [s]
    enqueued := st.enqueued ++ [s] }.tryDequeueAndUploadSingleSegment

def changeSftpUploaderAndRenamerQueueState (st : SftpUploaderAndRenamerQueue) (new : QueueState) :
    SftpUploaderAndRenamerQueue :=
  let st := { st with
    state := setTheStateEnumValueUpgradingStopSpeedOnly st.state new
    requested := st.requested ++ [new] }
  if st.segmentsQueuedForUpload = [] ∨ st.state = .stopNow then st.stopSftpProcess
  else if ¬ st.sftpIsReadyForCommands ∧
      st.state = .stopWhenAllUploadsFinishSuccessfullyUnlessDc then st.stopSftpProcess
  else st

/-- The signal `sftpUploaderAndRenamerQueueStopped` -/
def emitStopped (st : SftpUploaderAndRenamerQueue) : SftpUploaderAndRenamerQueue :=
  { st with stopped := st.stopped ++ [(st.segmentsQueuedForUpload, st.requested)] }

def handleSftpProcessFinished (st : SftpUploaderAndRenamerQueue) : SftpUploaderAndRenamerQueue :=
  let st := { st with
    sftpIsReadyForCommands := false
    sftpPutInProgressSoWatchForRenameCommandEcho := false }
  match st.state with
  | .notYetStarted => st
  -- a single shot of five seconds starts the process again
  | .started => { st with restarts := st.restarts + 1 }
  | .stopWhenAllUploadsFinishSuccessfully =>
      if st.segmentsQueuedForUpload = [] then st.emitStopped
      else { st with restarts := st.restarts + 1 }
  | .stopWhenAllUploadsFinishSuccessfullyUnlessDc | .stopNow => st.emitStopped

/-- The process has finished, and that is told. -/
def finish (st : SftpUploaderAndRenamerQueue) : SftpUploaderAndRenamerQueue :=
  { st with sftpProcess := {} }.handleSftpProcessFinished

def handleSftpProcessStarted (st : SftpUploaderAndRenamerQueue) (finishes : Bool) :
    SftpUploaderAndRenamerQueue :=
  if finishes then { st.finish with sftpIsReadyForCommands := false, state := .stopNow }
  else
    { st with
      sftpProcess.state := .running
      sftpIsReadyForCommands := true
      invocations := st.invocations + 1
      state := if st.state = .notYetStarted then .started else st.state }

/-- The rename of the first segment was echoed. -/
def dequeueUploadedAndRenamed (st : SftpUploaderAndRenamerQueue) : SftpUploaderAndRenamerQueue :=
  match st.segmentsQueuedForUpload with
  | [] => st
  | head :: rest =>
      let st := { st with
        sftpPutInProgressSoWatchForRenameCommandEcho := false
        segmentsQueuedForUpload := rest
        fileUploadAndRenameSuccess := st.fileUploadAndRenameSuccess ++ [head] }
      if rest = [] ∧ st.state ≠ .started then st.stopSftpProcess
      else { st with invocations := st.invocations + 1 }

/-- One turn of the loop of `handleSftpProcessReadyReadStandardOut`. -/
def processLine (st : SftpUploaderAndRenamerQueue) (line : Command) : SftpUploaderAndRenamerQueue :=
  if st.sftpIsReadyForCommands then
    match line with
    | .rename _ =>
        -- the echo comes before the rename is made, and is taken for its success
        if st.sftpPutInProgressSoWatchForRenameCommandEcho then st.dequeueUploadedAndRenamed
        else st
    | _ => st
  else st

/-! ## Events -/

def echo (st : SftpUploaderAndRenamerQueue) : SftpUploaderAndRenamerQueue :=
  match st.sftpProcess.executing, st.sftpProcess.stdin with
  | none, command :: rest =>
      { st with
        sftpProcess.stdin := rest
        sftpProcess.executing := some command
        sftpProcess.stdout := st.sftpProcess.stdout ++ [command] }
  | _, _ => st

def execute (st : SftpUploaderAndRenamerQueue) (succeeds : Bool) : SftpUploaderAndRenamerQueue :=
  match st.sftpProcess.executing with
  | none => st
  | some command =>
      if succeeds then
        match command with
        | .put _ => { st with sftpProcess.executing := none }
        | .rename s => { st with sftpProcess.executing := none, renamed := st.renamed ++ [s] }
        | .bye => st.processEnds
      else st.processEnds

def readLine (st : SftpUploaderAndRenamerQueue) : SftpUploaderAndRenamerQueue :=
  match st.sftpProcess.stdout with
  | [] => st
  | line :: rest => { st with sftpProcess.stdout := rest }.processLine line

def step (st : SftpUploaderAndRenamerQueue) : Event → SftpUploaderAndRenamerQueue
  | .enqueueFileForUploadAndRename dest src => st.enqueueFileForUploadAndRename dest src
  | .changeState new => st.changeSftpUploaderAndRenamerQueueState new
  | .retryTimerTimedOut =>
      if st.fiveSecondRetryDequeueAndUploadTimer then st.tryDequeueAndUploadSingleSegment else st
  | .invoked =>
      if st.invocations = 0 then st
      else { st with invocations := st.invocations - 1 }.tryDequeueAndUploadSingleSegment
  | .restartTimerTimedOut =>
      if st.restarts = 0 then st
      else { st with restarts := st.restarts - 1 }.startSftpProcessInBatchMode
  | .killerTimerTimedOut =>
      if st.sftp30secondKillerTimer then
        let st := { st with sftp30secondKillerTimer := false }
        if st.sftpProcess.state = .running then st.processEnds else st
      else st
  | .processStarted finishes =>
      if st.sftpProcess.state = .starting then st.handleSftpProcessStarted finishes else st
  | .echo => if st.sftpProcess.state = .running then st.echo else st
  | .execute succeeds => if st.sftpProcess.state = .running then st.execute succeeds else st
  | .lost => if st.sftpProcess.state = .running then st.processEnds else st
  | .readLine => st.readLine
  | .processFinished =>
      if st.sftpProcess.state = .ended ∧ st.sftpProcess.stdout = [] then st.finish else st

end SftpUploaderAndRenamerQueue

end Autobackup.SftpQueue
