import Mathlib.Data.List.Basic
import Mathlib.Logic.Function.Basic

/-!
# Hottee

`Hottee` copies the output of a process to another one, and writes it to files of 100 MB each,
`streamChunk_k` for the chunk `k`, on one of two destinations.  Writing is started and stopped where
a chunk starts.

The read loop works out how much to read before it knows that a chunk has ended.  A turn that ends
a chunk then goes on to the next turn, unless nothing is written: that one reads with the size of
nothing it has.
-/

namespace Autobackup.Hotteeing

def READ_CHUNK_SIZE_BYTES : ℕ := 32 * 1024

def ONE_HUNDRED_MEGABYTES : ℕ := 1024 * 1024 * 100

inductive Destination
  | destination1
  | destination2
  deriving DecidableEq

def Destination.other : Destination → Destination
  | .destination1 => .destination2
  | .destination2 => .destination1

/-- `streamChunk_k` on a destination. -/
structure ChunkFile where
  destination : Destination
  chunk : ℕ
  deriving DecidableEq

structure Hottee where
  /-- What has been read of the input process, and what it has left to read. -/
  consumed : List UInt8 := []
  unread : List UInt8 := []
  writeToOutputProcess : Bool
  /-- What the output process received, and those that ran before it. -/
  outputProcess : List UInt8 := []
  formerOutputProcesses : List (List UInt8) := []
  /-- The file that is open. -/
  currentOutputFile : Option ChunkFile := none
  files : ChunkFile → Option (List UInt8) := fun _ => none
  currentDestination : Destination := .destination1
  current100mbChunkWriteOffset : ℕ := 0
  currentlyWritingToEitherDestination : Bool := false
  stopWritingAtEndOfThisChunk : Bool := false
  startWritingAtBeginningOfNextChunk : Bool := false
  quitAfterThisChunkFinishes : Bool := false
  quitRequested : Bool := false
  chunkOffsetForFilename : ℕ
  restartOutputProcessOnNextChunkStart : Bool := false

/-- The space that is available on a destination when a chunk starts. -/
abbrev Space := ℕ → Destination → ℕ

namespace Hottee

variable (st : Hottee)

def createAndOpen100mbFileAtCurrentDestination : Hottee :=
  let file : ChunkFile := ⟨st.currentDestination, st.chunkOffsetForFilename⟩
  { st with
    currentOutputFile := some file
    files := Function.update st.files file (some []) }

def cleanupHotteeingAndRequestQuit : Hottee :=
  { st with currentOutputFile := none, quitRequested := true }

def read (sizeToRead : ℕ) : Hottee :=
  { st with
    consumed := st.consumed ++ st.unread.take sizeToRead
    unread := st.unread.drop sizeToRead }

def writeToOutput (readChunk : List UInt8) : Hottee :=
  { st with
    outputProcess :=
      if st.writeToOutputProcess then st.outputProcess ++ readChunk else st.outputProcess }

/-- Nothing is written to a file that is not open. -/
def writeToFile (readChunk : List UInt8) : Hottee :=
  { st with
    files :=
      match st.currentlyWritingToEitherDestination, st.currentOutputFile with
      | true, some file =>
          Function.update st.files file ((st.files file).map (· ++ readChunk))
      | _, _ => st.files }

def advance (actualReadChunkSize : ℕ) : Hottee :=
  { st with
    current100mbChunkWriteOffset := st.current100mbChunkWriteOffset + actualReadChunkSize }

def nextChunk : Hottee :=
  { st with
    chunkOffsetForFilename := st.chunkOffsetForFilename + 1
    current100mbChunkWriteOffset := 0 }

/-- `startOutputProcess`, if that was asked for.  The process that was running is deleted. -/
def restartOutputProcess : Hottee :=
  { st with
    formerOutputProcesses :=
      if st.restartOutputProcessOnNextChunkStart then
        st.formerOutputProcesses ++ [st.outputProcess]
      else st.formerOutputProcesses
    outputProcess := if st.restartOutputProcessOnNextChunkStart then [] else st.outputProcess
    restartOutputProcessOnNextChunkStart := false }

/-- The file of the last chunk is closed, unless writing starts now. -/
def closeFile : Hottee :=
  { st with
    currentOutputFile :=
      if st.startWritingAtBeginningOfNextChunk then st.currentOutputFile else none
    currentlyWritingToEitherDestination := true
    startWritingAtBeginningOfNextChunk := false }

def stopWriting : Hottee :=
  { st with
    stopWritingAtEndOfThisChunk := false
    currentlyWritingToEitherDestination := false }

/-- `toggleDestinations`, if there is no space for the next chunk. -/
def chooseDestination (space : Space) : Hottee :=
  { st with
    currentDestination :=
      if space st.chunkOffsetForFilename st.currentDestination < ONE_HUNDRED_MEGABYTES then
        st.currentDestination.other
      else st.currentDestination }

end Hottee

/-! ## The loop -/

/-- What a turn of the loop comes to. -/
inductive Turn
  | returns (ok : Bool) (st : Hottee)
  | continues (bytesAvailable : ℕ) (st : Hottee)

/-- Nothing can be read if nothing is to be. -/
def readAndWrite (bytesAvailable sizeToRead : ℕ) (st : Hottee) : Turn :=
  let readChunk := st.unread.take sizeToRead
  -- `read` has returned nothing, though there were bytes to read
  if readChunk.length < 1 then .returns false st
  else
    let st := (st.read sizeToRead).writeToOutput readChunk
    -- the bytes have gone to the output process by then, and are in no file
    if st.currentlyWritingToEitherDestination ∧ st.currentOutputFile = none then .returns false st
    else
      .continues (bytesAvailable - readChunk.length)
        ((st.writeToFile readChunk).advance readChunk.length)

/-- The end of a chunk.  `sizeToRead` was worked out for that chunk. -/
def syncPoint (space : Space) (bytesAvailable sizeToRead : ℕ) (st : Hottee) : Turn :=
  let st := st.nextChunk.restartOutputProcess
  if st.startWritingAtBeginningOfNextChunk ∨ st.currentlyWritingToEitherDestination then
    -- a file that is not open cannot be flushed
    if st.startWritingAtBeginningOfNextChunk = false ∧ st.currentOutputFile = none then
      .returns false st
    else
      let st := st.closeFile
      if st.quitAfterThisChunkFinishes then .returns true st.cleanupHotteeingAndRequestQuit
      else if st.stopWritingAtEndOfThisChunk then .continues bytesAvailable st.stopWriting
      else
        let st := st.chooseDestination space
        -- both destinations are full
        if space st.chunkOffsetForFilename st.currentDestination < ONE_HUNDRED_MEGABYTES then
          .returns false st
        else .continues bytesAvailable st.createAndOpen100mbFileAtCurrentDestination
  else readAndWrite bytesAvailable sizeToRead st

def turn (space : Space) (bytesAvailable : ℕ) (st : Hottee) : Turn :=
  if bytesAvailable < 1 then .returns true st
  else
    let bytesLeftIn100mbChunk := ONE_HUNDRED_MEGABYTES - st.current100mbChunkWriteOffset
    let sizeToRead := min (min bytesAvailable READ_CHUNK_SIZE_BYTES) bytesLeftIn100mbChunk
    if sizeToRead < 1 then syncPoint space bytesAvailable sizeToRead st
    else readAndWrite bytesAvailable sizeToRead st

/-- A turn reads, or starts a chunk. -/
def turnsLeft (bytesAvailable : ℕ) (st : Hottee) : ℕ :=
  2 * bytesAvailable + if ONE_HUNDRED_MEGABYTES ≤ st.current100mbChunkWriteOffset then 1 else 0

section

variable {space : Space} {bytesAvailable n sizeToRead : ℕ} {st st' : Hottee}

lemma readAndWrite_turnsLeft (h : readAndWrite bytesAvailable sizeToRead st = .continues n st')
    (hpos : 0 < bytesAvailable) : n < bytesAvailable := by
  simp only [readAndWrite] at h
  split at h
  · cases h
  · split at h
    · cases h
    · cases h
      omega

lemma syncPoint_turnsLeft (h : syncPoint space bytesAvailable sizeToRead st = .continues n st')
    (hpos : 0 < bytesAvailable) :
    n < bytesAvailable ∨ n = bytesAvailable ∧ st'.current100mbChunkWriteOffset = 0 := by
  simp only [syncPoint] at h
  split at h
  · split at h
    · cases h
    · split at h
      · cases h
      · split at h
        · cases h
          exact .inr ⟨rfl, rfl⟩
        · split at h
          · cases h
          · cases h
            exact .inr ⟨rfl, rfl⟩
  · exact .inl (readAndWrite_turnsLeft h hpos)

lemma turn_turnsLeft (h : turn space bytesAvailable st = .continues n st') :
    turnsLeft n st' < turnsLeft bytesAvailable st := by
  simp only [turn] at h
  unfold turnsLeft
  split at h
  · cases h
  · next hpos =>
      have hfewer : n < bytesAvailable →
          2 * n + (if ONE_HUNDRED_MEGABYTES ≤ st'.current100mbChunkWriteOffset then 1 else 0) <
            2 * bytesAvailable +
              if ONE_HUNDRED_MEGABYTES ≤ st.current100mbChunkWriteOffset then 1 else 0 := by
        intro hlt
        split <;> omega
      split at h
      · next hsize =>
          have hfull : ONE_HUNDRED_MEGABYTES ≤ st.current100mbChunkWriteOffset := by
            unfold READ_CHUNK_SIZE_BYTES at hsize
            omega
          rcases syncPoint_turnsLeft h (by omega) with hlt | ⟨rfl, hstart⟩
          · exact hfewer hlt
          · rw [if_pos hfull, hstart, if_neg (by decide)]
            exact Nat.lt_succ_self _
      · exact hfewer (readAndWrite_turnsLeft h (by omega))

end

/-- The rest of the loop. -/
def readLoop (space : Space) (bytesAvailable : ℕ) (st : Hottee) : Bool × Hottee :=
  match _h : turn space bytesAvailable st with
  | .returns ok st' => (ok, st')
  | .continues n st' => readLoop space n st'
termination_by turnsLeft bytesAvailable st
decreasing_by exact turn_turnsLeft _h

namespace Hottee

variable (st : Hottee)

def readInputProcessesStdOutAndWriteAccordingly (space : Space) : Bool × Hottee :=
  readLoop space st.unread.length st

def handleInputProcessReadyReadStandardOutput (space : Space) : Hottee :=
  match st.readInputProcessesStdOutAndWriteAccordingly space with
  | (true, st) => st
  | (false, st) => { st with currentlyWritingToEitherDestination := false }

/-- `startHotteeing`, after the destinations have been looked at. -/
def startHotteeing (writeToOutputProcess : Bool) (outputProcessFilenameOffsetJoinPoint : ℕ) :
    Hottee :=
  let st : Hottee :=
    { writeToOutputProcess, chunkOffsetForFilename := outputProcessFilenameOffsetJoinPoint }
  { st.createAndOpen100mbFileAtCurrentDestination with currentlyWritingToEitherDestination := true }

end Hottee

/-- What can happen while the input process runs. -/
inductive Event
  | readyRead (bytes : List UInt8)
  | startWritingAtNextChunkStart
  | stopWritingAtEndOfThisChunk
  | restartOutputProcessOnNextChunkStart

/-- A command is only noted; it takes effect at the next boundary, in the call that reads across it.
-/
def step (space : Space) (st : Hottee) : Event → Hottee
  | .readyRead bytes =>
      { st with unread := st.unread ++ bytes }.handleInputProcessReadyReadStandardOutput space
  | .startWritingAtNextChunkStart =>
      if st.currentlyWritingToEitherDestination then st
      else { st with startWritingAtBeginningOfNextChunk := true }
  | .stopWritingAtEndOfThisChunk =>
      if st.currentlyWritingToEitherDestination = false ∧
          st.startWritingAtBeginningOfNextChunk = false then st
      else { st with stopWritingAtEndOfThisChunk := true }
  | .restartOutputProcessOnNextChunkStart =>
      { st with restartOutputProcessOnNextChunkStart := true }

end Autobackup.Hotteeing
