import Mathlib.Data.List.Basic
import Mathlib.Data.Int.Cast.Basic
import Mathlib.Algebra.Group.Nat.Defs

/-!
# The checksummed message reader

`QtIoDeviceChecksummedMessageReader` and its header reader take messages apart that were sent as
`SYNC,checksumOfSize,size,checksumOfData,data`.  The device is the list of the bytes that have
arrived and were not read yet; reading takes them from its front.

What is available at once is taken to be fewer than `2 ^ 31` bytes, and this is assumed of all
deliveries in what follows.  A socket or a serial port keeps what has arrived in a buffer that
counts its bytes in an `int`, so it has no more; if it had, the cast of `bytesAvailable()` could be
negative, and the rest of a message would not be read until it no longer was.

Two functions are not the reader's own: the checksum, of which nothing is assumed here, and
`toInt`, the conversion `QByteArray::toInt`, which fails or gives an `int`.
-/

namespace Autobackup.ChecksummedMessages

abbrev Byte := UInt8

/-- `','` -/
def comma : Byte := 44

/-- `ChecksummedMessageHeaderReader_SYNC` -/
def SYNC : List Byte := [83, 89, 78, 67]

/-- 32 hex digits for MD5 checksums -/
def sizeOfLargestHeaderComponent : ℕ := 32

inductive MessageHeaderReaderState
  | lookingForSync
  | readingChecksumOfSizeOfData
  | readingSizeOfData
  | readingChecksumOfData
  deriving DecidableEq, Repr

/-- `QtIoDeviceChecksummedMessageHeaderReader` -/
structure HeaderReader where
  state : MessageHeaderReaderState
  messageHeaderBuffer : List Byte
  parsedChecksumOfSizeOfData : List Byte
  parsedSizeOfData : ℤ
  parsedSizeOfDataAsString : List Byte
  calculatedChecksumOfSizeOfData : List Byte
  parsedMessageChecksum : List Byte
  deriving DecidableEq, Repr

/-- `QtIoDeviceChecksummedMessageReader` -/
structure Reader where
  messageBuffer : List Byte
  messageHeaderReader : HeaderReader
  messageSize : ℤ
  haveReadMessageHeader : Bool
  numBytesOfMessageLeft : ℤ
  calculatedMessageChecksum : List Byte
  deriving DecidableEq, Repr

namespace HeaderReader

/-- Append a byte to the header buffer, of which only the last 32 bytes are kept. -/
def append (h : HeaderReader) (inChar : Byte) : HeaderReader :=
  let messageHeaderBuffer := h.messageHeaderBuffer ++ [inChar]
  { h with
    messageHeaderBuffer :=
      if messageHeaderBuffer.length > sizeOfLargestHeaderComponent then messageHeaderBuffer.drop 1
      else messageHeaderBuffer }

/-- Whether a comma was read, and what is left in the device. -/
def tryReadUntilComma (h : HeaderReader) : List Byte → Bool × HeaderReader × List Byte
  | [] => (false, h, [])
  | inChar :: device =>
      if inChar = comma then (true, h, device) else (h.append inChar).tryReadUntilComma device

/-- What is done with a component once its comma was read while looking for `SYNC`. -/
def lookForSync (h : HeaderReader) : HeaderReader :=
  { h with
    state :=
      -- `endsWith`: what was in front of `SYNC` is noise
      if SYNC <:+ h.messageHeaderBuffer then .readingChecksumOfSizeOfData else h.state
    messageHeaderBuffer := [] }

def takeChecksumOfSizeOfData (h : HeaderReader) : HeaderReader :=
  { h with
    parsedChecksumOfSizeOfData := h.messageHeaderBuffer
    messageHeaderBuffer := []
    state := .readingSizeOfData }

/-- A size that does not convert leaves the header buffer as it is. -/
def takeSizeOfData (checksum : List Byte → List Byte) (toInt : List Byte → Option ℤ)
    (h : HeaderReader) : HeaderReader :=
  match toInt h.messageHeaderBuffer with
  | none => { h with parsedSizeOfData := 0, state := .lookingForSync }
  | some size =>
      { h with
        parsedSizeOfData := size
        parsedSizeOfDataAsString := h.messageHeaderBuffer
        messageHeaderBuffer := []
        calculatedChecksumOfSizeOfData := checksum h.messageHeaderBuffer
        state :=
          if checksum h.messageHeaderBuffer ≠ h.parsedChecksumOfSizeOfData then .lookingForSync
          else .readingChecksumOfData }

def takeChecksumOfData (h : HeaderReader) : HeaderReader :=
  { h with
    parsedMessageChecksum := h.messageHeaderBuffer
    messageHeaderBuffer := []
    state := .lookingForSync }

/-! The cases of the `switch`.  Each of the first three falls through to the next one; the value is
`*out_MessageSize` where the function returns `true`. -/

def caseReadingChecksumOfData (h : HeaderReader) (device : List Byte) :
    Option ℤ × HeaderReader × List Byte :=
  match h.tryReadUntilComma device with
  | (false, h, device) => (none, h, device)
  | (true, h, device) => (some h.parsedSizeOfData, h.takeChecksumOfData, device)

variable (checksum : List Byte → List Byte) (toInt : List Byte → Option ℤ)

def caseReadingSizeOfData (h : HeaderReader) (device : List Byte) :
    Option ℤ × HeaderReader × List Byte :=
  match h.tryReadUntilComma device with
  | (false, h, device) => (none, h, device)
  | (true, h, device) =>
      let h := h.takeSizeOfData checksum toInt
      if h.state = .lookingForSync then (none, h, device)
      else h.caseReadingChecksumOfData device

def caseReadingChecksumOfSizeOfData (h : HeaderReader) (device : List Byte) :
    Option ℤ × HeaderReader × List Byte :=
  match h.tryReadUntilComma device with
  | (false, h, device) => (none, h, device)
  | (true, h, device) => h.takeChecksumOfSizeOfData.caseReadingSizeOfData checksum toInt device

/-- Falls through whether or not `SYNC` was found. -/
def caseLookingForSync (h : HeaderReader) (device : List Byte) :
    Option ℤ × HeaderReader × List Byte :=
  match h.tryReadUntilComma device with
  | (false, h, device) => (none, h, device)
  | (true, h, device) => h.lookForSync.caseReadingChecksumOfSizeOfData checksum toInt device

def tryReadMessageHeader (h : HeaderReader) (device : List Byte) :
    Option ℤ × HeaderReader × List Byte :=
  match h.state with
  | .lookingForSync => h.caseLookingForSync checksum toInt device
  | .readingChecksumOfSizeOfData => h.caseReadingChecksumOfSizeOfData checksum toInt device
  | .readingSizeOfData => h.caseReadingSizeOfData checksum toInt device
  | .readingChecksumOfData => h.caseReadingChecksumOfData device

end HeaderReader

namespace Reader

def withHeader (r : Reader) (h : HeaderReader) : Reader := { r with messageHeaderReader := h }

variable (checksum : List Byte → List Byte) (toInt : List Byte → Option ℤ)

/-- `messageChecksumIsValid` -/
def messageChecksumIsValid (r : Reader) : Bool :=
  checksum r.messageBuffer = r.messageHeaderReader.parsedMessageChecksum

/-- All bytes of the message were read: back to looking for a header, and check the checksum. -/
def messageRead (r : Reader) : Option (List Byte) × Reader :=
  (if r.messageChecksumIsValid checksum then some r.messageBuffer else none,
    { r with
      haveReadMessageHeader := false
      calculatedMessageChecksum := checksum r.messageBuffer })

/-- The message, where the function returns `true`; the reader; what is left in the device. -/
def tryReadMessageActual (r : Reader) (device : List Byte) :
    Option (List Byte) × Reader × List Byte :=
  -- the cast to `int` does nothing to fewer than `2 ^ 31` bytes
  let numBytesToRead := min r.numBytesOfMessageLeft device.length
  -- nothing is left of a message whose size is 0, and nothing is ever read for it
  if numBytesToRead < 1 then (none, r, device)
  else
    let r :=
      { r with
        messageBuffer := r.messageBuffer ++ device.take numBytesToRead.toNat
        numBytesOfMessageLeft := r.numBytesOfMessageLeft - numBytesToRead }
    let device := device.drop numBytesToRead.toNat
    if r.numBytesOfMessageLeft < 1 then
      ((r.messageRead checksum).1, (r.messageRead checksum).2, device)
    else (none, r, device)

/-- The header was read. -/
def startMessage (r : Reader) (messageSize : ℤ) (h : HeaderReader) : Reader :=
  { r with
    messageHeaderReader := h
    messageSize := messageSize
    haveReadMessageHeader := true
    numBytesOfMessageLeft := messageSize
    messageBuffer := [] }

def tryReadMessage (r : Reader) (device : List Byte) : Option (List Byte) × Reader × List Byte :=
  if r.haveReadMessageHeader then r.tryReadMessageActual checksum device
  else
    match r.messageHeaderReader.tryReadMessageHeader checksum toInt device with
    | (none, h, device) => (none, r.withHeader h, device)
    | (some messageSize, h, device) =>
        (r.startMessage messageSize h).tryReadMessageActual checksum device

/-- How a turn of the event loop ends. -/
inductive Turn
  /-- `handleReadyRead` has returned. -/
  | returned (r : Reader)
  /-- It has not, after as many rounds of its loop as were allowed. -/
  | looping (r : Reader)
  deriving DecidableEq, Repr

/-- The first `rounds` rounds of the loop: the messages emitted, and where it then stands. -/
def handleReadyRead : ℕ → Reader → List Byte → List (List Byte) × Turn
  | _, r, [] => ([], .returned r)
  -- a round for every byte was not enough, so some round has read none
  | 0, r, _ :: _ => ([], .looping r)
  | rounds + 1, r, inChar :: device =>
      let read := r.tryReadMessage checksum toInt (inChar :: device)
      let t := handleReadyRead rounds read.2.1 read.2.2
      (read.1.toList ++ t.1, t.2)

/-- One delivery after the other.  As many rounds as there are bytes are enough for the loop, see
`handleReadyRead_eq`; a turn that never ends keeps the later deliveries from being read. -/
def handleReadyReads : Reader → List (List Byte) → List (List Byte) × Turn
  | r, [] => ([], .returned r)
  | r, delivery :: deliveries =>
      match r.handleReadyRead checksum toInt delivery.length delivery with
      | (messages, .returned r) =>
          (messages ++ (handleReadyReads r deliveries).1, (handleReadyReads r deliveries).2)
      | (messages, .looping r) => (messages, .looping r)

/-- As constructed.  The other members are not initialised, or written before they are read. -/
structure InInitialState (r : Reader) : Prop where
  state : r.messageHeaderReader.state = .lookingForSync
  messageHeaderBuffer : r.messageHeaderReader.messageHeaderBuffer = []
  haveReadMessageHeader : r.haveReadMessageHeader = false

/-- A reader as constructed, with nothing in the members that are not initialised. -/
def constructed : Reader where
  messageBuffer := []
  messageHeaderReader :=
    { state := .lookingForSync
      messageHeaderBuffer := []
      parsedChecksumOfSizeOfData := []
      parsedSizeOfData := 0
      parsedSizeOfDataAsString := []
      calculatedChecksumOfSizeOfData := []
      parsedMessageChecksum := [] }
  messageSize := 0
  haveReadMessageHeader := false
  numBytesOfMessageLeft := 0
  calculatedMessageChecksum := []

lemma constructed_inInitialState : constructed.InInitialState := ⟨rfl, rfl, rfl⟩

end Reader

/-! ## Sending -/

/-- `QString::number`, and `String(n)` on the Arduino. -/
def number (n : ℕ) : List Byte := (Nat.toDigits 10 n).map fun c => c.toNat.toUInt8

/-- What `sendRawCommandToArduino` and `sendMessageToPc` write:
`SYNC,checksumOfSize,size,checksumOfData,data`. -/
def sendMessage (checksum : List Byte → List Byte) (data : List Byte) : List Byte :=
  SYNC ++ comma :: (checksum (number data.length) ++ comma :: (number data.length ++ comma ::
    (checksum data ++ comma :: data)))

end Autobackup.ChecksummedMessages
