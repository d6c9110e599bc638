import Autobackup.Foundation.TextLines
import Autobackup.Foundation.TextParts
import Mathlib.Algebra.Order.Floor.Ring
import Mathlib.Data.Rat.Floor
import Mathlib.Logic.Function.Basic

/-!
# The bitrates of a video

Before a video is converted, `calculateOrGuessNewAudioAndVideoBitrates` reads what ffprobe says of
it.  The bitrates come from the stream lines, and where one of them is missing it is guessed from
the other one and from the size and the duration of the file.  Both are multiplied by the target
percentage and clamped.

The `double`s of the source are rationals.  Where C++ leaves a conversion to `int` undefined the
result is any `int`, and so it is after a division by zero; the plan keeps what was converted and
whether it was divided by zero.
-/

namespace Autobackup.LossyCopier

open QString

/-- What is not part of the program. -/
structure Platform where
  /-- `QString::toLower` -/
  toLower : Text → Text
  /-- `QString::toDouble` -/
  toDouble : Text → Option ℚ
  /-- A `double` that is too large for an `int`, converted. -/
  outOfRange : ℚ → {n : ℤ // IsInt n}
  /-- A quotient by zero, converted. -/
  quotientByZero : {n : ℤ // IsInt n}

/-- A `double` without what is behind the point. -/
def truncated (q : ℚ) : ℤ := if 0 ≤ q then ⌊q⌋ else ⌈q⌉

/-- It can be converted to `int`. -/
def FitsInInt (q : ℚ) : Prop := IsInt (truncated q)

instance (q : ℚ) : Decidable (FitsInInt q) := inferInstanceAs (Decidable (IsInt _))

def Platform.convertToInt (p : Platform) (q : ℚ) : ℤ :=
  if FitsInInt q then truncated q else p.outOfRange q

/-! ## Reading the output of ffprobe -/

/-- The values of the `[FORMAT]` section that are looked at. -/
inductive FormatValue
  | nbStreams
  | duration
  | size
  deriving DecidableEq

def FormatValue.key : FormatValue → Text
  | .nbStreams => "nb_streams=".toList
  | .duration => "duration=".toList
  | .size => "size=".toList

inductive StreamType
  | audio
  | video
  deriving DecidableEq

def StreamType.name : StreamType → Text
  | .audio => "audio".toList
  | .video => "video".toList

/-- Where the bitrate is among the parts of a stream line. -/
def StreamType.bitratePart : StreamType → ℕ
  | .audio => 4
  | .video => 3

/-- The locals of the loop: `formatNbStreams`, `formatDuration`, `formatSize` and `ret`. -/
structure Probe where
  inFormatSection : Bool := false
  format : FormatValue → ℤ := fun _ => -1
  ret : StreamType → ℤ := fun _ => -1
  /-- The `double`s that were converted to `int`. -/
  convertedToInt : List ℚ := []

section Reading

variable (p : Platform)

def getValueFromOutputLine (outputLine : Text) : ℚ :=
  match splitSkippingEmptyParts '=' outputLine with
  | [_, rightHalf] => (p.toDouble rightHalf).getD (-1)
  | _ => -1

def parsedBitrateCheckForKbsStringAndGreaterThanZero_or_NegativeTwo (bitrateStringMaybe : Text) :
    ℤ :=
  let workingString := trimmed (p.toLower bitrateStringMaybe)
  if contains workingString "kb/s".toList then
    if ' ' ∈ workingString ∧ 0 < indexOf " ".toList workingString then
      match toInt (workingString.take (indexOf " ".toList workingString)) with
      | some bitrateMaybe => if 0 < bitrateMaybe then bitrateMaybe else -2
      | none => -2
    else -2
  else -2

/-- A line of the `[FORMAT]` section with a value. -/
def Probe.readFormatValue (s : Probe) (value : FormatValue) (line : Text) : Option Probe :=
  if s.format value ≠ -1 then none
  else if contains line "N/A".toList then none
  else
    let currentLineValue := getValueFromOutputLine p line
    if currentLineValue ≤ 0 then none
    else some
      { s with
        format := Function.update s.format value (p.convertToInt currentLineValue)
        convertedToInt := s.convertedToInt ++ [currentLineValue] }

/-- The bitrate of a stream, or -2 if there is none. -/
def streamBitrate (streamType : StreamType) (streamInfo : Text) : ℤ :=
  let streamInfoSplitAtCommas := splitSkippingEmptyParts ',' streamInfo
  if h : streamType.bitratePart < streamInfoSplitAtCommas.length then
    parsedBitrateCheckForKbsStringAndGreaterThanZero_or_NegativeTwo p
      (streamInfoSplitAtCommas[streamType.bitratePart])
  else -2

/-- What follows the type in the line of an audio or a video stream. -/
def Probe.readStream (s : Probe) (streamType : StreamType) (streamInfo : Text) : Option Probe :=
  if s.ret streamType = -1 then
    some { s with ret := Function.update s.ret streamType (streamBitrate p streamType streamInfo) }
  else none

/-- A line that starts with `Stream #`. -/
def Probe.readStreamLine (s : Probe) (line : Text) : Option Probe :=
  match splitSkippingEmptyParts ':' line with
  | _ :: _ :: streamType :: streamInfo :: _ =>
      let streamType := p.toLower (trimmed streamType)
      if streamType = StreamType.audio.name then s.readStream p .audio streamInfo
      else if streamType = StreamType.video.name then s.readStream p .video streamInfo
      else some s
  | _ => none

/-- `none` where the source goes to `errDetectingBitrateFfffff`. -/
def Probe.readLine (s : Probe) (currentFfProbeLine : Text) : Option Probe :=
  let line := trimmed currentFfProbeLine
  if s.inFormatSection then
    if line = "[/FORMAT]".toList then some { s with inFormatSection := false }
    else if FormatValue.nbStreams.key <+: line then s.readFormatValue p .nbStreams line
    else if FormatValue.duration.key <+: line then s.readFormatValue p .duration line
    else if FormatValue.size.key <+: line then s.readFormatValue p .size line
    else some s
  else
    if line = "[FORMAT]".toList then some { s with inFormatSection := true }
    else if "Stream #".toList <+: line then s.readStreamLine p line
    else some s

end Reading

/-! ## Guessing and clamping -/

/-- `newBitratePercentTarget` -/
structure PercentTarget where
  value : ℚ
  pos : 0 < value
  lt_one : value < 1

/-- The returned bitrates. -/
structure BitratePlan where
  audio : ℤ
  video : ℤ
  convertedToInt : List ℚ
  dividedByZero : Bool
  deriving DecidableEq

/-- A guess is converted once, and it may divide by zero. -/
structure Guess where
  kiloBitRate : ℤ
  convertedToInt : List ℚ
  dividedByZero : Bool

/-- No guess is needed. -/
def Guess.known (kiloBitRate : ℤ) : Guess := ⟨kiloBitRate, [], false⟩

/-- `deducedBitRate / 1024` -/
def deducedKiloBitRate (knownKiloBitRate durationInSeconds sizeBytes : ℤ) : ℚ :=
  (8 * sizeBytes / durationInSeconds - 1024 * knownKiloBitRate) / 1024

variable (p : Platform)

def guessMissingKiloBitRateBasedOn_KnownKiloBitRate_Duration_and_SizeBytes
    (knownKiloBitRate durationInSeconds sizeBytes : ℤ) : Guess :=
  if durationInSeconds = 0 then ⟨p.quotientByZero, [], true⟩
  else
    let deduced := deducedKiloBitRate knownKiloBitRate durationInSeconds sizeBytes
    ⟨p.convertToInt deduced, [deduced], false⟩

/-- The bitrates before they are multiplied: what is missing is guessed. -/
def guessAnyValueMissing (audio video durationInSeconds sizeBytes : ℤ) : Guess × Guess :=
  if audio ≤ 0 ∧ video ≤ 0 then
    (.known 128, guessMissingKiloBitRateBasedOn_KnownKiloBitRate_Duration_and_SizeBytes p 128
      durationInSeconds sizeBytes)
  else if audio ≤ 0 ∧ 0 < video then
    (guessMissingKiloBitRateBasedOn_KnownKiloBitRate_Duration_and_SizeBytes p video
      durationInSeconds sizeBytes, .known video)
  else if 0 < audio ∧ video ≤ 0 then
    (.known audio, guessMissingKiloBitRateBasedOn_KnownKiloBitRate_Duration_and_SizeBytes p audio
      durationInSeconds sizeBytes)
  else (.known audio, .known video)

/-- The audio bitrate between its minimum and its maximum, or 0. -/
def clampedAudio (audio : ℤ) : ℤ := min (if audio = 0 then 0 else max audio 6) 32

def clampedVideo (video : ℤ) : ℤ := min (max video 20) 500

/-- What follows the loop, after `didntErrorDetectingBitrate`. -/
def Probe.plan (s : Probe) (newBitratePercentTarget : PercentTarget) : Option BitratePlan :=
  if s.format .duration < 0 ∨ s.format .nbStreams < 1 ∨ s.format .size < 0 then none
  else
    let audio :=
      if s.ret .audio ≤ 0 ∧ s.format .nbStreams < 2 then 0 else s.ret .audio
    let guesses :=
      guessAnyValueMissing p audio (s.ret .video) (s.format .duration) (s.format .size)
    let audioAsDouble := guesses.1.kiloBitRate * newBitratePercentTarget.value
    let videoAsDouble := guesses.2.kiloBitRate * newBitratePercentTarget.value
    some
      { audio := clampedAudio (p.convertToInt audioAsDouble)
        video := clampedVideo (p.convertToInt videoAsDouble)
        convertedToInt := s.convertedToInt ++ guesses.1.convertedToInt ++
          guesses.2.convertedToInt ++ [audioAsDouble, videoAsDouble]
        dividedByZero := guesses.1.dividedByZero || guesses.2.dividedByZero }

/-- `none` is the pair of -1 and -1, which stands for an error. -/
def calculateOrGuessNewAudioAndVideoBitrates (ffProbeOutput : Text)
    (newBitratePercentTarget : PercentTarget) : Option BitratePlan :=
  ((linesOf ffProbeOutput).foldlM (Probe.readLine p) {}).bind
    fun s => s.plan p newBitratePercentTarget

end Autobackup.LossyCopier
