import Mathlib.Data.Int.Order.Basic
import Mathlib.Data.List.Range

/-!
# The sketch that reports the fingers

`ArduinoWriteChangesOnAnalogPinsToSerial`.  A message from the PC is the json object that is parsed
of it, if there is one, and a report is the list of the pin ids with their values.  The sketch does
not come back from `fatalErrorBlinkPin13`.
-/

namespace Autobackup.Wasdf

def NUM_FINGERS : ℕ := 10

def MinAnalogPinValue : ℤ := 0

def MaxAnalogPinValue : ℤ := 1023

def HALF_THRESHOLD_FOR_NOTIFYING_OF_CHANGE : ℤ := 2

/-! ## Json -/

/-- The values that the messages are made of. -/
inductive Json
  | string (text : String)
  | number (value : ℤ)
  | object (members : List (String × Json))

/-- The members, in the order in which they are iterated over. -/
abbrev JsonObject := List (String × Json)

namespace JsonObject

/-- `QJsonObject::insert`, which keeps the keys sorted. -/
def insert (key : String) (value : Json) : JsonObject → JsonObject
  | [] => [(key, value)]
  | (key', value') :: rest =>
      if key = key' then (key, value) :: rest
      else if key < key' then (key, value) :: (key', value') :: rest
      else (key', value') :: insert key value rest

def value (o : JsonObject) (key : String) : Option Json := (o.find? (·.1 = key)).map (·.2)

lemma value_insert (o : JsonObject) (key : String) (x : Json) :
    value (insert key x o) key = some x := by
  induction o with
  | nil => simp [insert, value]
  | cons m rest ih =>
      rw [insert]
      split
      · simp [value]
      · next hne =>
          split
          · simp [value]
          · rw [value, List.find?_cons_of_neg (by simpa using Ne.symm hne)]
            exact ih

lemma value_insert_of_ne {key key' : String} (hne : key ≠ key') (o : JsonObject) (x : Json) :
    value (insert key' x o) key = value o key := by
  induction o with
  | nil => simp [insert, value, Ne.symm hne]
  | cons m rest ih =>
      rw [insert]
      split
      · next heq =>
          rw [value, value, List.find?_cons_of_neg (by simpa using Ne.symm hne),
            List.find?_cons_of_neg (by simpa [← heq] using Ne.symm hne)]
      · split
        · rw [value, List.find?_cons_of_neg (by simpa using Ne.symm hne)]
          rfl
        · unfold value at ih ⊢
          rw [List.find?_cons, List.find?_cons]
          by_cases hkey : m.1 = key
          · simp [hkey]
          · simpa [hkey] using ih

/-- A text; an empty one where there is none. -/
def text (o : JsonObject) (key : String) : String :=
  match o.value key with
  | some (.string text) => text
  | _ => ""

/-- An `int`; zero where there is none. -/
def int (o : JsonObject) (key : String) : ℤ :=
  match o.value key with
  | some (.number value) => value
  | _ => 0

end JsonObject

/-- An object; one without members where it is none. -/
def Json.members : Json → JsonObject
  | .object members => members
  | _ => []

/-! ## Analog pins -/

/-- `NUM_ANALOG_INPUTS` and `A0` of a board. -/
structure Board where
  numAnalogInputs : ℕ
  a0 : ℕ
  /-- The sketch is not compiled for others. -/
  enough : NUM_FINGERS ≤ numAnalogInputs

namespace Board

variable (board : Board)

def minAnalogPinId : ℤ := board.a0

def maxAnalogPinId : ℤ := board.a0 + (board.numAnalogInputs - 1)

/-- `analogRead` takes the number of an analog input or of its pin. -/
def analogRead (values : ℕ → ℤ) (id : ℤ) : ℤ :=
  values (if board.a0 ≤ id then id - board.a0 else id).toNat

end Board

def newSensorValueHasChangedEnoughThatWeWantToReportIt (oldSensorValue newSensorValue : ℤ) : Bool :=
  if newSensorValue < oldSensorValue - HALF_THRESHOLD_FOR_NOTIFYING_OF_CHANGE then true
  else if newSensorValue > oldSensorValue + HALF_THRESHOLD_FOR_NOTIFYING_OF_CHANGE then true
  else false

/-- `AnalogPin_aka_FingerMb` -/
structure AnalogPin where
  intPinId : ℤ
  atRestMin : ℤ := -1
  atRestMax : ℤ := -1
  changeReportingSuppressedViaConfigurationCommand : Bool := false
  currentSensorValue : ℤ := 0
  oldSensorValue : ℤ := 0
  deriving DecidableEq, Repr

namespace AnalogPin

/-- The sensor values stay. -/
def configure (pin : AnalogPin) (analogPinId atRestMin atRestMax : ℤ)
    (changeReportingSuppressedViaConfigurationCommand : Bool) : AnalogPin :=
  { pin with
    intPinId := analogPinId
    atRestMin := atRestMin
    atRestMax := atRestMax
    changeReportingSuppressedViaConfigurationCommand :=
      changeReportingSuppressedViaConfigurationCommand }

def sanitizingAnalogRead (pin : AnalogPin) (analogRead : ℤ → ℤ) : Option ℤ :=
  if pin.intPinId = -1 then none
  else if analogRead pin.intPinId < MinAnalogPinValue ∨ analogRead pin.intPinId > MaxAnalogPinValue
  then none
  else some (analogRead pin.intPinId)

def fingerMoved (pin : AnalogPin) (analogRead : ℤ → ℤ) : Bool × AnalogPin :=
  match pin.sanitizingAnalogRead analogRead with
  | none => (false, pin)
  | some value =>
      let pin := { pin with currentSensorValue := value }
      -- at rest; the value that was reported last is kept
      if value ≤ pin.atRestMax ∧ value ≥ pin.atRestMin then (false, pin)
      else if newSensorValueHasChangedEnoughThatWeWantToReportIt pin.oldSensorValue value then
        (true, { pin with oldSensorValue := value })
      else (false, pin)

end AnalogPin

/-! ## The sketch -/

structure Sketch where
  started : Bool := false
  allAnalogPins : List AnalogPin
  /-- `fatalErrorBlinkPin13` was called. -/
  blinking : Bool := false

namespace Sketch

/-- `AnalogPins_aka_FingersMb::reportChangesOverSerialPort` -/
def reportChanges (analogRead : ℤ → ℤ) : List AnalogPin → List (ℤ × ℤ) × List AnalogPin
  | [] => ([], [])
  | pin :: rest =>
      let (report, rest) := reportChanges analogRead rest
      -- the pin is not even read
      if pin.changeReportingSuppressedViaConfigurationCommand then (report, pin :: rest)
      else
        let (moved, pin) := pin.fingerMoved analogRead
        (if moved then (pin.intPinId, pin.currentSensorValue) :: report else report, pin :: rest)

def suppressAll (st : Sketch) : Sketch :=
  { st with
    allAnalogPins := st.allAnalogPins.map fun pin =>
      { pin with changeReportingSuppressedViaConfigurationCommand := true } }

def resetConfigurations (st : Sketch) : Sketch :=
  { st with
    allAnalogPins := st.allAnalogPins.mapIdx fun i pin => pin.configure i (-1) (-1) false }

def configureAnalogPinAtIndex (st : Sketch) (i : ℕ) (analogPinId atRestMin atRestMax : ℤ)
    (suppressed : Bool) : Sketch :=
  { st with
    allAnalogPins :=
      st.allAnalogPins.modify i (·.configure analogPinId atRestMin atRestMax suppressed) }

def fatalErrorBlinkPin13 (st : Sketch) : Sketch := { st with blinking := true }

variable (board : Board)

/-- As the constructors and `setup` leave it. -/
def setup : Sketch where
  allAnalogPins := (List.range board.numAnalogInputs).map fun (i : ℕ) => { intPinId := (i : ℤ) }

/-- The number that the digits at the front are. -/
def digits (text : List Char) : ℤ :=
  (text.takeWhile Char.isDigit).foldl (fun n c => 10 * n + (c.toNat - '0'.toNat)) 0

/-- `String::toInt` -/
def toInt (text : String) : ℤ :=
  match text.toList.dropWhile Char.isWhitespace with
  | '-' :: rest => -digits rest
  | '+' :: rest => digits rest
  | rest => digits rest

/-- The loop over the ranges, from the one with number `i`. -/
def configureAnalogPins (st : Sketch) : ℕ → JsonObject → Sketch
  -- too few ranges; those that were there are configured
  | i, [] => if i < NUM_FINGERS then st.fatalErrorBlinkPin13 else st
  | i, (analogPinIdAsString, atRestRange) :: rest =>
      let analogPinId := toInt analogPinIdAsString
      if analogPinId < board.minAnalogPinId ∨ analogPinId > board.maxAnalogPinId then
        st.fatalErrorBlinkPin13
      else if i ≥ NUM_FINGERS then st.fatalErrorBlinkPin13
      else
        configureAnalogPins
          (st.configureAnalogPinAtIndex i analogPinId
            (JsonObject.int atRestRange.members "atRestMin")
            (JsonObject.int atRestRange.members "atRestMax") false) (i + 1) rest

def processInputCommandString (st : Sketch) : Option JsonObject → Sketch
  | none => st.fatalErrorBlinkPin13
  | some root =>
      match root.text "command" with
      | "start" => { st with started := true }
      | "stop" => { st with started := false }
      | "configure" =>
          configureAnalogPins board st.suppressAll 0
            ((root.value "fingersAtRestRanges").elim [] Json.members)
      | "resetConfigurations" => st.resetConfigurations
      | _ => st.fatalErrorBlinkPin13

/-- `sendOutputIfAny`, for the values that the sensors have. -/
def scan (st : Sketch) (values : ℕ → ℤ) : List (ℤ × ℤ) × Sketch :=
  if st.started ∧ ¬ st.blinking then
    let (report, pins) := reportChanges (board.analogRead values) st.allAnalogPins
    (report, { st with allAnalogPins := pins })
  else ([], st)

/-- `receiveInputIfAny`, when a message is complete. -/
def receive (st : Sketch) (message : Option JsonObject) : Sketch :=
  if st.blinking then st else st.processInputCommandString board message

end Sketch

end Autobackup.Wasdf
