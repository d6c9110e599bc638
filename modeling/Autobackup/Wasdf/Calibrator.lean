import Mathlib
import Autobackup.Foundation.AssociationList
import Autobackup.Foundation.HashOrder
import Autobackup.Wasdf.CalibratedFingers

/-!
# Calibrating the fingers

`WasdfCalibrator` asks for one finger after the other, and gives it the pin that has moved furthest
when the five seconds are over.  `WasdfCalibrationAtRestDetector` is told of all readings.

Two things go wrong in it.  `PreviousPinPosition` stays 0, so that the distance of a pin is the sum
of its readings (`Reads`).  And what the detector appends to is the list of a shared pointer that it
asks the hash for, with a new list where there is none: that list is not put into the hash, and so
nothing is ever gathered.
-/

namespace Autobackup.Wasdf

open Machine

/-- What an analog pin sends, which the Arduino connection has checked. -/
structure Reading where
  pinNumberOnArduino : ℤ
  newPinPosition : ℤ
  min_le : MinAnalogPinValue ≤ newPinPosition
  le_max : newPinPosition ≤ MaxAnalogPinValue

/-! ## The fingers in their order -/

def fingerIsLeftHand : Finger → Bool
  | .leftPinky | .leftRing | .leftMiddle | .leftIndex | .leftThumb => true
  | .rightThumb | .rightIndex | .rightMiddle | .rightRing | .rightPinky => false

/-- The finger means nothing in the initial state. -/
structure FingerIteratorOrderedByMostUsedFingers where
  initialState : Bool := true
  finger : Finger := .rightIndex

namespace FingerIteratorOrderedByMostUsedFingers

def hasNext (it : FingerIteratorOrderedByMostUsedFingers) : Bool :=
  if it.initialState then true
  else if it.finger = .leftPinky then false
  else true

def privateNextFinger : Finger → Finger
  | .rightIndex => .leftIndex
  | .leftIndex => .rightMiddle
  | .rightMiddle => .leftMiddle
  | .leftMiddle => .rightThumb
  | .rightThumb => .leftThumb
  | .leftThumb => .rightRing
  | .rightRing => .leftRing
  | .leftRing => .rightPinky
  | .rightPinky => .leftPinky
  | .leftPinky => .rightIndex

def next (it : FingerIteratorOrderedByMostUsedFingers) :
    Finger × FingerIteratorOrderedByMostUsedFingers :=
  let finger := if it.initialState then .rightIndex else privateNextFinger it.finger
  (finger, ⟨false, finger⟩)

/-- These fingers, and then no more. -/
def Gives : FingerIteratorOrderedByMostUsedFingers → List Finger → Prop
  | it, [] => it.hasNext = false
  | it, finger :: rest => it.hasNext = true ∧ it.next.1 = finger ∧ Gives it.next.2 rest

end FingerIteratorOrderedByMostUsedFingers

/-- In the order in which they are asked for. -/
def mostUsedFingers : List Finger :=
  [.rightIndex, .leftIndex, .rightMiddle, .leftMiddle, .rightThumb, .leftThumb, .rightRing,
    .leftRing, .rightPinky, .leftPinky]

lemma mem_mostUsedFingers (finger : Finger) : finger ∈ mostUsedFingers := by
  cases finger <;> decide

lemma gives_mostUsedFingers :
    FingerIteratorOrderedByMostUsedFingers.Gives {} mostUsedFingers :=
  ⟨rfl, rfl, rfl, rfl, rfl, rfl, rfl, rfl, rfl, rfl, rfl, rfl, rfl, rfl, rfl, rfl, rfl, rfl, rfl,
    rfl, rfl⟩

/-! ## The model -/

structure PinNumDetectionAndCalibrationData where
  previousPinPosition : ℤ := 0
  accumulatedDistanceThePinHasMoved : ℤ := 0
  pinCalibrationData : WasdfCalibrationFingerConfiguration
  deriving DecidableEq

structure PinNumberAndAtRestValue where
  pinNumber : ℤ
  atRestValue : ℤ

/-- `m_Calibration`. -/
abbrev FingerConfigurations := AList fun _ : Finger => WasdfCalibrationFingerConfiguration

/-- What the source leaves open: the orders in which hashes are iterated over, and the rest position
of a configuration that is not initialised. -/
structure Unspecified where
  pins : HashOrder (Sigma fun _ : ℤ => PinNumDetectionAndCalibrationData)
  positions : HashOrder (Sigma fun _ : ℤ => List ℤ)
  averages : HashOrder (Sigma fun _ : Finger => List PinNumberAndAtRestValue)
  atRestValues : HashOrder (Sigma fun _ : Finger => List ℤ)
  calibration : HashOrder (Sigma fun _ : Finger => WasdfCalibrationFingerConfiguration)
  atRestPosition : Finger → ℤ

/-- `hash.value(key, new QList)->append(x)`. -/
def appendToValue {κ α : Type} [DecidableEq κ] (hash : AList fun _ : κ => List α) (key : κ)
    (x : α) : AList fun _ : κ => List α :=
  match hash.lookup key with
  | none => hash -- the new list is in no hash
  | some list => hash.replace key (list ++ [x])

structure WasdfCalibrationAtRestDetector where
  currentAllAnalogPinPositions : AList fun _ : ℤ => List ℤ := ∅
  averagedAtRestValuesGatheredWhileCalibratingFingers :
    AList fun _ : Finger => List PinNumberAndAtRestValue := ∅

namespace WasdfCalibrationAtRestDetector

variable (u : Unspecified)

/-- Of numbers that are not negative. -/
def calculateAverage (numbersToAverageTogether : List ℤ) : ℤ :=
  qRound numbersToAverageTogether.sum.toNat numbersToAverageTogether.length

def addAnalogPinPosition (d : WasdfCalibrationAtRestDetector) (analogPinId newPinPosition : ℤ) :
    WasdfCalibrationAtRestDetector :=
  { d with
    currentAllAnalogPinPositions :=
      appendToValue d.currentAllAnalogPinPositions analogPinId newPinPosition }

def weJustFinishedCalibratingThisAnalogPinId (d : WasdfCalibrationAtRestDetector) (finger : Finger)
    (analogPin : ℤ) : WasdfCalibrationAtRestDetector :=
  let positions := d.currentAllAnalogPinPositions.erase analogPin
  let averaged := (u.positions.order positions.entries).foldl
    (fun averaged e => appendToValue averaged finger ⟨e.1, calculateAverage e.2⟩)
    d.averagedAtRestValuesGatheredWhileCalibratingFingers
  ⟨∅, averaged⟩

def hasFingerWithAnalogPinId (calibration : FingerConfigurations) (analogPinId : ℤ) : Bool :=
  (u.calibration.order calibration.entries).any fun e => e.2.analogPinIdOnArduino = analogPinId

def getFingerByAnalogPinId (calibration : FingerConfigurations) (analogPinId : ℤ) : Option Finger :=
  ((u.calibration.order calibration.entries).find? fun e =>
    e.2.analogPinIdOnArduino = analogPinId).map (·.1)

/-- One turn of the inner loop of `finalize`. -/
def keepOppositeHand (calibration : FingerConfigurations) (calibrated : Finger)
    (atRestValues : AList fun _ : Finger => List ℤ) (value : PinNumberAndAtRestValue) :
    AList fun _ : Finger => List ℤ :=
  if hasFingerWithAnalogPinId u calibration value.pinNumber then
    match getFingerByAnalogPinId u calibration value.pinNumber with
    | none => atRestValues
    | some mappedFinger =>
        -- the fingers of the hand that moves are not at rest
        if fingerIsLeftHand calibrated != fingerIsLeftHand mappedFinger then
          appendToValue atRestValues mappedFinger value.atRestValue
        else atRestValues
  else atRestValues

def finalize (d : WasdfCalibrationAtRestDetector) (calibration : FingerConfigurations) :
    FingerConfigurations :=
  let gathered := u.averages.order d.averagedAtRestValuesGatheredWhileCalibratingFingers.entries
  let atRestValues := gathered.foldl
    (fun values e => e.2.foldl (keepOppositeHand u calibration e.1) values) ∅
  (u.atRestValues.order atRestValues.entries).foldl
    (fun calibration e =>
      let fingerConfiguration := (calibration.lookup e.1).getD { atRestPosition := 0 }
      calibration.insert e.1 { fingerConfiguration with atRestPosition := calculateAverage e.2 })
    calibration

end WasdfCalibrationAtRestDetector

structure WasdfCalibrator where
  calibration : FingerConfigurations := ∅
  accumulatedDistancesEachAnalogPinMoved :
    AList fun _ : ℤ => PinNumDetectionAndCalibrationData := ∅
  orderedFingerIterator : FingerIteratorOrderedByMostUsedFingers := {}
  fingerCurrentlyBeingCalibrated : Finger
  atRestDetector : WasdfCalibrationAtRestDetector := {}
  /-- What the signal carried, once it was emitted. -/
  calibrationComplete : Option WasdfCalibrationConfiguration := none

/-- What happens in one update of the entry of a pin. -/
def PinNumDetectionAndCalibrationData.read (data : PinNumDetectionAndCalibrationData)
    (pinNumberOnArduino newPinPosition : ℤ) : PinNumDetectionAndCalibrationData :=
  { data with
    accumulatedDistanceThePinHasMoved :=
      data.accumulatedDistanceThePinHasMoved + (data.previousPinPosition - newPinPosition).natAbs
    pinCalibrationData :=
      { data.pinCalibrationData with
        analogPinIdOnArduino := pinNumberOnArduino
        maxValue := max data.pinCalibrationData.maxValue newPinPosition
        minValue := min data.pinCalibrationData.minValue newPinPosition } }

namespace WasdfCalibrator

variable (u : Unspecified) (c : WasdfCalibrator)

def getPinCalibrationDataWithTheFurthestAccumulatedDistanceTraveled :
    PinNumDetectionAndCalibrationData :=
  pickLargest (·.accumulatedDistanceThePinHasMoved)
    { pinCalibrationData :=
        { atRestPosition := u.atRestPosition c.fingerCurrentlyBeingCalibrated } }
    ((u.pins.order c.accumulatedDistancesEachAnalogPinMoved.entries).map (·.2))

def calibrateFingerAndThenCallCalibrateNextFingerAgain (fingerToCalibrate : Finger) :
    WasdfCalibrator :=
  { c with
    fingerCurrentlyBeingCalibrated := fingerToCalibrate
    accumulatedDistancesEachAnalogPinMoved := ∅ }

def calibrateNextFingerAndEmitCalibrationCompleteAfterLastFinger : WasdfCalibrator :=
  if c.orderedFingerIterator.hasNext then
    let (finger, iterator) := c.orderedFingerIterator.next
    calibrateFingerAndThenCallCalibrateNextFingerAgain
      { c with orderedFingerIterator := iterator } finger
  else
    let calibration := c.atRestDetector.finalize u c.calibration
    { c with
      calibration := calibration
      calibrationComplete := some (calibration.entries.map fun e => (e.1, e.2)) }

/-- A value-initialised entry is at rest at 0. -/
def handleAnalogPinReadingChanged (pinNumberOnArduino newPinPosition : ℤ) : WasdfCalibrator :=
  let currentPinData := (c.accumulatedDistancesEachAnalogPinMoved.lookup pinNumberOnArduino).getD
    { pinCalibrationData := { atRestPosition := 0 } }
  { c with
    atRestDetector := c.atRestDetector.addAnalogPinPosition pinNumberOnArduino newPinPosition
    accumulatedDistancesEachAnalogPinMoved :=
      c.accumulatedDistancesEachAnalogPinMoved.insert pinNumberOnArduino
        (currentPinData.read pinNumberOnArduino newPinPosition) }

def startCalibrating : WasdfCalibrator :=
  calibrateNextFingerAndEmitCalibrationCompleteAfterLastFinger u
    { c with orderedFingerIterator := { c.orderedFingerIterator with initialState := true } }

def handleTimerTimedOut : WasdfCalibrator :=
  let data := c.getPinCalibrationDataWithTheFurthestAccumulatedDistanceTraveled u
  calibrateNextFingerAndEmitCalibrationCompleteAfterLastFinger u
    { c with
      atRestDetector := c.atRestDetector.weJustFinishedCalibratingThisAnalogPinId u
        c.fingerCurrentlyBeingCalibrated data.pinCalibrationData.analogPinIdOnArduino
      calibration :=
        c.calibration.insert c.fingerCurrentlyBeingCalibrated data.pinCalibrationData }

end WasdfCalibrator

inductive CalibratorEvent
  | analogPinReadingChanged (reading : Reading)
  | timeout

def WasdfCalibrator.step (u : Unspecified) (c : WasdfCalibrator) :
    CalibratorEvent → WasdfCalibrator
  | .analogPinReadingChanged reading =>
      c.handleAnalogPinReadingChanged reading.pinNumberOnArduino reading.newPinPosition
  | .timeout => c.handleTimerTimedOut u

/-- The five seconds of one finger. -/
def windowOf (readings : List Reading) : List CalibratorEvent :=
  readings.map .analogPinReadingChanged ++ [.timeout]

variable (u : Unspecified) (windows : Finger → List Reading)

/-- What a whole calibration leads to, with these readings while a finger is calibrated. -/
def calibrate : Option WasdfCalibrationConfiguration :=
  (run (WasdfCalibrator.step u)
    (WasdfCalibrator.startCalibrating u { fingerCurrentlyBeingCalibrated := .rightIndex })
    (mostUsedFingers.flatMap fun finger => windowOf (windows finger))).calibrationComplete

/-! ## What is known of a pin -/

/-- Where a pin was, reading after reading. -/
def positions (pin : ℤ) (readings : List Reading) : List ℤ :=
  (readings.filter (·.pinNumberOnArduino = pin)).map (·.newPinPosition)

lemma positions_append {pin : ℤ} {before after : List Reading} :
    positions pin (before ++ after) = positions pin before ++ positions pin after := by
  unfold positions
  rw [List.filter_append, List.map_append]

lemma positions_ne_nil {pin : ℤ} {readings : List Reading} :
    positions pin readings ≠ [] ↔ pin ∈ readings.map (·.pinNumberOnArduino) := by
  rw [positions, Ne, List.map_eq_nil_iff, List.filter_eq_nil_iff, List.mem_map]
  simp only [decide_eq_true_eq, not_forall, not_not, exists_prop]

namespace PinNumDetectionAndCalibrationData

variable {data : PinNumDetectionAndCalibrationData} {pin v : ℤ} {vs : List ℤ}

/-- The entry of a pin that sent these values.  The distance is their sum. -/
structure Reads (data : PinNumDetectionAndCalibrationData) (pin : ℤ) (vs : List ℤ) : Prop where
  previous : data.previousPinPosition = 0
  distance : data.accumulatedDistanceThePinHasMoved = vs.sum
  pin : data.pinCalibrationData.analogPinIdOnArduino = pin
  min_mem : data.pinCalibrationData.minValue ∈ vs
  min_le : ∀ v ∈ vs, data.pinCalibrationData.minValue ≤ v
  max_mem : data.pinCalibrationData.maxValue ∈ vs
  le_max : ∀ v ∈ vs, v ≤ data.pinCalibrationData.maxValue
  atRest : data.pinCalibrationData.atRestPosition = 0

lemma reads_first (h0 : 0 ≤ v) (h1 : v ≤ 1023) :
    Reads (read { pinCalibrationData := { atRestPosition := 0 } } pin v) pin [v] := by
  have hmin : min MaxAnalogPinValue v = v := min_eq_right h1
  have hmax : max MinAnalogPinValue v = v := max_eq_right h0
  constructor
  · rfl
  · show 0 + ((0 - v).natAbs : ℤ) = v + 0
    omega
  · rfl
  · exact List.mem_singleton.2 hmin
  · intro w hw
    rw [List.mem_singleton.1 hw]
    exact hmin.le
  · exact List.mem_singleton.2 hmax
  · intro w hw
    rw [List.mem_singleton.1 hw]
    exact hmax.ge
  · rfl

lemma Reads.read (h : data.Reads pin vs) (h0 : 0 ≤ v) :
    (data.read pin v).Reads pin (vs ++ [v]) := by
  constructor
  · exact h.previous
  · show data.accumulatedDistanceThePinHasMoved + (data.previousPinPosition - v).natAbs =
      (vs ++ [v]).sum
    rw [h.previous, h.distance, List.sum_append, List.sum_singleton]
    omega
  · rfl
  · show min data.pinCalibrationData.minValue v ∈ vs ++ [v]
    rcases min_choice data.pinCalibrationData.minValue v with hmin | hmin
    · rw [hmin]
      exact List.mem_append_left _ h.min_mem
    · rw [hmin]
      exact List.mem_append_right _ (List.mem_singleton_self v)
  · intro w hw
    rcases List.mem_append.1 hw with hw | hw
    · exact (min_le_left _ _).trans (h.min_le w hw)
    · exact (min_le_right _ _).trans (List.mem_singleton.1 hw).ge
  · show max data.pinCalibrationData.maxValue v ∈ vs ++ [v]
    rcases max_choice data.pinCalibrationData.maxValue v with hmax | hmax
    · rw [hmax]
      exact List.mem_append_left _ h.max_mem
    · rw [hmax]
      exact List.mem_append_right _ (List.mem_singleton_self v)
  · intro w hw
    rcases List.mem_append.1 hw with hw | hw
    · exact (h.le_max w hw).trans (le_max_left _ _)
    · exact (List.mem_singleton.1 hw).le.trans (le_max_right _ _)
  · exact h.atRest

end PinNumDetectionAndCalibrationData

/-- The hash after these readings. -/
def distances (readings : List Reading) : AList fun _ : ℤ => PinNumDetectionAndCalibrationData :=
  readings.foldl (fun hash reading => hash.insert reading.pinNumberOnArduino
    (((hash.lookup reading.pinNumberOnArduino).getD
      { pinCalibrationData := { atRestPosition := 0 } }).read reading.pinNumberOnArduino
        reading.newPinPosition)) ∅

lemma distances_concat (readings : List Reading) (reading : Reading) :
    distances (readings ++ [reading]) =
      (distances readings).insert reading.pinNumberOnArduino
        ((((distances readings).lookup reading.pinNumberOnArduino).getD
          { pinCalibrationData := { atRestPosition := 0 } }).read reading.pinNumberOnArduino
            reading.newPinPosition) :=
  List.foldl_concat ..

/-- There is an entry for the pins that sent something, and it says what they sent. -/
lemma lookup_distances (readings : List Reading) (pin : ℤ) :
    (positions pin readings = [] → (distances readings).lookup pin = none) ∧
      (positions pin readings ≠ [] → ∃ data, (distances readings).lookup pin = some data ∧
        data.Reads pin (positions pin readings)) := by
  induction readings using List.reverseRecOn with
  | nil => exact ⟨fun _ => rfl, fun h => absurd rfl h⟩
  | append_singleton readings reading ih =>
      rw [distances_concat, positions_append]
      by_cases hpin : reading.pinNumberOnArduino = pin
      · have hpositions : positions pin [reading] = [reading.newPinPosition] := by
          simp [positions, hpin]
        rw [hpositions, hpin, AList.lookup_insert]
        refine ⟨fun h => absurd h (List.append_ne_nil_of_right_ne_nil _ (List.cons_ne_nil _ _)),
          fun _ => ⟨_, rfl, ?_⟩⟩
        by_cases hbefore : positions pin readings = []
        · rw [ih.1 hbefore, hbefore]
          exact PinNumDetectionAndCalibrationData.reads_first reading.min_le reading.le_max
        · obtain ⟨data, hdata, hreads⟩ := ih.2 hbefore
          rw [hdata]
          exact hreads.read reading.min_le
      · have hpositions : positions pin [reading] = [] := by
          simp [positions, hpin]
        rw [hpositions, List.append_nil, AList.lookup_insert_ne (Ne.symm hpin)]
        exact ih

/-! ## A whole calibration -/

/-- The entry that is picked at the end of the five seconds of a finger. -/
def pickedFor (finger : Finger) (readings : List Reading) : PinNumDetectionAndCalibrationData :=
  pickLargest (·.accumulatedDistanceThePinHasMoved)
    { pinCalibrationData := { atRestPosition := u.atRestPosition finger } }
    ((u.pins.order (distances readings).entries).map (·.2))

variable {u} {windows} {c : WasdfCalibrator} {finger : Finger} {rest : List Finger}

/-- At the start of the five seconds of a finger, with these fingers to follow. -/
structure WasdfCalibrator.Calibrating (c : WasdfCalibrator) (finger : Finger) (rest : List Finger) :
    Prop where
  finger : c.fingerCurrentlyBeingCalibrated = finger
  distances : c.accumulatedDistancesEachAnalogPinMoved = ∅
  detector : c.atRestDetector = {}
  upcoming : c.orderedFingerIterator.Gives rest

lemma run_readings (h : c.Calibrating finger rest) (readings : List Reading) :
    run (WasdfCalibrator.step u) c (readings.map .analogPinReadingChanged) =
      { c with accumulatedDistancesEachAnalogPinMoved := distances readings } := by
  induction readings using List.reverseRecOn with
  | nil =>
      have hempty : distances [] = c.accumulatedDistancesEachAnalogPinMoved := h.distances.symm
      rw [hempty]
      rfl
  | append_singleton readings reading ih =>
      rw [List.map_append, run_append, ih, distances_concat]
      have hdetector : c.atRestDetector.addAnalogPinPosition reading.pinNumberOnArduino
          reading.newPinPosition = c.atRestDetector := by
        rw [h.detector]
        rfl
      show { c with
        atRestDetector := c.atRestDetector.addAnalogPinPosition reading.pinNumberOnArduino
          reading.newPinPosition
        accumulatedDistancesEachAnalogPinMoved := _ } = _
      rw [hdetector]

lemma run_windowOf (h : c.Calibrating finger rest) (readings : List Reading) :
    run (WasdfCalibrator.step u) c (windowOf readings) =
      WasdfCalibrator.calibrateNextFingerAndEmitCalibrationCompleteAfterLastFinger u
        { c with
          accumulatedDistancesEachAnalogPinMoved := distances readings
          calibration :=
            c.calibration.insert finger (pickedFor u finger readings).pinCalibrationData } := by
  have hfinger := h.finger
  subst hfinger
  have hdetector : ∀ pin, c.atRestDetector.weJustFinishedCalibratingThisAnalogPinId u
      c.fingerCurrentlyBeingCalibrated pin = c.atRestDetector := by
    intro pin
    have hnothing : u.positions.order
        (AList.erase pin (∅ : AList fun _ : ℤ => List ℤ)).entries = [] := HashOrder.order_nil _
    rw [h.detector]
    unfold WasdfCalibrationAtRestDetector.weJustFinishedCalibratingThisAnalogPinId
    dsimp only
    rw [hnothing]
    rfl
  rw [windowOf, run_append, run_readings h]
  show WasdfCalibrator.calibrateNextFingerAndEmitCalibrationCompleteAfterLastFinger u
    { c with
      atRestDetector := c.atRestDetector.weJustFinishedCalibratingThisAnalogPinId u
        c.fingerCurrentlyBeingCalibrated _
      accumulatedDistancesEachAnalogPinMoved := distances readings
      calibration := _ } = _
  rw [hdetector]
  rfl

/-- The hash that a calibration fills. -/
def calibrated (u : Unspecified) (windows : Finger → List Reading) (fingers : List Finger)
    (calibration : FingerConfigurations) : FingerConfigurations :=
  fingers.foldl (fun calibration finger => calibration.insert finger
    (pickedFor u finger (windows finger)).pinCalibrationData) calibration

lemma run_windows (h : c.Calibrating finger rest) :
    (run (WasdfCalibrator.step u) c
      ((finger :: rest).flatMap fun finger => windowOf (windows finger))).calibrationComplete =
        some ((calibrated u windows (finger :: rest) c.calibration).entries.map
          fun e => (e.1, e.2)) := by
  induction rest generalizing c finger with
  | nil =>
      have hnone : c.orderedFingerIterator.hasNext = false := h.upcoming
      have hnothing : u.averages.order
          (∅ : AList fun _ : Finger => List PinNumberAndAtRestValue).entries = [] :=
        HashOrder.order_nil _
      have hvalues : u.atRestValues.order
          (∅ : AList fun _ : Finger => List ℤ).entries = [] := HashOrder.order_nil _
      have hfinalize : ∀ calibration, c.atRestDetector.finalize u calibration = calibration := by
        intro calibration
        rw [h.detector]
        unfold WasdfCalibrationAtRestDetector.finalize
        dsimp only
        rw [hnothing, List.foldl_nil, hvalues, List.foldl_nil]
      rw [List.flatMap_cons, List.flatMap_nil, List.append_nil, run_windowOf h]
      unfold WasdfCalibrator.calibrateNextFingerAndEmitCalibrationCompleteAfterLastFinger
      dsimp only
      rw [hnone, if_neg Bool.false_ne_true, hfinalize]
      rfl
  | cons next rest ih =>
      obtain ⟨hhas, hnext, hgives⟩ := h.upcoming
      rw [List.flatMap_cons, run_append, run_windowOf h]
      unfold WasdfCalibrator.calibrateNextFingerAndEmitCalibrationCompleteAfterLastFinger
      dsimp only
      rw [if_pos hhas]
      exact ih ⟨hnext, rfl, h.detector, hgives⟩

/-- A calibration comes to its end, and every finger has what was picked for it. -/
lemma calibrate_eq : calibrate u windows =
    some ((calibrated u windows mostUsedFingers ∅).entries.map fun e => (e.1, e.2)) := by
  apply run_windows
  exact ⟨rfl, rfl, rfl, gives_mostUsedFingers.2.2⟩

lemma mem_calibrated {configuration : WasdfCalibrationFingerConfiguration} :
    (finger, configuration) ∈
        (calibrated u windows mostUsedFingers ∅).entries.map (fun e => (e.1, e.2)) ↔
      configuration = (pickedFor u finger (windows finger)).pinCalibrationData := by
  have hlookup : (calibrated u windows mostUsedFingers ∅).lookup finger =
      some (pickedFor u finger (windows finger)).pinCalibrationData := by
    unfold calibrated
    rw [AssociationList.lookup_foldl_insert, if_pos (mem_mostUsedFingers finger)]
  rw [List.mem_map]
  constructor
  · rintro ⟨⟨finger', configuration'⟩, hmem, heq⟩
    obtain ⟨rfl, rfl⟩ := Prod.mk.inj heq
    rw [AssociationList.mem_entries, hlookup] at hmem
    exact (Option.some.inj hmem).symm
  · rintro rfl
    exact ⟨⟨finger, _⟩, AssociationList.mem_entries.2 hlookup, rfl⟩

end Autobackup.Wasdf
