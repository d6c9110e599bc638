import Autobackup.Foundation.Machine
import Autobackup.Wasdf.Sketch

/-!
# The fingers of a calibration

`WasdfArduino` tells the sketch which pins the fingers are on and where they are at rest.  The
message that is meant to carry it has the command to start, and so the sketch goes on to report all
inputs it has, under ids that no calibration has (`not_reportsCalibratedFingers`).

Messages arrive whole and in order here; how they are framed is in
`Autobackup.ChecksummedMessages.Reader`.  Analog inputs have any values in their range.  Left out
are debug messages, and integers of 16 bits, which the values fit into.
-/

namespace Autobackup.Wasdf

inductive Finger
  | leftPinky | leftRing | leftMiddle | leftIndex | leftThumb
  | rightThumb | rightIndex | rightMiddle | rightRing | rightPinky
  deriving DecidableEq, Repr

structure WasdfCalibrationFingerConfiguration where
  analogPinIdOnArduino : ℤ := -1
  minValue : ℤ := MaxAnalogPinValue
  maxValue : ℤ := MinAnalogPinValue
  atRestPosition : ℤ
  deriving DecidableEq, Repr

def WASDF_AT_REST_RANGE_PERCENT : ℕ := 10

/-- `qRound` of a quotient that is not negative. -/
def qRound (n d : ℕ) : ℤ := ((2 * n + d) / (2 * d) : ℕ)

/-- The minimum and the maximum. -/
def WasdfCalibrationFingerConfiguration.calculateAtRestRange
    (finger : WasdfCalibrationFingerConfiguration) : ℤ × ℤ :=
  let calibratedTotalRange := (finger.maxValue - finger.minValue).natAbs
  let halfAtRestRange := qRound (calibratedTotalRange * WASDF_AT_REST_RANGE_PERCENT) 200
  (max (finger.atRestPosition - halfAtRestRange) finger.minValue,
    min (finger.atRestPosition + halfAtRestRange) finger.maxValue)

/-- A hash, in the order in which it is iterated over. -/
abbrev WasdfCalibrationConfiguration := List (Finger × WasdfCalibrationFingerConfiguration)

namespace WasdfArduino

/-- The message that `start` sends. -/
def start : JsonObject := JsonObject.insert "command" (.string "start") []

/-- One turn of the loop of `configure`. -/
def insertAtRestRange (fingersAtRestRanges : JsonObject)
    (fingConf : WasdfCalibrationFingerConfiguration) : JsonObject :=
  let (atRestMin, atRestMax) := fingConf.calculateAtRestRange
  fingersAtRestRanges.insert (toString fingConf.analogPinIdOnArduino) (.object
    (JsonObject.insert "atRestMax" (.number atRestMax)
      (JsonObject.insert "atRestMin" (.number atRestMin) [])))

/-- The message that `configure` sends. -/
def configure (calibrationConfig : WasdfCalibrationConfiguration) : JsonObject :=
  JsonObject.insert "fingersAtRestRanges"
    (.object ((calibrationConfig.map (·.2)).foldl insertAtRestRange []))
    (JsonObject.insert "command" (.string "start") [])

end WasdfArduino

/-- What reaches the sketch: the values of its sensors when it looks, or a message. -/
inductive Event
  | scan (values : ℕ → ℤ)
  | start
  | configure (calibrationConfig : WasdfCalibrationConfiguration)

namespace Sketch

variable (board : Board)

def step (st : Sketch) : Event → Sketch
  | .scan values => (st.scan board values).2
  | .start => st.receive board (some WasdfArduino.start)
  | .configure calibrationConfig =>
      st.receive board (some (WasdfArduino.configure calibrationConfig))

end Sketch

/-! ## What a calibration asks for -/

/-- Ten fingers, on different analog pins that the board has. -/
def WasdfCalibrationConfiguration.Valid (calibration : WasdfCalibrationConfiguration)
    (board : Board) : Prop :=
  (calibration.map (·.1)).Nodup ∧ calibration.length = NUM_FINGERS ∧
    (calibration.map (·.2.analogPinIdOnArduino)).Nodup ∧
      ∀ finger ∈ calibration, board.minAnalogPinId ≤ finger.2.analogPinIdOnArduino ∧
        finger.2.analogPinIdOnArduino ≤ board.maxAnalogPinId
  deriving Decidable

/-- The finger is on the pin, its value is valid and not at rest, and it differs enough from the
last one that was reported. -/
def Moved (finger : WasdfCalibrationFingerConfiguration) (last : Option ℤ) (pin value : ℤ) : Prop :=
  finger.analogPinIdOnArduino = pin ∧ MinAnalogPinValue ≤ value ∧ value ≤ MaxAnalogPinValue ∧
    ¬ (finger.calculateAtRestRange.1 ≤ value ∧ value ≤ finger.calculateAtRestRange.2) ∧
      ∀ old ∈ last, newSensorValueHasChangedEnoughThatWeWantToReportIt old value

/-- The last values reported, after a report. -/
def lastReported (last : ℤ → Option ℤ) (report : List (ℤ × ℤ)) (pin : ℤ) : Option ℤ :=
  ((report.find? (·.1 = pin)).map (·.2)).or (last pin)

/-- **A configured Arduino reports exactly the calibrated fingers**, in these scans. -/
def ReportsCalibratedFingers (board : Board) (calibration : WasdfCalibrationConfiguration) :
    (ℤ → Option ℤ) → Sketch → List (ℕ → ℤ) → Prop
  | _, _, [] => True
  | last, st, values :: rest =>
      let (report, st) := st.scan board values
      (∀ pin, pin ∈ report.map (·.1) ↔
        ∃ finger ∈ calibration, Moved finger.2 (last pin) pin (board.analogRead values pin)) ∧
          ReportsCalibratedFingers board calibration (lastReported last report) st rest

/-! ## The sketch is never configured -/

/-- The pin of an analog input for which there was no configuration. -/
structure AnalogPin.Unconfigured (i : ℕ) (pin : AnalogPin) : Prop where
  intPinId : pin.intPinId = i
  atRestMax : pin.atRestMax = -1
  reported : pin.changeReportingSuppressedViaConfigurationCommand = false
  old : MinAnalogPinValue ≤ pin.oldSensorValue ∧ pin.oldSensorValue ≤ MaxAnalogPinValue

section FingerMoved

variable {i : ℕ} {pin : AnalogPin} {analogRead : ℤ → ℤ} {v : ℤ}

/-- Without a range at rest, a pin moved if its value has changed enough. -/
lemma AnalogPin.Unconfigured.fingerMoved_eq (h : pin.Unconfigured i) (hv : analogRead i = v)
    (hmin : MinAnalogPinValue ≤ v) (hmax : v ≤ MaxAnalogPinValue) :
    (pin.fingerMoved analogRead).1 =
        newSensorValueHasChangedEnoughThatWeWantToReportIt pin.oldSensorValue v ∧
      (pin.fingerMoved analogRead).2.oldSensorValue =
        if newSensorValueHasChangedEnoughThatWeWantToReportIt pin.oldSensorValue v then v
        else pin.oldSensorValue := by
  have hid : pin.intPinId ≠ -1 := by
    have hi := h.intPinId
    omega
  have hread : pin.sanitizingAnalogRead analogRead = some v := by
    unfold sanitizingAnalogRead
    rw [if_neg hid, h.intPinId, hv, if_neg (by omega)]
  have hrest : ¬ (v ≤ pin.atRestMax ∧ v ≥ pin.atRestMin) := by
    have hatRest := h.atRestMax
    unfold MinAnalogPinValue at hmin
    omega
  unfold fingerMoved
  rw [hread]
  dsimp only
  rw [if_neg hrest]
  split
  · next hchanged => exact ⟨hchanged.symm, rfl⟩
  · next hchanged => exact ⟨(Bool.eq_false_iff.2 hchanged).symm, rfl⟩

/-- A look at the sensor configures nothing, and keeps valid values only. -/
lemma AnalogPin.Unconfigured.fingerMoved (h : pin.Unconfigured i) (analogRead : ℤ → ℤ) :
    (pin.fingerMoved analogRead).2.Unconfigured i := by
  unfold AnalogPin.fingerMoved
  cases hread : pin.sanitizingAnalogRead analogRead with
  | none => exact h
  | some v =>
      have hvalid : MinAnalogPinValue ≤ v ∧ v ≤ MaxAnalogPinValue := by
        unfold sanitizingAnalogRead at hread
        split at hread
        · cases hread
        · split at hread
          · cases hread
          · next hinside =>
              obtain rfl := Option.some.inj hread
              omega
      dsimp only
      split
      · exact ⟨h.intPinId, h.atRestMax, h.reported, h.old⟩
      · split
        · exact ⟨h.intPinId, h.atRestMax, h.reported, hvalid⟩
        · exact ⟨h.intPinId, h.atRestMax, h.reported, h.old⟩

end FingerMoved

namespace Sketch

/-- The pins of the inputs from number `i` on. -/
def UnconfiguredFrom : ℕ → List AnalogPin → Prop
  | _, [] => True
  | i, pin :: rest => pin.Unconfigured i ∧ UnconfiguredFrom (i + 1) rest

/-- All pins are unconfigured, and the sketch did not run into an error. -/
structure NeverConfigured (st : Sketch) : Prop where
  nonempty : st.allAnalogPins ≠ []
  pins : UnconfiguredFrom 0 st.allAnalogPins
  blinking : st.blinking = false

/-- Nothing is configured by a report, which is about inputs from number `i` on. -/
lemma UnconfiguredFrom.reportChanges {i : ℕ} {pins : List AnalogPin} (h : UnconfiguredFrom i pins)
    (analogRead : ℤ → ℤ) : UnconfiguredFrom i (reportChanges analogRead pins).2 ∧
      ∀ id ∈ (Sketch.reportChanges analogRead pins).1.map (·.1), (i : ℤ) ≤ id := by
  induction pins generalizing i with
  | nil => exact ⟨trivial, by simp [Sketch.reportChanges]⟩
  | cons pin rest ih =>
      obtain ⟨hrest, hids⟩ := ih h.2
      have hmoved := h.1.fingerMoved analogRead
      unfold Sketch.reportChanges
      dsimp only
      rw [if_neg (by simp [h.1.reported])]
      refine ⟨⟨hmoved, hrest⟩, fun id hid => ?_⟩
      have hlater (hid : id ∈ (Sketch.reportChanges analogRead rest).1.map (·.1)) :
          (i : ℤ) ≤ id := by
        have hle := hids id hid
        omega
      dsimp only at hid
      split at hid
      · rcases List.mem_cons.1 hid with rfl | hid
        · exact hmoved.intPinId.ge
        · exact hlater hid
      · exact hlater hid

namespace NeverConfigured

variable {board : Board} {st : Sketch}

/-- The first input, while all sensors have one value. -/
lemma scan_first (board : Board) (h : st.NeverConfigured) (hstarted : st.started = true) {v : ℤ}
    (hmin : MinAnalogPinValue ≤ v) (hmax : v ≤ MaxAnalogPinValue) {pin : AnalogPin}
    (hpin : st.allAnalogPins.head? = some pin) :
    (0 ∈ (st.scan board fun _ => v).1.map (·.1) ↔
      newSensorValueHasChangedEnoughThatWeWantToReportIt pin.oldSensorValue v = true) ∧
      ∃ pin', (st.scan board fun _ => v).2.allAnalogPins.head? = some pin' ∧ pin'.oldSensorValue =
        if newSensorValueHasChangedEnoughThatWeWantToReportIt pin.oldSensorValue v then v
        else pin.oldSensorValue := by
  obtain ⟨rest, hrest⟩ : ∃ rest, st.allAnalogPins = pin :: rest := List.head?_eq_some_iff.1 hpin
  have hpins := h.pins
  rw [hrest] at hpins
  obtain ⟨hmoved, hold⟩ := hpins.1.fingerMoved_eq
    (show board.analogRead (fun _ => v) (0 : ℕ) = v from rfl) hmin hmax
  have hlater : (0 : ℤ) ∉ (Sketch.reportChanges (board.analogRead fun _ => v) rest).1.map (·.1) :=
    fun hmem => absurd ((hpins.2.reportChanges _).2 0 hmem) (by omega)
  have hid : (pin.fingerMoved (board.analogRead fun _ => v)).2.intPinId = 0 :=
    (hpins.1.fingerMoved _).intPinId
  unfold Sketch.scan
  rw [if_pos ⟨hstarted, by simp [h.blinking]⟩, hrest]
  unfold Sketch.reportChanges
  dsimp only
  rw [if_neg (by simp [hpins.1.reported])]
  refine ⟨?_, _, rfl, hold⟩
  rw [hmoved]
  split
  · next hchanged => simp [hid, hchanged]
  · next hchanged => exact iff_of_false hlater hchanged

lemma old_of_head (h : st.NeverConfigured) {pin : AnalogPin}
    (hpin : st.allAnalogPins.head? = some pin) :
    MinAnalogPinValue ≤ pin.oldSensorValue ∧ pin.oldSensorValue ≤ MaxAnalogPinValue := by
  obtain ⟨rest, hrest⟩ : ∃ rest, st.allAnalogPins = pin :: rest := List.head?_eq_some_iff.1 hpin
  have hpins := h.pins
  rw [hrest] at hpins
  exact hpins.1.old

lemma scan (h : st.NeverConfigured) (values : ℕ → ℤ) :
    (st.scan board values).2.NeverConfigured := by
  unfold Sketch.scan
  split
  · refine ⟨?_, (h.pins.reportChanges _).1, h.blinking⟩
    obtain ⟨pin, rest, hrest⟩ := List.exists_cons_of_ne_nil h.nonempty
    rw [hrest]
    unfold Sketch.reportChanges
    dsimp only
    split
    · exact List.cons_ne_nil _ _
    · exact List.cons_ne_nil _ _
  · exact h

lemma text_start : JsonObject.text WasdfArduino.start "command" = "start" := by
  unfold JsonObject.text WasdfArduino.start
  rw [JsonObject.value_insert]

lemma text_configure (calibration : WasdfCalibrationConfiguration) :
    JsonObject.text (WasdfArduino.configure calibration) "command" = "start" := by
  unfold JsonObject.text WasdfArduino.configure
  rw [JsonObject.value_insert_of_ne (by decide), JsonObject.value_insert]

/-- Whatever else is in a message: the command is to start. -/
lemma receive (h : st.NeverConfigured) {message : JsonObject}
    (hcommand : message.text "command" = "start") :
    (st.receive board (some message)) = { st with started := true } := by
  unfold Sketch.receive processInputCommandString
  rw [if_neg (by simp [h.blinking])]
  dsimp only
  rw [hcommand]
  rfl

lemma start (h : st.NeverConfigured) : { st with started := true }.NeverConfigured :=
  ⟨h.nonempty, h.pins, h.blinking⟩

/-- **The step lemma.** -/
lemma step (h : st.NeverConfigured) (x : Event) : (st.step board x).NeverConfigured := by
  cases x with
  | scan values => exact h.scan values
  | start =>
      have hstart : st.step board .start = { st with started := true } := h.receive text_start
      rw [hstart]
      exact h.start
  | configure calibration =>
      have hstart : st.step board (.configure calibration) = { st with started := true } :=
        h.receive (text_configure calibration)
      rw [hstart]
      exact h.start

/-- **The run lemma.** -/
lemma run (h : st.NeverConfigured) (events : List Event) :
    (Machine.run (Sketch.step board) st events).NeverConfigured := by
  induction events generalizing st with
  | nil => exact h
  | cons x rest ih => exact ih (h.step x)

end NeverConfigured

lemma unconfiguredFrom_range (i n : ℕ) :
    UnconfiguredFrom i ((List.range' i n).map fun (i : ℕ) => { intPinId := (i : ℤ) }) := by
  induction n generalizing i with
  | zero => trivial
  | succ n ih =>
      have hold : (0 : ℤ) ≤ MaxAnalogPinValue := by decide
      exact ⟨⟨rfl, rfl, rfl, le_rfl, hold⟩, ih (i + 1)⟩

lemma neverConfigured_setup (board : Board) : (setup board).NeverConfigured := by
  refine ⟨?_, ?_, rfl⟩
  · have henough : 10 ≤ board.numAnalogInputs := board.enough
    intro hnil
    rw [setup, List.map_eq_nil_iff, List.range_eq_nil] at hnil
    omega
  · have hrange := unconfiguredFrom_range 0 board.numAnalogInputs
    rwa [← List.range_eq_range'] at hrange

end Sketch

lemma changedEnough_iff {old new : ℤ} :
    newSensorValueHasChangedEnoughThatWeWantToReportIt old new = true ↔
      new < old - 2 ∨ new > old + 2 := by
  unfold newSensorValueHasChangedEnoughThatWeWantToReportIt
  simp [HALF_THRESHOLD_FOR_NOTIFYING_OF_CHANGE]

/-- There is a valid value that is far from a given one. -/
lemma exists_changedEnough {old : ℤ} (hmin : MinAnalogPinValue ≤ old)
    (hmax : old ≤ MaxAnalogPinValue) : ∃ w, MinAnalogPinValue ≤ w ∧ w ≤ MaxAnalogPinValue ∧
      newSensorValueHasChangedEnoughThatWeWantToReportIt old w = true ∧
        newSensorValueHasChangedEnoughThatWeWantToReportIt w old = true := by
  unfold MinAnalogPinValue at hmin
  unfold MaxAnalogPinValue at hmax
  by_cases hlow : old ≤ 511
  · refine ⟨1023, by decide, by decide, changedEnough_iff.2 ?_, changedEnough_iff.2 ?_⟩
    · omega
    · omega
  · refine ⟨0, by decide, by decide, changedEnough_iff.2 ?_, changedEnough_iff.2 ?_⟩
    · omega
    · omega

/-- **No calibrated finger is reported as it should be**, whatever happened before: the inputs are
reported under their own numbers and whether they are at rest or not.

The scans are quantified inside: for every board and every calibration there are readings with which
the reports are wrong.  The events before are anything, also an earlier configuration, so no way of
starting the sketch avoids it. -/
theorem not_reportsCalibratedFingers (board : Board) (events : List Event)
    (calibration : WasdfCalibrationConfiguration) :
    ¬ ∀ scans : List (ℕ → ℤ), ReportsCalibratedFingers board calibration (fun _ => none)
      (Machine.run (Sketch.step board) (Sketch.setup board)
        (events ++ [.configure calibration])) scans := by
  intro hreports
  have hbefore : (Machine.run (Sketch.step board) (Sketch.setup board) events).NeverConfigured :=
    (Sketch.neverConfigured_setup board).run events
  rw [Machine.run_append] at hreports
  generalize Machine.run (Sketch.step board) (Sketch.setup board) events = before
    at hbefore hreports
  have hconfigure : Machine.run (Sketch.step board) before [.configure calibration] =
      { before with started := true } :=
    hbefore.receive (Sketch.NeverConfigured.text_configure calibration)
  have hst := hbefore.start
  have hstarted : { before with started := true }.started = true := rfl
  rw [hconfigure] at hreports
  generalize { before with started := true } = st at hst hstarted hreports
  obtain ⟨pin, hpin⟩ : ∃ pin, st.allAnalogPins.head? = some pin := by
    obtain ⟨pin, rest, hrest⟩ := List.exists_cons_of_ne_nil hst.nonempty
    exact ⟨pin, by rw [hrest]; rfl⟩
  have hold := hst.old_of_head hpin
  -- a value that differs from the last one that was reported, from wherever
  obtain ⟨w, hmin, hmax, hchanged, hback⟩ : ∃ w, MinAnalogPinValue ≤ w ∧ w ≤ MaxAnalogPinValue ∧
      newSensorValueHasChangedEnoughThatWeWantToReportIt pin.oldSensorValue w = true ∧
        newSensorValueHasChangedEnoughThatWeWantToReportIt w pin.oldSensorValue = true :=
    exists_changedEnough hold.1 hold.2
  -- if it comes back to the last one, that is reported: so it is calibrated, and not at rest there
  obtain ⟨-, pin', hpin', hold'⟩ := hst.scan_first board hstarted hmin hmax hpin
  rw [if_pos hchanged] at hold'
  have hcomesBack := (hreports [fun _ => w, fun _ => pin.oldSensorValue]).2.1 0
  have hst' : (st.scan board fun _ => w).2.NeverConfigured := hst.scan fun _ => w
  have hstarted' : (st.scan board fun _ => w).2.started = true := by
    unfold Sketch.scan
    split
    · exact hstarted
    · exact hstarted
  have hreported := (hst'.scan_first board hstarted' hold.1 hold.2 hpin').1
  rw [hold'] at hreported
  obtain ⟨finger, hfinger, hid, -, -, hrest, -⟩ := hcomesBack.1 (hreported.2 hback)
  -- and then it is to be reported also if it never left
  have hstays := (hreports [fun _ => pin.oldSensorValue]).1 0
  have hmoved : 0 ∈ (st.scan board fun _ => pin.oldSensorValue).1.map (·.1) :=
    hstays.2 ⟨finger, hfinger, hid, hold.1, hold.2, hrest, by simp⟩
  have hsame := (hst.scan_first board hstarted hold.1 hold.2 hpin).1.1 hmoved
  rw [changedEnough_iff] at hsame
  omega

/-- The fingers of a calibration, the pins of which are those from `a0` on. -/
def tenFingers (a0 : ℤ) : WasdfCalibrationConfiguration :=
  [.leftPinky, .leftRing, .leftMiddle, .leftIndex, .leftThumb, .rightThumb, .rightIndex,
    .rightMiddle, .rightRing, .rightPinky].mapIdx fun (i : ℕ) finger =>
      (finger, ⟨a0 + i, 0, 1023, 512⟩)

/-- A board with twelve inputs, the first one on pin 18. -/
def micro : Board := ⟨12, 18, by decide⟩

theorem not_calibratedFingers_reported :
    ¬ ∀ (board : Board) (calibration : WasdfCalibrationConfiguration), calibration.Valid board →
      ∀ (events : List Event) (scans : List (ℕ → ℤ)),
        ReportsCalibratedFingers board calibration (fun _ => none)
          (Machine.run (Sketch.step board) (Sketch.setup board)
            (events ++ [.configure calibration])) scans := by
  intro hreports
  have hmicro := hreports micro (tenFingers 18) (by decide) [.start]
    [fun i => if i = 0 then 1023 else 0]
  obtain ⟨finger, hfinger, hid, -⟩ := (hmicro.1 0).1 (by decide +kernel)
  exact absurd hid ((by decide : ∀ finger ∈ tenFingers 18, finger.2.analogPinIdOnArduino ≠ 0)
    finger hfinger)

end Autobackup.Wasdf
