import Autobackup.Wasdf.Calibrator

/-!
# The pin that moved

A finger is to have the pin that moves most while it is calibrated, with the range of its readings.
It gets the pin whose readings have the highest sum, and so this goes wrong as soon as a pin that is
at rest sends as many high readings (`picksMovedPins_iff`).

Total variation is how far a pin has moved altogether, up and down.  The sum of the readings is what
the source has in its place.  Nothing relates the two: a pin that rests high has a high sum and has
not moved.
-/

namespace Autobackup.Wasdf

open Machine

/-- The sum of the absolute differences of consecutive positions. -/
def totalVariation : List ℤ → ℤ
  | before :: after :: rest => (after - before).natAbs + totalVariation (after :: rest)
  | _ => 0

variable {windows : Finger → List Reading} {readings : List Reading} {pin : ℤ}

/-- The pin has moved further than every other pin that was read.  If no other pin was, this holds
of one that has not moved at all: the finger can get nothing else. -/
def MovesMost (pin : ℤ) (readings : List Reading) : Prop :=
  pin ∈ readings.map (·.pinNumberOnArduino) ∧
    ∀ other ∈ readings.map (·.pinNumberOnArduino), other ≠ pin →
      totalVariation (positions other readings) < totalVariation (positions pin readings)

/-- This is what the pin is chosen by: a sum above 0, and above that of every other pin that was
read. -/
def HasHighestSum (pin : ℤ) (readings : List Reading) : Prop :=
  0 < (positions pin readings).sum ∧
    ∀ other ∈ readings.map (·.pinNumberOnArduino), other ≠ pin →
      (positions other readings).sum < (positions pin readings).sum

/-- The finger has the pin, with the minimum and the maximum of what was read from it. -/
def IsAssigned (calibration : WasdfCalibrationConfiguration) (finger : Finger) (pin : ℤ)
    (readings : List Reading) : Prop :=
  ∃ configuration, (finger, configuration) ∈ calibration ∧
    configuration.analogPinIdOnArduino = pin ∧
      (configuration.minValue ∈ positions pin readings ∧
        ∀ v ∈ positions pin readings, configuration.minValue ≤ v) ∧
      (configuration.maxValue ∈ positions pin readings ∧
        ∀ v ∈ positions pin readings, v ≤ configuration.maxValue)

/-- **Every finger gets the pin that moved**, and different fingers different pins when different
pins moved, whatever the orders of the hashes are. -/
def PicksMovedPins (windows : Finger → List Reading) : Prop :=
  ∀ u, ∃ calibration, calibrate u windows = some calibration ∧
    (∀ finger pin, MovesMost pin (windows finger) →
      IsAssigned calibration finger pin (windows finger)) ∧
    ∀ movers : Finger → ℤ, (∀ finger, MovesMost (movers finger) (windows finger)) →
      Function.Injective movers →
        calibration.length = NUM_FINGERS ∧ (calibration.map (·.2.analogPinIdOnArduino)).Nodup

/-! ## The pin with the highest sum -/

lemma mem_order_distances {o : HashOrder (Sigma fun _ : ℤ => PinNumDetectionAndCalibrationData)}
    {data : PinNumDetectionAndCalibrationData} :
    data ∈ (o.order (distances readings).entries).map (·.2) ↔
      ∃ pin, (distances readings).lookup pin = some data := by
  rw [List.mem_map]
  constructor
  · rintro ⟨⟨pin, data⟩, hmem, rfl⟩
    exact ⟨pin, AssociationList.mem_entries.1 (o.mem_order.1 hmem)⟩
  · rintro ⟨pin, hdata⟩
    exact ⟨⟨pin, data⟩, o.mem_order.2 (AssociationList.mem_entries.2 hdata), rfl⟩

lemma reads_of_lookup {data : PinNumDetectionAndCalibrationData}
    (hdata : (distances readings).lookup pin = some data) :
    pin ∈ readings.map (·.pinNumberOnArduino) ∧ data.Reads pin (positions pin readings) := by
  have hsent : positions pin readings ≠ [] := by
    intro hnothing
    rw [(lookup_distances readings pin).1 hnothing] at hdata
    cases hdata
  obtain ⟨data', hdata', hreads⟩ := (lookup_distances readings pin).2 hsent
  obtain rfl := Option.some.inj (hdata.symm.trans hdata')
  exact ⟨positions_ne_nil.1 hsent, hreads⟩

lemma HasHighestSum.reads_pickedFor (h : HasHighestSum pin readings) (u : Unspecified)
    (finger : Finger) : (pickedFor u finger readings).Reads pin (positions pin readings) := by
  have hsent : positions pin readings ≠ [] := by
    intro hnothing
    have hpos := h.1
    rw [hnothing] at hpos
    exact absurd hpos (Int.lt_irrefl 0)
  obtain ⟨data, hdata, hreads⟩ := (lookup_distances readings pin).2 hsent
  have hpicked : pickedFor u finger readings = data := by
    apply pickLargest_eq
    · exact mem_order_distances.2 ⟨pin, hdata⟩
    · show 0 < data.accumulatedDistanceThePinHasMoved
      rw [hreads.distance]
      exact h.1
    · intro other hother hne
      obtain ⟨otherPin, hlookup⟩ := mem_order_distances.1 hother
      obtain ⟨hread, hotherReads⟩ := reads_of_lookup hlookup
      rw [hotherReads.distance, hreads.distance]
      apply h.2 otherPin hread
      rintro rfl
      exact hne (Option.some.inj (hlookup.symm.trans hdata))
  rw [hpicked]
  exact hreads

/-- The entry of a pin comes last. -/
def lastOf (pin : ℤ) : Unspecified where
  pins := HashOrder.first fun e => e.1 ≠ pin
  positions := HashOrder.inserted
  averages := HashOrder.inserted
  atRestValues := HashOrder.inserted
  calibration := HashOrder.inserted
  atRestPosition := fun _ => 0

/-- A pin that has not the highest sum is not picked when its entry comes last. -/
lemma pickedFor_lastOf (h : ¬ HasHighestSum pin readings) (finger : Finger) :
    (pickedFor (lastOf pin) finger readings).pinCalibrationData = { atRestPosition := 0 } ∨
      (pickedFor (lastOf pin) finger readings).pinCalibrationData.analogPinIdOnArduino ≠ pin := by
  let start : PinNumDetectionAndCalibrationData := { pinCalibrationData := { atRestPosition := 0 } }
  let others := ((distances readings).entries.filter fun e => e.1 ≠ pin).map (·.2)
  let own := ((distances readings).entries.filter fun e => !decide (e.1 ≠ pin)).map (·.2)
  have hmemOthers : ∀ {otherPin data}, (distances readings).lookup otherPin = some data →
      otherPin ≠ pin → data ∈ others := by
    intro otherPin data hdata hne
    apply List.mem_map.2
    refine ⟨⟨otherPin, data⟩, List.mem_filter.2 ⟨AssociationList.mem_entries.2 hdata, ?_⟩, rfl⟩
    exact decide_eq_true hne
  have hown : ∀ data ∈ own, ∃ y ∈ start :: others,
      data.accumulatedDistanceThePinHasMoved ≤ y.accumulatedDistanceThePinHasMoved := by
    intro data hdata
    obtain ⟨⟨ownPin, data⟩, hfiltered, rfl⟩ := List.mem_map.1 hdata
    obtain ⟨hentry, hfilter⟩ := List.mem_filter.1 hfiltered
    have hpin : ownPin = pin := by simpa using hfilter
    subst hpin
    obtain ⟨-, hreads⟩ := reads_of_lookup (AssociationList.mem_entries.1 hentry)
    dsimp only
    rw [hreads.distance]
    by_cases hpos : 0 < (positions ownPin readings).sum
    · have hother : ∃ other ∈ readings.map (·.pinNumberOnArduino), other ≠ ownPin ∧
          (positions ownPin readings).sum ≤ (positions other readings).sum := by
        by_contra hnone
        apply h
        refine ⟨hpos, fun other hother hne => ?_⟩
        by_contra hle
        exact hnone ⟨other, hother, hne, Int.not_lt.1 hle⟩
      obtain ⟨other, hother, hne, hle⟩ := hother
      obtain ⟨otherData, hlookup, hotherReads⟩ :=
        (lookup_distances readings other).2 (positions_ne_nil.2 hother)
      refine ⟨otherData, List.mem_cons_of_mem _ (hmemOthers hlookup hne), ?_⟩
      rw [hotherReads.distance]
      exact hle
    · exact ⟨start, List.mem_cons_self, Int.not_lt.1 hpos⟩
  have hpicked : pickedFor (lastOf pin) finger readings =
      pickLargest (·.accumulatedDistanceThePinHasMoved) start others := by
    have hsplit : ((lastOf pin).pins.order (distances readings).entries).map (·.2) =
        others ++ own := List.map_append
    unfold pickedFor
    rw [hsplit]
    exact pickLargest_append_of_le hown
  have hmem : pickLargest (·.accumulatedDistanceThePinHasMoved) start others ∈ start :: others :=
    pickLargest_mem
  rw [← hpicked] at hmem
  rcases List.mem_cons.1 hmem with heq | hmem
  · exact Or.inl (congrArg (·.pinCalibrationData) heq)
  · right
    obtain ⟨⟨otherPin, data⟩, hentry, heq⟩ := List.mem_map.1 hmem
    obtain ⟨hentry, hne⟩ := List.mem_filter.1 hentry
    obtain ⟨-, hreads⟩ := reads_of_lookup (AssociationList.mem_entries.1 hentry)
    rw [← heq, hreads.pin]
    exact of_decide_eq_true hne

/-! ## The calibration -/

lemma length_calibrated (u : Unspecified) :
    (calibrated u windows mostUsedFingers ∅).entries.length = NUM_FINGERS := by
  have hperm : (calibrated u windows mostUsedFingers ∅).keys.Perm mostUsedFingers := by
    rw [List.perm_ext_iff_of_nodup (AList.keys_nodup _) (by decide)]
    intro finger
    refine iff_of_true ?_ (mem_mostUsedFingers finger)
    apply AList.lookup_isSome.1
    unfold calibrated
    rw [AssociationList.lookup_foldl_insert, if_pos (mem_mostUsedFingers finger)]
    rfl
  have hlength := hperm.length_eq
  rw [AList.keys, List.keys, List.length_map] at hlength
  exact hlength

/-- **A finger gets the pin that moved exactly when its readings have the highest sum.**

The readings of every window are free, so this is exact for whatever the ten fingers do.  Two pins
that share the highest sum do not meet the condition, and it is the order of a hash that decides
between them. -/
theorem picksMovedPins_iff : PicksMovedPins windows ↔
    ∀ finger pin, MovesMost pin (windows finger) → HasHighestSum pin (windows finger) := by
  constructor
  · intro h finger pin hmoves
    by_contra hnot
    obtain ⟨calibration, hcalibration, hassigned, -⟩ := h (lastOf pin)
    obtain rfl := Option.some.inj (hcalibration.symm.trans calibrate_eq)
    obtain ⟨configuration, hmem, hpin, ⟨hmin, -⟩, -, hmax⟩ := hassigned finger pin hmoves
    obtain rfl := mem_calibrated.1 hmem
    rcases pickedFor_lastOf hnot finger with hstart | hother
    · rw [hstart] at hmin hmax
      have hle : MaxAnalogPinValue ≤ MinAnalogPinValue := hmax _ hmin
      exact absurd hle (by decide)
    · exact hother hpin
  · intro h u
    refine ⟨_, calibrate_eq, fun finger pin hmoves => ?_, fun movers hmovers hinjective => ?_⟩
    · have hreads := (h finger pin hmoves).reads_pickedFor u finger
      exact ⟨_, mem_calibrated.2 rfl, hreads.pin, ⟨hreads.min_mem, hreads.min_le⟩,
        hreads.max_mem, hreads.le_max⟩
    · constructor
      · rw [List.length_map]
        exact length_calibrated u
      · have hpins : ∀ entry ∈ (calibrated u windows mostUsedFingers ∅).entries,
            entry.2.analogPinIdOnArduino = movers entry.1 := by
          rintro ⟨finger, configuration⟩ hmem
          have hconfiguration := mem_calibrated.1 (List.mem_map.2 ⟨_, hmem, rfl⟩)
          dsimp only at hconfiguration ⊢
          rw [hconfiguration]
          exact ((h finger _ (hmovers finger)).reads_pickedFor u finger).pin
        rw [List.map_map]
        show ((calibrated u windows mostUsedFingers ∅).entries.map
          fun entry => entry.2.analogPinIdOnArduino).Nodup
        rw [List.map_congr_left hpins]
        have hkeys := (AList.keys_nodup (calibrated u windows mostUsedFingers ∅)).map hinjective
        rw [AList.keys, List.keys, List.map_map] at hkeys
        exact hkeys

/-- Pin 1 moves from 0 to 100 while pin 2 stays at 500. -/
def restingHigh : Finger → List Reading
  | .rightIndex => [⟨2, 500, by decide, by decide⟩, ⟨1, 0, by decide, by decide⟩,
      ⟨1, 100, by decide, by decide⟩, ⟨2, 500, by decide, by decide⟩]
  | _ => []

theorem not_picksMovedPins_restingHigh : ¬ PicksMovedPins restingHigh := by
  intro h
  obtain ⟨calibration, hcalibration, hassigned, -⟩ := h (lastOf 0)
  have hmoves : MovesMost 1 (restingHigh .rightIndex) := by
    unfold MovesMost
    decide
  obtain ⟨configuration, hmem, hpin, -⟩ := hassigned .rightIndex 1 hmoves
  have hpicked : ((calibrate (lastOf 0) restingHigh).getD []).all
      fun entry => entry.2.analogPinIdOnArduino ≠ 1 := by decide
  rw [hcalibration, Option.getD_some, List.all_eq_true] at hpicked
  exact of_decide_eq_true (hpicked _ hmem) hpin

end Autobackup.Wasdf
