import Autobackup.Wasdf.MovedPins

/-!
# The position at rest

A finger is to be at rest where its pin was, on average, while the fingers of the other hand were
calibrated.  As nothing is gathered, it stays where the entry of its pin starts, at 0
(`atRestPosition_pickedFor`), and that is the average only where the pin was hardly read to be
anywhere else (`atRestFromOppositeHand_iff`).

A window is what was read while one finger was calibrated, and a finger has the pin that
`Autobackup.Wasdf.MovedPins` is about.  The averages of the other hand are those of five windows.
Left out is the timer that ends a window; its end is where the list of readings ends.
-/

namespace Autobackup.Wasdf

open Machine WasdfCalibrationAtRestDetector

def oppositeHand (finger : Finger) : List Finger :=
  mostUsedFingers.filter fun other => fingerIsLeftHand other != fingerIsLeftHand finger

/-- The average of a pin in each of the windows of the other hand. -/
def oppositeAverages (windows : Finger → List Reading) (finger : Finger) (pin : ℤ) : List ℤ :=
  (oppositeHand finger).map fun window => calculateAverage (positions pin (windows window))

/-- A calibration that assigns ten different pins, all of which send something in every window.
The pin `-1` is the one of a finger without a pin. -/
structure CompleteRun (u : Unspecified) (windows : Finger → List Reading)
    (calibration : WasdfCalibrationConfiguration) (pins : Finger → ℤ) : Prop where
  completes : calibrate u windows = some calibration
  assigned : ∀ finger configuration, (finger, configuration) ∈ calibration →
    configuration.analogPinIdOnArduino = pins finger
  distinct : Function.Injective pins
  real : ∀ finger, pins finger ≠ -1
  sends : ∀ finger window, pins finger ∈ (windows window).map (·.pinNumberOnArduino)

/-- **The positions at rest come from the windows of the opposite hand.** -/
def AtRestFromOppositeHand (calibration : WasdfCalibrationConfiguration)
    (windows : Finger → List Reading) (pins : Finger → ℤ) : Prop :=
  ∀ finger configuration, (finger, configuration) ∈ calibration →
    configuration.atRestPosition =
      calculateAverage (oppositeAverages windows finger (pins finger))

variable {u : Unspecified} {windows : Finger → List Reading} {finger : Finger}
  {calibration : WasdfCalibrationConfiguration} {pins : Finger → ℤ} {readings : List Reading}

/-- A finger with a pin is at rest at 0. -/
lemma atRestPosition_pickedFor
    (h : (pickedFor u finger readings).pinCalibrationData.analogPinIdOnArduino ≠ -1) :
    (pickedFor u finger readings).pinCalibrationData.atRestPosition = 0 := by
  have hmem : pickedFor u finger readings ∈ _ :: _ := pickLargest_mem
  rcases List.mem_cons.1 hmem with heq | hmem
  · rw [heq] at h
    exact absurd rfl h
  · obtain ⟨pin, hdata⟩ := mem_order_distances.1 hmem
    exact (reads_of_lookup hdata).2.atRest

lemma length_oppositeAverages (finger : Finger) (pin : ℤ) :
    (oppositeAverages windows finger pin).length = 5 := by
  unfold oppositeAverages
  rw [List.length_map]
  cases finger <;> rfl

lemma oppositeAverages_sum_nonneg (finger : Finger) (pin : ℤ) :
    0 ≤ (oppositeAverages windows finger pin).sum := by
  apply List.sum_nonneg
  intro average haverage
  obtain ⟨window, -, rfl⟩ := List.mem_map.1 haverage
  exact Int.natCast_nonneg _

/-- The average of the five averages is 0 if they are hardly anything. -/
lemma calculateAverage_oppositeAverages_eq_zero {pin : ℤ} :
    calculateAverage (oppositeAverages windows finger pin) = 0 ↔
      (oppositeAverages windows finger pin).sum ≤ 2 := by
  have hnonneg : 0 ≤ (oppositeAverages windows finger pin).sum :=
    oppositeAverages_sum_nonneg finger pin
  unfold calculateAverage qRound
  rw [length_oppositeAverages]
  omega

/-- **The positions at rest are right exactly when all of them are 0.**

The sum of five averages that are rounded is divided by five and rounded again, so that it is 0 if
the sum is 2 at most.  Hardly any calibration meets that: a pin that rests above the lowest readings
does not. -/
theorem atRestFromOppositeHand_iff (h : CompleteRun u windows calibration pins) :
    AtRestFromOppositeHand calibration windows pins ↔
      ∀ finger, (oppositeAverages windows finger (pins finger)).sum ≤ 2 := by
  obtain rfl := Option.some.inj (h.completes.symm.trans calibrate_eq)
  have hatRest : ∀ finger,
      (pickedFor u finger (windows finger)).pinCalibrationData.atRestPosition = 0 := by
    intro finger
    apply atRestPosition_pickedFor
    rw [h.assigned finger _ (mem_calibrated.2 rfl)]
    exact h.real finger
  constructor
  · intro hright finger
    have haverage := hright finger _ (mem_calibrated.2 rfl)
    rw [hatRest] at haverage
    exact calculateAverage_oppositeAverages_eq_zero.1 haverage.symm
  · intro hsum finger configuration hmem
    rw [mem_calibrated.1 hmem, hatRest]
    exact (calculateAverage_oppositeAverages_eq_zero.2 (hsum finger)).symm

/-! ## A finger moves and the others rest -/

def pinOf (finger : Finger) : ℤ := mostUsedFingers.idxOf finger

def readingAt (finger : Finger) (position : ℕ) (h : position ≤ 1023) : Reading :=
  ⟨pinOf finger, position, Int.natCast_nonneg position, Int.ofNat_le.2 h⟩

/-- One finger moves through its whole range, and the others rest at the same position. -/
def restingAt (rest : ℕ) (hrest : rest ≤ 1023) (finger : Finger) : List Reading :=
  readingAt finger 1023 (le_refl 1023) :: readingAt finger 0 (Nat.zero_le 1023) ::
    (mostUsedFingers.filter (· ≠ finger)).map fun other => readingAt other rest hrest

lemma pinOf_injective : Function.Injective pinOf := by
  intro finger other heq
  exact List.idxOf_inj (mem_mostUsedFingers finger) |>.1 (Int.ofNat.inj heq)

lemma completeRun_of_hasHighestSum (distinct : Function.Injective pins)
    (real : ∀ finger, pins finger ≠ -1)
    (sends : ∀ finger window, pins finger ∈ (windows window).map (·.pinNumberOnArduino))
    (hhighest : ∀ finger, HasHighestSum (pins finger) (windows finger)) :
    CompleteRun u windows
      ((calibrated u windows mostUsedFingers ∅).entries.map fun e => (e.1, e.2)) pins := by
  refine ⟨calibrate_eq, fun finger configuration hmem => ?_, distinct, real, sends⟩
  rw [mem_calibrated.1 hmem]
  exact ((hhighest finger).reads_pickedFor u finger).pin

lemma sends_restingAt {rest : ℕ} (hrest : rest ≤ 1023) (finger window : Finger) :
    pinOf finger ∈ (restingAt rest hrest window).map (·.pinNumberOnArduino) := by
  by_cases heq : finger = window
  · rw [heq]
    exact List.mem_cons_self
  · apply List.mem_cons_of_mem
    apply List.mem_cons_of_mem
    rw [List.map_map]
    refine List.mem_map.2 ⟨finger, List.mem_filter.2 ⟨mem_mostUsedFingers finger, ?_⟩, rfl⟩
    exact decide_eq_true heq

theorem atRestFromOppositeHand_restingAt_zero :
    AtRestFromOppositeHand
      ((calibrated (lastOf 0) (restingAt 0 (by decide)) mostUsedFingers ∅).entries.map
        fun e => (e.1, e.2)) (restingAt 0 (by decide)) pinOf := by
  have hrun : CompleteRun (lastOf 0) (restingAt 0 (by decide)) _ pinOf :=
    completeRun_of_hasHighestSum pinOf_injective (by intro finger; cases finger <;> decide)
      (sends_restingAt _) (by intro finger; unfold HasHighestSum; cases finger <;> decide)
  exact (atRestFromOppositeHand_iff hrun).2 (by intro finger; cases finger <;> decide)

theorem not_atRestFromOppositeHand_restingAt_middle : ¬ ∀ u windows calibration pins,
    CompleteRun u windows calibration pins → AtRestFromOppositeHand calibration windows pins := by
  intro h
  have hrun : CompleteRun (lastOf 0) (restingAt 500 (by decide)) _ pinOf :=
    completeRun_of_hasHighestSum pinOf_injective (by intro finger; cases finger <;> decide)
      (sends_restingAt _) (by intro finger; unfold HasHighestSum; cases finger <;> decide)
  have hright := h _ _ _ _ hrun .rightIndex _ (mem_calibrated.2 rfl)
  rw [atRestPosition_pickedFor (by decide)] at hright
  exact absurd hright (by decide)

end Autobackup.Wasdf
