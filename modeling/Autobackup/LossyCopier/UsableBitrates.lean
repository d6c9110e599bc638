import Autobackup.LossyCopier.Bitrates
import Mathlib.Tactic.Linarith
import Mathlib.Tactic.Positivity

/-!
# When the planned bitrates are usable

`BitratesUsable` is what is wanted of a plan: no division by zero, nothing that does not fit in an
`int`, and bitrates in their ranges.  The video bitrate always is in its range.  For the rest
`PlansUsably` gives the exact condition, in terms of what is in the output of ffprobe
(`bitratesUsable_iff`): the loop of the source is related to the lines of the output with the
section they are in (`sections`), and its variables to the first line that has a value for them.

Numbers in the output are read as the source reads them, with `toDouble` and `toInt` of the platform
as parameters.  Left out are starting ffprobe and its exit code; its output may be any text.
-/

namespace Autobackup.LossyCopier

open QString

variable {p : Platform}

/-! ## What is in the output -/

/-- The trimmed lines, each with whether it is read in the `[FORMAT]` section. -/
def sections : Bool → List Text → List (Bool × Text)
  | _, [] => []
  | inFormatSection, line :: rest =>
      (inFormatSection, trimmed line) ::
        sections
          (if inFormatSection then decide (trimmed line ≠ "[/FORMAT]".toList)
            else decide (trimmed line = "[FORMAT]".toList)) rest

/-- The value on a line of the `[FORMAT]` section. -/
def FormatValue.onLine (p : Platform) (value : FormatValue) (line : Bool × Text) : Option ℚ :=
  if line.1 = true ∧ value.key <+: line.2 then some (getValueFromOutputLine p line.2) else none

/-- The bitrate on a stream line of this type, or -2 if there is none. -/
def StreamType.onLine (p : Platform) (streamType : StreamType) (line : Bool × Text) : Option ℤ :=
  if line.1 = false ∧ "Stream #".toList <+: line.2 then
    match splitSkippingEmptyParts ':' line.2 with
    | _ :: _ :: name :: streamInfo :: _ =>
        if p.toLower (trimmed name) = streamType.name then
          some (streamBitrate p streamType streamInfo)
        else none
    | _ => none
  else none

/-- The value in the output. -/
def FormatValue.inOutput (p : Platform) (ffProbeOutput : Text) (value : FormatValue) : Option ℚ :=
  (sections false (linesOf ffProbeOutput)).findSome? (value.onLine p)

/-- The bitrate in the output. -/
def StreamType.inOutput (p : Platform) (ffProbeOutput : Text) (streamType : StreamType) :
    Option ℤ :=
  (sections false (linesOf ffProbeOutput)).findSome? (streamType.onLine p)

/-! ## What is wanted -/

/-- **The plan is usable.** -/
structure BitratesUsable (p : Platform) (ffProbeOutput : Text) (plan : BitratePlan) : Prop where
  notDividedByZero : plan.dividedByZero = false
  fitsInInt : ∀ q ∈ plan.convertedToInt, FitsInInt q
  video : 20 ≤ plan.video ∧ plan.video ≤ 500
  /-- The file has a single stream, and there is no audio stream line. -/
  noAudio : ∀ nbStreams ∈ FormatValue.nbStreams.inOutput p ffProbeOutput, nbStreams < 2 →
    StreamType.audio.inOutput p ffProbeOutput = none → plan.audio = 0
  audio : StreamType.audio.inOutput p ffProbeOutput ≠ none → 6 ≤ plan.audio ∧ plan.audio ≤ 32

/-- The audio bitrate before it is multiplied, in terms of what is in the output: it is the one that
was found, or 128 if there is no video bitrate either, or what the video bitrate leaves. -/
def audioBeforeTarget (p : Platform) (ffProbeOutput : Text) : ℤ :=
  let audio := (StreamType.audio.inOutput p ffProbeOutput).getD (-1)
  let video := (StreamType.video.inOutput p ffProbeOutput).getD (-1)
  let duration := (FormatValue.duration.inOutput p ffProbeOutput).getD 0
  let size := (FormatValue.size.inOutput p ffProbeOutput).getD 0
  if 0 < audio then audio
  else if 0 < video then truncated (deducedKiloBitRate video (truncated duration) (truncated size))
  else 128

/-- **The condition**: the values of the format are smaller than `2 ^ 31`; if the duration is less
than a second then both bitrates were found; and multiplied by the target, the audio bitrate is at
least 1 if there is an audio stream line, and less than 1 if there is none and only one stream. -/
structure PlansUsably (p : Platform) (ffProbeOutput : Text) (target : PercentTarget) : Prop where
  format : ∀ line ∈ sections false (linesOf ffProbeOutput), ∀ value : FormatValue,
    ∀ q ∈ value.onLine p line, q < 2 ^ 31
  duration : ∀ q ∈ FormatValue.duration.inOutput p ffProbeOutput, q < 1 →
    ∀ streamType : StreamType, 0 < (streamType.inOutput p ffProbeOutput).getD (-1)
  audio : StreamType.audio.inOutput p ffProbeOutput ≠ none →
    1 ≤ |(audioBeforeTarget p ffProbeOutput : ℚ)| * target.value
  noAudio : ∀ nbStreams ∈ FormatValue.nbStreams.inOutput p ffProbeOutput, nbStreams < 2 →
    StreamType.audio.inOutput p ffProbeOutput = none →
    |(audioBeforeTarget p ffProbeOutput : ℚ)| * target.value < 1

/-! ## Conversions -/

lemma truncated_of_nonneg {q : ℚ} (h : 0 ≤ q) : truncated q = ⌊q⌋ := if_pos h

/-- A `double` between two `int`s can be converted. -/
lemma fitsInInt_of_abs_lt {q : ℚ} (h : |q| < 2 ^ 31) : FitsInInt q := by
  obtain ⟨hlow, hhigh⟩ := abs_lt.1 h
  unfold FitsInInt IsInt truncated
  split_ifs with hq
  · have hfloor : ⌊q⌋ < 2 ^ 31 := Int.floor_lt.2 (by push_cast; exact hhigh)
    have hnonneg : 0 ≤ ⌊q⌋ := Int.floor_nonneg.2 hq
    omega
  · have hceil : -(2 ^ 31) < ⌈q⌉ := Int.lt_ceil.2 (by push_cast; linarith)
    have hneg : ⌈q⌉ ≤ 0 := Int.ceil_le.2 (by push_cast; exact (not_le.1 hq).le)
    omega

lemma fitsInInt_iff_of_pos {q : ℚ} (h : 0 < q) : FitsInInt q ↔ q < 2 ^ 31 := by
  unfold FitsInInt IsInt
  rw [truncated_of_nonneg h.le]
  have hnonneg : 0 ≤ ⌊q⌋ := Int.floor_nonneg.2 h.le
  constructor
  · rintro ⟨-, hlt⟩
    have hq := Int.floor_lt.1 hlt
    push_cast at hq
    exact hq
  · intro hlt
    refine ⟨by omega, Int.floor_lt.2 ?_⟩
    push_cast
    exact hlt

/-- What becomes of a number by truncating is 0 for those that are smaller than 1. -/
lemma truncated_eq_zero_iff {q : ℚ} : truncated q = 0 ↔ |q| < 1 := by
  unfold truncated
  split_ifs with hq
  · rw [Int.floor_eq_zero_iff, Set.mem_Ico, abs_of_nonneg hq]
    exact and_iff_right hq
  · have hneg := not_le.1 hq
    rw [Int.ceil_eq_zero_iff, Set.mem_Ioc, abs_of_neg hneg]
    constructor
    · rintro ⟨hlow, -⟩
      linarith
    · intro hlow
      exact ⟨by linarith, hneg.le⟩

lemma convertToInt_of_fits {q : ℚ} (h : FitsInInt q) : p.convertToInt q = truncated q := if_pos h

lemma isInt_convertToInt (p : Platform) (q : ℚ) : IsInt (p.convertToInt q) := by
  unfold Platform.convertToInt
  split_ifs with h
  · exact h
  · exact (p.outOfRange q).2

/-! ## What the loop does with a line -/

/-- A line has one value at most. -/
lemma key_unique {value value' : FormatValue} {line : Text} (h : value.key <+: line)
    (h' : value'.key <+: line) : value = value' := by
  have hprefix := List.prefix_or_prefix_of_prefix h h'
  revert hprefix
  cases value <;> cases value' <;> decide

lemma onLine_of_ne {value value' : FormatValue} {inFormatSection : Bool} {line : Text}
    (h : value.key <+: line) (hne : value' ≠ value) :
    value'.onLine p (inFormatSection, line) = none :=
  if_neg fun hand => hne (key_unique hand.2 h)

/-- **What a line does to the variables of the loop.** -/
inductive LineRead (p : Platform) (s : Probe) (line : Bool × Text) : Probe → Prop
  /-- There is no value on the line. -/
  | other (inFormatSection : Bool) (hformat : ∀ value : FormatValue, value.onLine p line = none)
      (hstream : ∀ streamType : StreamType, streamType.onLine p line = none) :
      LineRead p s line { s with inFormatSection := inFormatSection }
  | format (value : FormatValue) (q : ℚ) (honLine : value.onLine p line = some q)
      (hothers : ∀ value', value' ≠ value → value'.onLine p line = none)
      (hstream : ∀ streamType : StreamType, streamType.onLine p line = none)
      (hunread : s.format value = -1) (hpos : 0 < q) :
      LineRead p s line
        { s with
          format := Function.update s.format value (p.convertToInt q)
          convertedToInt := s.convertedToInt ++ [q] }
  | stream (streamType : StreamType) (bitrate : ℤ)
      (honLine : streamType.onLine p line = some bitrate)
      (hothers : ∀ streamType', streamType' ≠ streamType → streamType'.onLine p line = none)
      (hformat : ∀ value : FormatValue, value.onLine p line = none)
      (hunread : s.ret streamType = -1) :
      LineRead p s line { s with ret := Function.update s.ret streamType bitrate }

variable {s s' : Probe} {line : Text}

lemma lineRead_of_readFormatValue (hsection : s.inFormatSection = true) {value : FormatValue}
    (hkey : value.key <+: line) (h : s.readFormatValue p value line = some s') :
    LineRead p s (s.inFormatSection, line) s' := by
  unfold Probe.readFormatValue at h
  by_cases hunread : s.format value = -1
  · rw [if_neg (not_not.2 hunread)] at h
    by_cases hna : contains line "N/A".toList = true
    · rw [if_pos hna] at h
      exact absurd h nofun
    · rw [if_neg hna] at h
      by_cases hpos : getValueFromOutputLine p line ≤ 0
      · simp only [if_pos hpos] at h
        exact absurd h nofun
      · simp only [if_neg hpos] at h
        obtain rfl := Option.some.inj h
        have hnot : ∀ streamType : StreamType,
            streamType.onLine p (s.inFormatSection, line) = none := fun streamType =>
          if_neg fun hand => Bool.false_ne_true (hand.1.symm.trans hsection)
        exact .format value _ (if_pos ⟨hsection, hkey⟩) (fun value' hne => onLine_of_ne hkey hne)
          hnot hunread (not_le.1 hpos)
  · rw [if_pos hunread] at h
    exact absurd h nofun

/-- The name of a stream type is the one or the other. -/
lemma name_ne : StreamType.audio.name ≠ StreamType.video.name := by decide

/-- A stream line, by the parts of it. -/
lemma onLine_of_parts (hkey : "Stream #".toList <+: line) {first second name streamInfo : Text}
    {rest : List Text}
    (hparts : splitSkippingEmptyParts ':' line = first :: second :: name :: streamInfo :: rest)
    (streamType : StreamType) :
    streamType.onLine p (false, line) =
      if p.toLower (trimmed name) = streamType.name then
        some (streamBitrate p streamType streamInfo)
      else none := by
  unfold StreamType.onLine
  rw [if_pos ⟨rfl, hkey⟩]
  simp only [hparts]

lemma lineRead_of_readStream (hsection : s.inFormatSection = false)
    (hkey : "Stream #".toList <+: line) {first second name streamInfo : Text} {rest : List Text}
    (hparts : splitSkippingEmptyParts ':' line = first :: second :: name :: streamInfo :: rest)
    {streamType : StreamType} (hname : p.toLower (trimmed name) = streamType.name)
    (h : s.readStream p streamType streamInfo = some s') :
    LineRead p s (s.inFormatSection, line) s' := by
  have hformat : ∀ value : FormatValue, value.onLine p (s.inFormatSection, line) = none :=
    fun value => if_neg fun hand => Bool.false_ne_true (hsection.symm.trans hand.1)
  unfold Probe.readStream at h
  by_cases hunread : s.ret streamType = -1
  · rw [if_pos hunread] at h
    obtain rfl := Option.some.inj h
    refine .stream streamType _ ?_ (fun streamType' hne => ?_) hformat hunread
    · rw [hsection, onLine_of_parts hkey hparts, if_pos hname]
    · rw [hsection, onLine_of_parts hkey hparts, hname]
      refine if_neg fun hsame => hne ?_
      cases streamType' <;> cases streamType
      · rfl
      · exact absurd hsame.symm name_ne
      · exact absurd hsame name_ne
      · rfl
  · rw [if_neg hunread] at h
    exact absurd h nofun

lemma lineRead_of_readStreamLine (hsection : s.inFormatSection = false)
    (hkey : "Stream #".toList <+: line) (h : s.readStreamLine p line = some s') :
    LineRead p s (s.inFormatSection, line) s' := by
  unfold Probe.readStreamLine at h
  split at h
  · next first second name streamInfo rest hparts =>
      by_cases haudio : p.toLower (trimmed name) = StreamType.audio.name
      · simp only [if_pos haudio] at h
        exact lineRead_of_readStream hsection hkey hparts haudio h
      · simp only [if_neg haudio] at h
        by_cases hvideo : p.toLower (trimmed name) = StreamType.video.name
        · rw [if_pos hvideo] at h
          exact lineRead_of_readStream hsection hkey hparts hvideo h
        · rw [if_neg hvideo] at h
          obtain rfl := Option.some.inj h
          refine .other s.inFormatSection (fun value => ?_) fun streamType => ?_
          · exact if_neg fun hand => Bool.false_ne_true (hsection.symm.trans hand.1)
          · rw [hsection, onLine_of_parts hkey hparts]
            cases streamType with
            | audio => exact if_neg haudio
            | video => exact if_neg hvideo
  · exact absurd h nofun

/-- **The inversion of `readLine`.** -/
lemma lineRead_of_readLine (h : s.readLine p line = some s') :
    LineRead p s (s.inFormatSection, trimmed line) s' := by
  unfold Probe.readLine at h
  cases hsection : s.inFormatSection with
  | true =>
      have hstream : ∀ streamType : StreamType,
          streamType.onLine p (true, trimmed line) = none := fun streamType =>
        if_neg fun hand => Bool.false_ne_true hand.1.symm
      simp only [hsection, if_true] at h
      split_ifs at h with hend hnbStreams hduration hsize
      · obtain rfl := Option.some.inj h
        refine .other false (fun value => if_neg fun hand => ?_) hstream
        rw [hend] at hand
        cases value <;> exact absurd hand.2 (by decide)
      · exact hsection ▸ lineRead_of_readFormatValue hsection hnbStreams h
      · exact hsection ▸ lineRead_of_readFormatValue hsection hduration h
      · exact hsection ▸ lineRead_of_readFormatValue hsection hsize h
      · obtain rfl := Option.some.inj h
        refine .other s.inFormatSection (fun value => if_neg fun hand => ?_) hstream
        cases value with
        | nbStreams => exact hnbStreams hand.2
        | duration => exact hduration hand.2
        | size => exact hsize hand.2
  | false =>
      have hformat : ∀ value : FormatValue, value.onLine p (false, trimmed line) = none :=
        fun value => if_neg fun hand => Bool.false_ne_true hand.1
      simp only [hsection, Bool.false_eq_true, if_false] at h
      split_ifs at h with hbegin hstream
      · obtain rfl := Option.some.inj h
        refine .other true hformat fun streamType => if_neg fun hand => ?_
        rw [hbegin] at hand
        exact absurd hand.2 (by decide)
      · exact hsection ▸ lineRead_of_readStreamLine hsection hstream h
      · obtain rfl := Option.some.inj h
        exact .other s.inFormatSection hformat fun streamType => if_neg fun hand => hstream hand.2

/-! ## The section of a line -/

lemma inFormatSection_readFormatValue {value : FormatValue}
    (h : s.readFormatValue p value line = some s') :
    s'.inFormatSection = s.inFormatSection := by
  unfold Probe.readFormatValue at h
  simp only at h
  split_ifs at h
  obtain rfl := Option.some.inj h
  rfl

lemma inFormatSection_readStream {streamType : StreamType} {streamInfo : Text}
    (h : s.readStream p streamType streamInfo = some s') :
    s'.inFormatSection = s.inFormatSection := by
  unfold Probe.readStream at h
  split_ifs at h
  obtain rfl := Option.some.inj h
  rfl

lemma inFormatSection_readStreamLine (h : s.readStreamLine p line = some s') :
    s'.inFormatSection = s.inFormatSection := by
  unfold Probe.readStreamLine at h
  split at h
  · next first second name streamInfo rest hparts =>
      simp only at h
      split_ifs at h
      · exact inFormatSection_readStream h
      · exact inFormatSection_readStream h
      · obtain rfl := Option.some.inj h
        rfl
  · exact absurd h nofun

lemma inFormatSection_readLine (h : s.readLine p line = some s') :
    s'.inFormatSection =
      if s.inFormatSection then decide (trimmed line ≠ "[/FORMAT]".toList)
      else decide (trimmed line = "[FORMAT]".toList) := by
  unfold Probe.readLine at h
  cases hsection : s.inFormatSection with
  | true =>
      simp only [hsection, if_true] at h ⊢
      by_cases hend : trimmed line = "[/FORMAT]".toList
      · rw [if_pos hend] at h
        obtain rfl := Option.some.inj h
        exact (decide_eq_false (not_not.2 hend)).symm
      · rw [if_neg hend] at h
        rw [decide_eq_true hend, ← hsection]
        split_ifs at h
        · exact inFormatSection_readFormatValue h
        · exact inFormatSection_readFormatValue h
        · exact inFormatSection_readFormatValue h
        · obtain rfl := Option.some.inj h
          rfl
  | false =>
      simp only [hsection, Bool.false_eq_true, if_false] at h ⊢
      by_cases hbegin : trimmed line = "[FORMAT]".toList
      · rw [if_pos hbegin] at h
        obtain rfl := Option.some.inj h
        exact (decide_eq_true hbegin).symm
      · rw [if_neg hbegin] at h
        rw [decide_eq_false hbegin, ← hsection]
        split_ifs at h
        · exact inFormatSection_readStreamLine h
        · obtain rfl := Option.some.inj h
          rfl

/-! ## The whole loop -/

variable {lines : List Text}

/-- The first line goes first. -/
lemma exists_of_loop_cons (h : (line :: lines).foldlM (Probe.readLine p) s = some s') :
    ∃ s₁, LineRead p s (s.inFormatSection, trimmed line) s₁ ∧
      lines.foldlM (Probe.readLine p) s₁ = some s' ∧
      sections s.inFormatSection (line :: lines) =
        (s.inFormatSection, trimmed line) :: sections s₁.inFormatSection lines := by
  rw [List.foldlM_cons] at h
  obtain ⟨s₁, hread, hrest⟩ := Option.bind_eq_some_iff.1 h
  refine ⟨s₁, lineRead_of_readLine hread, hrest, ?_⟩
  rw [inFormatSection_readLine hread]
  rfl

/-- All values of the format are positive, and all of them are converted. -/
lemma mem_convertedToInt_of_loop (h : lines.foldlM (Probe.readLine p) s = some s') :
    (∀ e ∈ sections s.inFormatSection lines, ∀ value : FormatValue,
      ∀ q ∈ value.onLine p e, 0 < q) ∧
    ∀ q, q ∈ s'.convertedToInt ↔ q ∈ s.convertedToInt ∨
      ∃ e ∈ sections s.inFormatSection lines, ∃ value : FormatValue, q ∈ value.onLine p e := by
  induction lines generalizing s with
  | nil =>
      obtain rfl : s = s' := Option.some.inj h
      exact ⟨fun e he => absurd he List.not_mem_nil, fun q => by simp [sections]⟩
  | cons line lines ih =>
      obtain ⟨s₁, hread, hrest, hsections⟩ := exists_of_loop_cons h
      obtain ⟨hpos, hmem⟩ := ih hrest
      rw [hsections]
      have hhead : (∀ value : FormatValue, ∀ q ∈ value.onLine p (s.inFormatSection, trimmed line),
          0 < q) ∧ ∀ q, q ∈ s₁.convertedToInt ↔ q ∈ s.convertedToInt ∨
            ∃ value : FormatValue, q ∈ value.onLine p (s.inFormatSection, trimmed line) := by
        cases hread with
        | other inFormatSection hformat hstream => simp [hformat]
        | format value q honLine hothers hstream hunread hq =>
            have hall : ∀ (value' : FormatValue) (r : ℚ),
                r ∈ value'.onLine p (s.inFormatSection, trimmed line) →
                  value' = value ∧ r = q := by
              intro value' r hr
              by_cases hsame : value' = value
              · subst hsame
                exact ⟨rfl, Option.some.inj (hr.symm.trans honLine)⟩
              · rw [hothers value' hsame] at hr
                exact absurd hr nofun
            refine ⟨fun value' r hr => (hall value' r hr).2 ▸ hq, fun r => ?_⟩
            rw [List.mem_append, List.mem_singleton]
            refine or_congr Iff.rfl ⟨fun hr => ⟨value, hr ▸ honLine⟩, ?_⟩
            rintro ⟨value', hr⟩
            exact (hall value' r hr).2
        | stream streamType bitrate honLine hothers hformat hunread => simp [hformat]
      refine ⟨List.forall_mem_cons.2 ⟨hhead.1, hpos⟩, fun q => ?_⟩
      rw [hmem, hhead.2, or_assoc]
      refine or_congr Iff.rfl ?_
      simp only [List.mem_cons, exists_eq_or_imp]

/-- **A variable that is set once** has the value of the first line that has one. -/
lemma slot_of_loop {slot : Probe → ℤ} {onLine : Bool × Text → Option ℤ}
    (hstep : ∀ {s s' e}, LineRead p s e s' →
      (∀ v, onLine e = some v → slot s = -1 ∧ slot s' = v) ∧
      (onLine e = none → slot s' = slot s))
    (h : lines.foldlM (Probe.readLine p) s = some s')
    (hne : ∀ e ∈ sections s.inFormatSection lines, onLine e ≠ some (-1)) :
    slot s' = ((sections s.inFormatSection lines).findSome? onLine).getD (slot s) ∧
      (slot s ≠ -1 → (sections s.inFormatSection lines).findSome? onLine = none) := by
  induction lines generalizing s with
  | nil =>
      obtain rfl : s = s' := Option.some.inj h
      exact ⟨rfl, fun _ => rfl⟩
  | cons line lines ih =>
      obtain ⟨s₁, hread, hrest, hsections⟩ := exists_of_loop_cons h
      rw [hsections] at hne ⊢
      obtain ⟨hhead, hlater⟩ := List.forall_mem_cons.1 hne
      obtain ⟨hvalue, hset⟩ := ih hrest hlater
      cases honLine : onLine (s.inFormatSection, trimmed line) with
      | none =>
          rw [List.findSome?_cons_of_isNone (by rw [honLine]; rfl)]
          rw [(hstep hread).2 honLine] at hvalue hset
          exact ⟨hvalue, hset⟩
      | some v =>
          obtain ⟨hunread, hv⟩ := (hstep hread).1 v honLine
          have hv' : slot s₁ ≠ -1 := by
            intro hminus
            rw [hv] at hminus
            exact hhead (honLine.trans (congrArg some hminus))
          rw [List.findSome?_cons, honLine]
          refine ⟨?_, fun hset => absurd hunread hset⟩
          rw [hvalue, hset hv', hv]
          rfl

lemma format_step (value : FormatValue) {e : Bool × Text} (h : LineRead p s e s') :
    (∀ v, (value.onLine p e).map p.convertToInt = some v →
      s.format value = -1 ∧ s'.format value = v) ∧
    ((value.onLine p e).map p.convertToInt = none → s'.format value = s.format value) := by
  cases h with
  | other inFormatSection hformat hstream =>
      rw [hformat]
      exact ⟨fun v hv => absurd hv nofun, fun _ => rfl⟩
  | format value' q honLine hothers hstream hunread hpos =>
      by_cases hsame : value = value'
      · subst hsame
        rw [honLine]
        refine ⟨fun v hv => ⟨hunread, ?_⟩, nofun⟩
        exact (Function.update_self value _ s.format).trans (Option.some.inj hv)
      · rw [hothers value hsame]
        exact ⟨fun v hv => absurd hv nofun, fun _ => Function.update_of_ne hsame _ s.format⟩
  | stream streamType bitrate honLine hothers hformat hunread =>
      rw [hformat]
      exact ⟨fun v hv => absurd hv nofun, fun _ => rfl⟩

lemma ret_step (streamType : StreamType) {e : Bool × Text} (h : LineRead p s e s') :
    (∀ v, streamType.onLine p e = some v → s.ret streamType = -1 ∧ s'.ret streamType = v) ∧
    (streamType.onLine p e = none → s'.ret streamType = s.ret streamType) := by
  cases h with
  | other inFormatSection hformat hstream =>
      rw [hstream]
      exact ⟨fun v hv => absurd hv nofun, fun _ => rfl⟩
  | format value q honLine hothers hstream hunread hpos =>
      rw [hstream]
      exact ⟨fun v hv => absurd hv nofun, fun _ => rfl⟩
  | stream streamType' bitrate honLine hothers hformat hunread =>
      by_cases hsame : streamType = streamType'
      · subst hsame
        rw [honLine]
        refine ⟨fun v hv => ⟨hunread, ?_⟩, nofun⟩
        exact (Function.update_self streamType _ s.ret).trans (Option.some.inj hv)
      · rw [hothers streamType hsame]
        exact ⟨fun v hv => absurd hv nofun, fun _ => Function.update_of_ne hsame _ s.ret⟩

/-- A bitrate was parsed, or it is -2. -/
lemma streamBitrate_cases (p : Platform) (streamType : StreamType) (streamInfo : Text) :
    IsInt (streamBitrate p streamType streamInfo) ∧
      (0 < streamBitrate p streamType streamInfo ∨ streamBitrate p streamType streamInfo = -2) := by
  have hnone : IsInt (-2) ∧ ((0 : ℤ) < -2 ∨ (-2 : ℤ) = -2) := by decide
  have hparsed : ∀ text, IsInt
        (parsedBitrateCheckForKbsStringAndGreaterThanZero_or_NegativeTwo p text) ∧
      (0 < parsedBitrateCheckForKbsStringAndGreaterThanZero_or_NegativeTwo p text ∨
        parsedBitrateCheckForKbsStringAndGreaterThanZero_or_NegativeTwo p text = -2) := by
    intro text
    unfold parsedBitrateCheckForKbsStringAndGreaterThanZero_or_NegativeTwo
    simp only
    split_ifs
    · split
      · next bitrateMaybe hbitrate =>
          split_ifs with hpos
          · rw [toInt, Option.filter_eq_some_iff] at hbitrate
            exact ⟨of_decide_eq_true hbitrate.2, .inl hpos⟩
          · exact hnone
      · exact hnone
    · exact hnone
    · exact hnone
  unfold streamBitrate
  simp only
  split_ifs
  · exact hparsed _
  · exact hnone

lemma onLine_cases {streamType : StreamType} {e : Bool × Text} {bitrate : ℤ}
    (h : streamType.onLine p e = some bitrate) :
    IsInt bitrate ∧ (0 < bitrate ∨ bitrate = -2) := by
  unfold StreamType.onLine at h
  split_ifs at h
  split at h
  · split_ifs at h
    obtain rfl := Option.some.inj h
    exact streamBitrate_cases p streamType _
  · exact absurd h nofun

/-! ## The variables after the loop -/

variable {ffProbeOutput : Text}

/-- The loop has come to its end at `s`. -/
def IsRead (p : Platform) (ffProbeOutput : Text) (s : Probe) : Prop :=
  (linesOf ffProbeOutput).foldlM (Probe.readLine p) {} = some s

/-- No value of the format is too large. -/
def FormatFits (p : Platform) (ffProbeOutput : Text) : Prop :=
  ∀ e ∈ sections false (linesOf ffProbeOutput), ∀ value : FormatValue,
    ∀ q ∈ value.onLine p e, q < 2 ^ 31

namespace IsRead

lemma exists_onLine {streamType : StreamType} {bitrate : ℤ}
    (h : streamType.inOutput p ffProbeOutput = some bitrate) :
    IsInt bitrate ∧ (0 < bitrate ∨ bitrate = -2) := by
  obtain ⟨e, -, honLine⟩ := List.exists_of_findSome?_eq_some h
  exact onLine_cases honLine

lemma ret_eq (h : IsRead p ffProbeOutput s) (streamType : StreamType) :
    s.ret streamType = (streamType.inOutput p ffProbeOutput).getD (-1) := by
  refine (slot_of_loop (fun hread => ret_step streamType hread) h fun e _ honLine => ?_).1
  exact absurd (onLine_cases honLine).2 (by decide)

lemma isInt_ret (h : IsRead p ffProbeOutput s) (streamType : StreamType) :
    IsInt (s.ret streamType) := by
  rw [h.ret_eq]
  cases hfound : streamType.inOutput p ffProbeOutput with
  | none => exact (by decide : IsInt (-1))
  | some bitrate => exact (exists_onLine hfound).1

/-- Everything converted so far fits if and only if no value is too large. -/
lemma fitsInInt_iff (h : IsRead p ffProbeOutput s) :
    (∀ q ∈ s.convertedToInt, FitsInInt q) ↔ FormatFits p ffProbeOutput := by
  obtain ⟨hpos, hmem⟩ := mem_convertedToInt_of_loop h
  constructor
  · intro hfits e he value q hq
    have hconverted : q ∈ s.convertedToInt := (hmem q).2 (.inr ⟨e, he, value, hq⟩)
    exact (fitsInInt_iff_of_pos (hpos e he value q hq)).1 (hfits q hconverted)
  · intro hformat q hq
    rcases (hmem q).1 hq with hnil | ⟨e, he, value, hvalue⟩
    · exact absurd hnil List.not_mem_nil
    · exact (fitsInInt_iff_of_pos (hpos e he value q hvalue)).2 (hformat e he value q hvalue)

lemma pos_of_mem (h : IsRead p ffProbeOutput s) {value : FormatValue} {q : ℚ}
    (hq : q ∈ value.inOutput p ffProbeOutput) : 0 < q := by
  obtain ⟨e, he, honLine⟩ := List.exists_of_findSome?_eq_some hq
  exact (mem_convertedToInt_of_loop h).1 e he value q honLine

lemma lt_of_mem (hformat : FormatFits p ffProbeOutput) {value : FormatValue} {q : ℚ}
    (hq : q ∈ value.inOutput p ffProbeOutput) : q < 2 ^ 31 := by
  obtain ⟨e, he, honLine⟩ := List.exists_of_findSome?_eq_some hq
  exact hformat e he value q honLine

/-- The values of the format without what is behind the point. -/
lemma format_eq (h : IsRead p ffProbeOutput s) (hformat : FormatFits p ffProbeOutput)
    (value : FormatValue) :
    s.format value = ((value.inOutput p ffProbeOutput).map fun q => ⌊q⌋).getD (-1) := by
  have hconvert : ∀ e ∈ sections false (linesOf ffProbeOutput), ∀ q ∈ value.onLine p e,
      p.convertToInt q = ⌊q⌋ := by
    intro e he q hq
    have hpos := (mem_convertedToInt_of_loop h).1 e he value q hq
    rw [convertToInt_of_fits ((fitsInInt_iff_of_pos hpos).2 (hformat e he value q hq)),
      truncated_of_nonneg hpos.le]
  have hslot := (slot_of_loop (fun hread => format_step value hread) h fun e he honLine => ?_).1
  · rw [hslot]
    have hfind : (sections false (linesOf ffProbeOutput)).findSome?
        (fun e => (value.onLine p e).map p.convertToInt) =
        (value.inOutput p ffProbeOutput).map p.convertToInt :=
      (List.map_findSome? ..).symm
    show (List.findSome? _ (sections false (linesOf ffProbeOutput))).getD (-1) = _
    rw [hfind]
    cases hfound : value.inOutput p ffProbeOutput with
    | none => rfl
    | some q =>
        obtain ⟨e, he, honLine⟩ := List.exists_of_findSome?_eq_some hfound
        exact hconvert e he q honLine
  · obtain ⟨q, hq, hminus⟩ := Option.map_eq_some_iff.1 honLine
    rw [hconvert e he q hq] at hminus
    have hpos := (mem_convertedToInt_of_loop h).1 e he value q hq
    have hnonneg : 0 ≤ ⌊q⌋ := Int.floor_nonneg.2 hpos.le
    omega

end IsRead

/-! ## Guesses -/

variable {known audio video durationInSeconds sizeBytes : ℤ}

/-- What the file needs in a second, less what is known. -/
lemma abs_deducedKiloBitRate_lt (hpos : 0 < known) (hknown : known < 2 ^ 31)
    (hduration : 0 < durationInSeconds) (hsize : 0 ≤ sizeBytes) (hlt : sizeBytes < 2 ^ 31) :
    |deducedKiloBitRate known durationInSeconds sizeBytes| < 2 ^ 31 := by
  have hpos : (0 : ℚ) < known := by exact_mod_cast hpos
  have hknown : (known : ℚ) < 2 ^ 31 := by exact_mod_cast hknown
  have hduration : (1 : ℚ) ≤ durationInSeconds := by exact_mod_cast hduration
  have hsize : (0 : ℚ) ≤ sizeBytes := by exact_mod_cast hsize
  have hlt : (sizeBytes : ℚ) < 2 ^ 31 := by exact_mod_cast hlt
  have hrate : (0 : ℚ) ≤ sizeBytes / durationInSeconds := by positivity
  have hrate' : (sizeBytes : ℚ) / durationInSeconds ≤ sizeBytes := div_le_self hsize hduration
  have hdeduced : deducedKiloBitRate known durationInSeconds sizeBytes =
      sizeBytes / durationInSeconds / 128 - known := by
    unfold deducedKiloBitRate
    ring
  rw [hdeduced, abs_lt]
  constructor <;> linarith

/-- What is guessed, in terms of which bitrates are missing. -/
lemma guessAnyValueMissing_eq (p : Platform) (audio video durationInSeconds sizeBytes : ℤ) :
    guessAnyValueMissing p audio video durationInSeconds sizeBytes =
      (if 0 < audio then .known audio
        else if 0 < video then
          guessMissingKiloBitRateBasedOn_KnownKiloBitRate_Duration_and_SizeBytes p video
            durationInSeconds sizeBytes
        else .known 128,
      if 0 < video then .known video
        else guessMissingKiloBitRateBasedOn_KnownKiloBitRate_Duration_and_SizeBytes p
          (if 0 < audio then audio else 128) durationInSeconds sizeBytes) := by
  unfold guessAnyValueMissing
  by_cases haudio : 0 < audio <;> by_cases hvideo : 0 < video <;>
    simp [haudio, hvideo, not_le.2, not_lt.1]

/-- Without a division by zero a guess is what the file needs, and fits. -/
lemma guess_of_duration (p : Platform) (hpos : 0 < known) (hknown : known < 2 ^ 31)
    (hduration : 0 < durationInSeconds) (hsize : 0 ≤ sizeBytes) (hlt : sizeBytes < 2 ^ 31) :
    guessMissingKiloBitRateBasedOn_KnownKiloBitRate_Duration_and_SizeBytes p known
        durationInSeconds sizeBytes =
      ⟨truncated (deducedKiloBitRate known durationInSeconds sizeBytes),
        [deducedKiloBitRate known durationInSeconds sizeBytes], false⟩ ∧
      FitsInInt (deducedKiloBitRate known durationInSeconds sizeBytes) := by
  have hfits := fitsInInt_of_abs_lt
    (abs_deducedKiloBitRate_lt hpos hknown hduration hsize hlt)
  refine ⟨?_, hfits⟩
  unfold guessMissingKiloBitRateBasedOn_KnownKiloBitRate_Duration_and_SizeBytes
  rw [if_neg hduration.ne']
  simp only [convertToInt_of_fits hfits]

lemma isInt_guess (p : Platform) (known durationInSeconds sizeBytes : ℤ) :
    IsInt (guessMissingKiloBitRateBasedOn_KnownKiloBitRate_Duration_and_SizeBytes p known
      durationInSeconds sizeBytes).kiloBitRate := by
  unfold guessMissingKiloBitRateBasedOn_KnownKiloBitRate_Duration_and_SizeBytes
  split_ifs
  · exact p.quotientByZero.2
  · exact isInt_convertToInt p _

/-- An `int` times the target fits. -/
lemma fitsInInt_mul {kiloBitRate : ℤ} (h : IsInt kiloBitRate) (target : PercentTarget) :
    FitsInInt (kiloBitRate * target.value) := by
  apply fitsInInt_of_abs_lt
  have hbound : |(kiloBitRate : ℚ)| ≤ 2 ^ 31 := by
    obtain ⟨hlow, hhigh⟩ := h
    have hlow : -(2 ^ 31 : ℚ) ≤ kiloBitRate := by exact_mod_cast hlow
    have hhigh : (kiloBitRate : ℚ) < 2 ^ 31 := by exact_mod_cast hhigh
    exact abs_le.2 ⟨hlow, hhigh.le⟩
  rw [abs_mul, abs_of_pos target.pos]
  calc |(kiloBitRate : ℚ)| * target.value ≤ 2 ^ 31 * target.value :=
        mul_le_mul_of_nonneg_right hbound target.pos.le
    _ < 2 ^ 31 * 1 := mul_lt_mul_of_pos_left target.lt_one (by norm_num)
    _ = 2 ^ 31 := mul_one _

lemma clampedAudio_range (h : audio ≠ 0) : 6 ≤ clampedAudio audio ∧ clampedAudio audio ≤ 32 := by
  unfold clampedAudio
  rw [if_neg h]
  exact ⟨le_min (le_max_right _ _) (by decide), min_le_right _ _⟩

lemma clampedVideo_range (video : ℤ) : 20 ≤ clampedVideo video ∧ clampedVideo video ≤ 500 :=
  ⟨le_min (le_max_right _ _) (by decide), min_le_right _ _⟩

/-- It is divided by zero when the duration is zero. -/
lemma guess_of_duration_zero (p : Platform) (known sizeBytes : ℤ) :
    guessMissingKiloBitRateBasedOn_KnownKiloBitRate_Duration_and_SizeBytes p known 0 sizeBytes =
      ⟨p.quotientByZero, [], true⟩ :=
  if_pos rfl

/-- **What is guessed**: it is not divided by zero if the duration is not zero or nothing is
missing, and then everything fits. -/
lemma guesses_facts (p : Platform) (haudio : IsInt audio) (hvideo : IsInt video)
    (hduration : 0 ≤ durationInSeconds) (hsize : 0 ≤ sizeBytes) (hlt : sizeBytes < 2 ^ 31)
    {guesses : Guess × Guess}
    (hguesses : guesses = guessAnyValueMissing p audio video durationInSeconds sizeBytes) :
    ((guesses.1.dividedByZero || guesses.2.dividedByZero) = false ↔
      (durationInSeconds = 0 → 0 < audio ∧ 0 < video)) ∧
    ((durationInSeconds = 0 → 0 < audio ∧ 0 < video) →
      guesses.1.kiloBitRate =
        (if 0 < audio then audio
          else if 0 < video then
            truncated (deducedKiloBitRate video durationInSeconds sizeBytes)
          else 128) ∧
      ∀ q ∈ guesses.1.convertedToInt ++ guesses.2.convertedToInt, FitsInInt q) ∧
    IsInt guesses.1.kiloBitRate ∧ IsInt guesses.2.kiloBitRate := by
  rw [guessAnyValueMissing_eq] at hguesses
  rcases hduration.eq_or_lt with rfl | hpos
  · rw [guess_of_duration_zero, guess_of_duration_zero] at hguesses
    by_cases ha : 0 < audio <;> by_cases hv : 0 < video <;>
      simp [hguesses, ha, hv, Guess.known, haudio, hvideo, p.quotientByZero.2]
    decide
  · have hne : durationInSeconds ≠ 0 := hpos.ne'
    by_cases hv : 0 < video
    · obtain ⟨hguess, hfits⟩ := guess_of_duration p hv hvideo.2 hpos hsize hlt
      have hint := isInt_guess p video durationInSeconds sizeBytes
      simp only [if_pos hv, hguess] at hguesses hint
      by_cases ha : 0 < audio <;>
        simp [hguesses, ha, hv, hne, Guess.known, haudio, hvideo, hint, hfits]
    · by_cases ha : 0 < audio
      · obtain ⟨hguess, hfits⟩ := guess_of_duration p ha haudio.2 hpos hsize hlt
        have hint := isInt_guess p audio durationInSeconds sizeBytes
        simp only [if_pos ha, if_neg hv, hguess] at hguesses hint
        simp [hguesses, ha, hne, Guess.known, haudio, hint, hfits]
      · have h128 : IsInt 128 := by decide
        obtain ⟨hguess, hfits⟩ :=
          guess_of_duration p (by decide : (0 : ℤ) < 128) h128.2 hpos hsize hlt
        have hint := isInt_guess p 128 durationInSeconds sizeBytes
        simp only [if_neg ha, if_neg hv, hguess] at hguesses hint
        simp [hguesses, ha, hv, hne, Guess.known, h128, hint, hfits]

/-! ## The plan -/

variable {target : PercentTarget} {plan : BitratePlan}

/-- What was read when it is not an error. -/
lemma exists_isRead (h : calculateOrGuessNewAudioAndVideoBitrates p ffProbeOutput target =
    some plan) :
    ∃ s, IsRead p ffProbeOutput s ∧ s.plan p target = some plan :=
  Option.bind_eq_some_iff.1 h

/-- The plan, in terms of the guesses. -/
lemma plan_eq (h : s.plan p target = some plan) :
    0 ≤ s.format .duration ∧ 1 ≤ s.format .nbStreams ∧ 0 ≤ s.format .size ∧
    ∃ audio guesses,
      audio = (if s.ret .audio ≤ 0 ∧ s.format .nbStreams < 2 then 0 else s.ret .audio) ∧
      guesses = guessAnyValueMissing p audio (s.ret .video) (s.format .duration)
        (s.format .size) ∧
      plan =
        { audio := clampedAudio (p.convertToInt (guesses.1.kiloBitRate * target.value))
          video := clampedVideo (p.convertToInt (guesses.2.kiloBitRate * target.value))
          convertedToInt := s.convertedToInt ++ guesses.1.convertedToInt ++
            guesses.2.convertedToInt ++
            [guesses.1.kiloBitRate * target.value, guesses.2.kiloBitRate * target.value]
          dividedByZero := guesses.1.dividedByZero || guesses.2.dividedByZero } := by
  unfold Probe.plan at h
  by_cases hinvalid : s.format .duration < 0 ∨ s.format .nbStreams < 1 ∨ s.format .size < 0
  · rw [if_pos hinvalid] at h
    exact absurd h nofun
  · rw [if_neg hinvalid] at h
    simp only [not_or, not_lt] at hinvalid
    exact ⟨hinvalid.1, hinvalid.2.1, hinvalid.2.2, _, _, rfl, rfl, (Option.some.inj h).symm⟩

lemma IsRead.exists_of_nonneg (h : IsRead p ffProbeOutput s)
    (hformat : FormatFits p ffProbeOutput) {value : FormatValue}
    (hnonneg : 0 ≤ s.format value) :
    ∃ q, value.inOutput p ffProbeOutput = some q ∧ s.format value = ⌊q⌋ ∧ 0 < q ∧ q < 2 ^ 31 := by
  have hvalue := h.format_eq hformat value
  cases hfound : value.inOutput p ffProbeOutput with
  | none =>
      rw [hvalue, hfound] at hnonneg
      exact absurd hnonneg (by decide)
  | some q =>
      rw [hfound] at hvalue
      exact ⟨q, rfl, hvalue, h.pos_of_mem hfound, IsRead.lt_of_mem hformat hfound⟩

/-- The audio bitrate that the plan starts from. -/
lemma IsRead.audioBeforeTarget_eq (h : IsRead p ffProbeOutput s)
    (hformat : FormatFits p ffProbeOutput) (hduration : 0 ≤ s.format .duration)
    (hsize : 0 ≤ s.format .size) :
    audioBeforeTarget p ffProbeOutput =
      if 0 < s.ret .audio then s.ret .audio
      else if 0 < s.ret .video then
        truncated (deducedKiloBitRate (s.ret .video) (s.format .duration) (s.format .size))
      else 128 := by
  obtain ⟨qduration, hfound, hvalue, hpos, -⟩ := h.exists_of_nonneg hformat hduration
  obtain ⟨qsize, hfound', hvalue', hpos', -⟩ := h.exists_of_nonneg hformat hsize
  unfold audioBeforeTarget
  rw [hfound, hfound', h.ret_eq, h.ret_eq, hvalue, hvalue']
  simp only [Option.getD_some, truncated_of_nonneg hpos.le, truncated_of_nonneg hpos'.le]

/-- The duration that was read is zero if and only if the one of the output is less than a
second. -/
lemma IsRead.duration_iff (h : IsRead p ffProbeOutput s) (hformat : FormatFits p ffProbeOutput)
    (hduration : 0 ≤ s.format .duration) :
    (s.format .duration = 0 → 0 < s.ret .audio ∧ 0 < s.ret .video) ↔
      ∀ q ∈ FormatValue.duration.inOutput p ffProbeOutput, q < 1 →
        ∀ streamType : StreamType, 0 < (streamType.inOutput p ffProbeOutput).getD (-1) := by
  obtain ⟨q, hfound, hvalue, hpos, -⟩ := h.exists_of_nonneg hformat hduration
  have hzero : ⌊q⌋ = 0 ↔ q < 1 := by
    rw [Int.floor_eq_zero_iff, Set.mem_Ico]
    exact and_iff_right hpos.le
  rw [hvalue, hzero, h.ret_eq, h.ret_eq, hfound]
  constructor
  · intro hboth q' hq' hlt streamType
    obtain rfl := Option.some.inj hq'
    cases streamType with
    | audio => exact (hboth hlt).1
    | video => exact (hboth hlt).2
  · intro hall hlt
    exact ⟨hall q rfl hlt .audio, hall q rfl hlt .video⟩

/-- The returned audio bitrate, by the one before the target. -/
lemma clampedAudio_convertToInt {kiloBitRate : ℤ} (h : IsInt kiloBitRate) (p : Platform)
    (target : PercentTarget) :
    (clampedAudio (p.convertToInt (kiloBitRate * target.value)) = 0 ↔
      |(kiloBitRate : ℚ)| * target.value < 1) ∧
    (6 ≤ clampedAudio (p.convertToInt (kiloBitRate * target.value)) ∧
        clampedAudio (p.convertToInt (kiloBitRate * target.value)) ≤ 32 ↔
      1 ≤ |(kiloBitRate : ℚ)| * target.value) := by
  have hzero : truncated (kiloBitRate * target.value) = 0 ↔
      |(kiloBitRate : ℚ)| * target.value < 1 := by
    rw [truncated_eq_zero_iff, abs_mul, abs_of_pos target.pos]
  rw [convertToInt_of_fits (fitsInInt_mul h target), ← not_lt (a := |(kiloBitRate : ℚ)| * _),
    ← hzero]
  by_cases hz : truncated (kiloBitRate * target.value) = 0
  · rw [hz]
    decide
  · have hrange := clampedAudio_range hz
    refine ⟨⟨fun h0 => ?_, fun h0 => absurd h0 hz⟩, fun _ => hz, fun _ => hrange⟩
    rw [h0] at hrange
    exact absurd hrange.1 (by decide)

/-- **The planned bitrates are usable if and only if** the condition holds.

The bitrates are handed to ffmpeg as they are, and one that is 0 or negative makes the conversion
fail.  The outputs from which no plan comes are what the hypothesis leaves out. -/
theorem bitratesUsable_iff (p : Platform) (ffProbeOutput : Text) (target : PercentTarget)
    (plan : BitratePlan)
    (h : calculateOrGuessNewAudioAndVideoBitrates p ffProbeOutput target = some plan) :
    BitratesUsable p ffProbeOutput plan ↔ PlansUsably p ffProbeOutput target := by
  obtain ⟨s, hread, hplan⟩ := exists_isRead h
  obtain ⟨hduration, hnbStreams, hsize, audio, guesses, haudio, hguesses, rfl⟩ := plan_eq hplan
  by_cases hformat : FormatFits p ffProbeOutput
  · -- the single-stream rule only takes away a bitrate that was not found
    have hsame : (0 < audio ↔ 0 < s.ret .audio) ∧ (0 < s.ret .audio → audio = s.ret .audio) := by
      rw [haudio]
      split_ifs with hnone
      · exact ⟨⟨fun hpos => absurd hpos (lt_irrefl 0), fun hpos => absurd hpos (not_lt.2 hnone.1)⟩,
          fun hpos => absurd hpos (not_lt.2 hnone.1)⟩
      · exact ⟨Iff.rfl, fun _ => rfl⟩
    have hint : IsInt audio := by
      rw [haudio]
      split_ifs
      · exact (by decide : IsInt 0)
      · exact hread.isInt_ret .audio
    obtain ⟨qsize, -, hqsize, -, hqsizelt⟩ := hread.exists_of_nonneg hformat hsize
    have hsizelt : s.format .size < 2 ^ 31 := by
      rw [hqsize]
      exact Int.floor_lt.2 (by push_cast; exact hqsizelt)
    obtain ⟨hzero, hfacts, hintAudio, hintVideo⟩ := guesses_facts p hint (hread.isInt_ret .video)
      hduration hsize hsizelt hguesses
    have hboth : (s.format .duration = 0 → 0 < audio ∧ 0 < s.ret .video) ↔
        ∀ q ∈ FormatValue.duration.inOutput p ffProbeOutput, q < 1 →
          ∀ streamType : StreamType, 0 < (streamType.inOutput p ffProbeOutput).getD (-1) := by
      rw [hsame.1]
      exact hread.duration_iff hformat hduration
    have hbefore : (s.format .duration = 0 → 0 < audio ∧ 0 < s.ret .video) →
        guesses.1.kiloBitRate = audioBeforeTarget p ffProbeOutput := by
      intro hgood
      rw [(hfacts hgood).1, hread.audioBeforeTarget_eq hformat hduration hsize]
      by_cases hpos : 0 < s.ret .audio
      · rw [if_pos hpos, if_pos (hsame.1.2 hpos), hsame.2 hpos]
      · rw [if_neg hpos, if_neg fun hpos' => hpos (hsame.1.1 hpos')]
    obtain ⟨hsilent, hheard⟩ := clampedAudio_convertToInt hintAudio p target
    constructor
    · intro husable
      have hgood := hzero.1 husable.notDividedByZero
      refine ⟨hformat, hboth.1 hgood, fun hfound => ?_, fun nbStreams hnb hlt hnone => ?_⟩
      · rw [← hbefore hgood]
        exact hheard.1 (husable.audio hfound)
      · rw [← hbefore hgood]
        exact hsilent.1 (husable.noAudio nbStreams hnb hlt hnone)
    · intro hplans
      have hgood := hboth.2 hplans.duration
      have hnoAudio := hplans.noAudio
      have haudioFound := hplans.audio
      rw [← hbefore hgood] at hnoAudio haudioFound
      refine ⟨hzero.2 hgood, fun q hq => ?_, clampedVideo_range _,
        fun nbStreams hnb hlt hnone => ?_, fun hfound => ?_⟩
      · simp only [List.mem_append, List.mem_cons, List.not_mem_nil, or_false] at hq
        rcases hq with ((hq | hq) | hq) | rfl | rfl
        · exact hread.fitsInInt_iff.2 hformat q hq
        · exact (hfacts hgood).2 q (List.mem_append_left _ hq)
        · exact (hfacts hgood).2 q (List.mem_append_right _ hq)
        · exact fitsInInt_mul hintAudio target
        · exact fitsInInt_mul hintVideo target
      · exact hsilent.2 (hnoAudio nbStreams hnb hlt hnone)
      · exact hheard.2 (haudioFound hfound)
  · constructor
    · intro husable
      refine absurd (hread.fitsInInt_iff.1 fun q hq => husable.fitsInInt q ?_) hformat
      exact List.mem_append_left _ (List.mem_append_left _ (List.mem_append_left _ hq))
    · intro hplans
      exact absurd hplans.format hformat

/-- Conversions as they are on x86, and numbers as they are in the outputs below. -/
def x86 : Platform where
  toLower := List.map Char.toLower
  toDouble text :=
    if text = "0.500000".toList then some (1 / 2) else (digits text).map fun n => (n : ℚ)
  outOfRange _ := ⟨-2 ^ 31, by decide⟩
  quotientByZero := ⟨-2 ^ 31, by decide⟩

def half : PercentTarget := ⟨1 / 2, by norm_num, by norm_num⟩

def twoStreams : Text :=
  joinLines (["Stream #0:0: Video: h264, yuv420p, 640x480, 500 kb/s, 25 fps",
    "Stream #0:1: Audio: aac, 44100 Hz, stereo, fltp, 128 kb/s",
    "[FORMAT]", "nb_streams=2", "duration=10", "size=1000000", "[/FORMAT]"].map String.toList)

theorem bitratesUsable_iff_twoStreams :
    BitratesUsable x86 twoStreams ⟨32, 250, [2, 10, 1000000, 64, 250], false⟩ ↔
      PlansUsably x86 twoStreams half :=
  bitratesUsable_iff x86 twoStreams half _ (by decide +kernel)

/-- Half a second of video. -/
def halfASecond : Text :=
  joinLines (["[FORMAT]", "nb_streams=1", "duration=0.500000", "size=1000",
    "[/FORMAT]"].map String.toList)

/-- It is divided by zero. -/
theorem not_bitratesUsable_halfASecond :
    ¬ ∀ p ffProbeOutput target plan,
      calculateOrGuessNewAudioAndVideoBitrates p ffProbeOutput target = some plan →
        BitratesUsable p ffProbeOutput plan := by
  intro h
  have hplan : (calculateOrGuessNewAudioAndVideoBitrates x86 halfASecond half).map
      BitratePlan.dividedByZero = some true := by
    decide +kernel
  obtain ⟨plan, hsome, hzero⟩ := Option.map_eq_some_iff.1 hplan
  exact Bool.false_ne_true ((h x86 halfASecond half plan hsome).notDividedByZero.symm.trans hzero)

end Autobackup.LossyCopier
