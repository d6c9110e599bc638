import Autobackup.ChecksummedMessages.ByteByByte

/-!
# Streams the reader stays in step with

When the reader looks for `SYNC` and finds another component, it falls through and takes the next
component for a checksum.  A turn that ends right there makes it look for `SYNC` in that component
instead, so from there on the header fields the reader sees depend on where the deliveries were
cut.  On streams where that never happens before the last comma the cuts do not matter
(`readDeliveries_inStep`), and they do matter as soon as it happens.

`NeverFallsThrough` says this of a position of the byte-by-byte reader.  `StaysInStep` says the
same of the stream alone, component by component; `neverFallsThrough_iff` connects the two.
-/

namespace Autobackup.ChecksummedMessages

/-- What the header buffer keeps of the bytes appended to it. -/
def keep (bytes : List Byte) : List Byte := bytes.drop (bytes.length - sizeOfLargestHeaderComponent)

lemma keep_of_length_le {bytes : List Byte}
    (h : bytes.length ≤ sizeOfLargestHeaderComponent) : keep bytes = bytes := by
  rw [keep, Nat.sub_eq_zero_of_le h, List.drop_zero]

lemma length_keep_le (bytes : List Byte) :
    (keep bytes).length ≤ sizeOfLargestHeaderComponent := by
  rw [keep, List.length_drop]
  omega

lemma keep_keep_append (bytes rest : List Byte) :
    keep (keep bytes ++ rest) = keep (bytes ++ rest) := by
  rcases Nat.le_total bytes.length sizeOfLargestHeaderComponent with hshort | hlong
  · rw [keep_of_length_le hshort]
  · have hdrop : keep bytes ++ rest =
        (bytes ++ rest).drop (bytes.length - sizeOfLargestHeaderComponent) := by
      rw [keep, List.drop_append_of_le_length (Nat.sub_le _ _)]
    rw [hdrop, keep, keep, List.drop_drop, List.length_drop, List.length_append]
    congr 1
    omega

namespace HeaderReader

lemma append_messageHeaderBuffer {h : HeaderReader}
    (hlength : h.messageHeaderBuffer.length ≤ sizeOfLargestHeaderComponent) (b : Byte) :
    (h.append b).messageHeaderBuffer = keep (h.messageHeaderBuffer ++ [b]) := by
  simp only [append, keep, List.length_append, List.length_singleton]
  split
  · rw [show h.messageHeaderBuffer.length + 1 - sizeOfLargestHeaderComponent = 1 by omega]
  · rw [show h.messageHeaderBuffer.length + 1 - sizeOfLargestHeaderComponent = 0 by omega,
      List.drop_zero]

/-- The bytes of a component change nothing but the header buffer. -/
lemma appendAll_eq {h : HeaderReader}
    (hlength : h.messageHeaderBuffer.length ≤ sizeOfLargestHeaderComponent)
    (component : List Byte) :
    h.appendAll component =
      { h with messageHeaderBuffer := keep (h.messageHeaderBuffer ++ component) } := by
  induction component generalizing h with
  | nil => rw [appendAll_nil, List.append_nil, keep_of_length_le hlength]
  | cons b component ih =>
      have hb := append_messageHeaderBuffer hlength b
      rw [appendAll_cons, ih (by rw [hb]; exact length_keep_le _), hb, keep_keep_append,
        List.append_assoc, List.singleton_append]
      rfl

end HeaderReader

/-! ## Never falling through -/

namespace Position

/-- The control flow has fallen through. -/
def FellThrough : Position → Prop
  | .reading fellThrough _ => fellThrough = true
  | .looping _ => False

variable (checksum : List Byte → List Byte) (toInt : List Byte → Option ℤ)

/-- No comma is read after the control flow has fallen through. -/
def NeverFallsThrough : Position → List Byte → Prop
  | _, [] => True
  | p, b :: rest =>
      (p.FellThrough → comma ∉ b :: rest) ∧ NeverFallsThrough (step checksum toInt p b).1 rest

/-- Only the header reader falls through, and its state is still that of looking for `SYNC`. -/
def WellPlaced : Position → Prop
  | .reading fellThrough r => fellThrough = true →
      r.haveReadMessageHeader = false ∧ r.messageHeaderReader.state = .lookingForSync
  | .looping _ => True

variable {checksum toInt}

lemma wellPlaced_reading (r : Reader) : WellPlaced (.reading false r) :=
  fun h => absurd h (by simp)

lemma wellPlaced_step {p : Position} (hp : p.WellPlaced) (b : Byte) :
    (step checksum toInt p b).1.WellPlaced := by
  cases p with
  | looping r => trivial
  | reading f r =>
      cases hr : r.haveReadMessageHeader with
      | true =>
          by_cases hleft : 1 ≤ r.numBytesOfMessageLeft
          · rw [step_message hr hleft, messageByte]
            split
            · exact wellPlaced_reading _
            · exact wellPlaced_reading _
          · rw [step_stuck hr (Int.not_le.1 hleft)]
            trivial
      | false =>
          by_cases hb : b = comma
          · subst hb
            rw [step_comma hr]
            simp only [endComponent]
            split
            · next hstate =>
                intro hsync
                have hsync := of_decide_eq_true hsync
                exact ⟨hr, by simp [HeaderReader.lookForSync, hsync, hstate]⟩
            all_goals exact wellPlaced_reading _
          · rw [step_header hr f hb]
            exact hp

lemma neverFallsThrough_of_no_comma {r : Reader} (hr : r.haveReadMessageHeader = false) (f : Bool)
    {bytes : List Byte} (hcomma : comma ∉ bytes) :
    NeverFallsThrough checksum toInt (.reading f r) bytes := by
  induction bytes generalizing r with
  | nil => trivial
  | cons b bytes ih =>
      have hb : b ≠ comma := fun h => hcomma (by simp [h])
      refine ⟨fun _ => hcomma, ?_⟩
      rw [step_header hr f hb]
      exact ih hr fun h => hcomma (by simp [h])

lemma NeverFallsThrough.of_append {p : Position} {bytes rest : List Byte}
    (h : NeverFallsThrough checksum toInt p (bytes ++ rest)) :
    NeverFallsThrough checksum toInt p bytes := by
  induction bytes generalizing p with
  | nil => trivial
  | cons b bytes ih => exact ⟨fun hp hcomma => h.1 hp (List.mem_append_left rest hcomma), ih h.2⟩

lemma NeverFallsThrough.readAll {p : Position} {bytes rest : List Byte}
    (h : NeverFallsThrough checksum toInt p (bytes ++ rest)) :
    NeverFallsThrough checksum toInt (readAll (step checksum toInt) p bytes).1 rest := by
  induction bytes generalizing p with
  | nil => exact h
  | cons b bytes ih => exact ih h.2

/-- While the reader stands in a component it does not fall through. -/
lemma neverFallsThrough_component {r : Reader} (hr : r.haveReadMessageHeader = false)
    {component rest : List Byte} (hcomma : comma ∉ component) :
    NeverFallsThrough checksum toInt (.reading false r) (component ++ comma :: rest) ↔
      NeverFallsThrough checksum toInt (endComponent checksum toInt false
        (r.withHeader (r.messageHeaderReader.appendAll component))) rest := by
  induction component generalizing r with
  | nil =>
      rw [List.nil_append, NeverFallsThrough, step_comma hr]
      simp [FellThrough]
  | cons b component ih =>
      have hb : b ≠ comma := fun h => hcomma (by simp [h])
      rw [List.cons_append, NeverFallsThrough, step_header hr false hb,
        ih (by exact hr) fun h => hcomma (by simp [h])]
      simp [FellThrough]

/-- After falling through, no comma may come. -/
lemma neverFallsThrough_fellThrough {r : Reader} (hr : r.haveReadMessageHeader = false)
    {bytes : List Byte} :
    NeverFallsThrough checksum toInt (.reading true r) bytes ↔ comma ∉ bytes := by
  constructor
  · intro h
    cases bytes with
    | nil => simp
    | cons b bytes => exact h.1 rfl
  · exact neverFallsThrough_of_no_comma hr true

lemma neverFallsThrough_looping (r : Reader) (bytes : List Byte) :
    NeverFallsThrough checksum toInt (.looping r) bytes := by
  induction bytes with
  | nil => trivial
  | cons b bytes ih => exact ⟨fun h => absurd h (by simp [FellThrough]), ih⟩

/-- The bytes of a message are not looked at. -/
lemma neverFallsThrough_message {r : Reader} (hr : r.haveReadMessageHeader = true)
    (hleft : 1 ≤ r.numBytesOfMessageLeft) {bytes rest : List Byte}
    (hlength : (bytes.length : ℤ) = r.numBytesOfMessageLeft) :
    NeverFallsThrough checksum toInt (.reading false r) (bytes ++ rest) ↔
      NeverFallsThrough checksum toInt
        (readAll (step checksum toInt) (.reading false r) bytes).1 rest := by
  refine ⟨NeverFallsThrough.readAll, fun h => ?_⟩
  induction bytes generalizing r with
  | nil =>
      rw [List.length_nil] at hlength
      omega
  | cons b bytes ih =>
      refine ⟨fun hf => absurd hf (by simp [FellThrough]), ?_⟩
      rw [readAll_cons] at h
      dsimp only at h ⊢
      rw [step_message hr hleft, messageByte] at h ⊢
      rw [List.length_cons] at hlength
      by_cases hlast : r.numBytesOfMessageLeft - 1 < 1
      · rw [if_pos hlast] at h ⊢
        obtain rfl := List.eq_nil_of_length_eq_zero (show bytes.length = 0 by omega)
        exact h
      · rw [if_neg hlast] at h ⊢
        exact ih hr (by simp only; omega) (by simp only; omega) h

lemma neverFallsThrough_message_part {r : Reader} (hr : r.haveReadMessageHeader = true)
    {bytes : List Byte} (hlength : (bytes.length : ℤ) < r.numBytesOfMessageLeft) :
    NeverFallsThrough checksum toInt (.reading false r) bytes := by
  induction bytes generalizing r with
  | nil => trivial
  | cons b bytes ih =>
      rw [List.length_cons] at hlength
      refine ⟨fun hf => absurd hf (by simp [FellThrough]), ?_⟩
      have hmore : ¬ r.numBytesOfMessageLeft - 1 < 1 := by omega
      rw [step_message hr (by omega), messageByte, if_neg hmore]
      exact ih hr (by simp only; omega)

end Position

/-! ## The same of the stream alone -/

/-- From a reader that looks for `SYNC` with `left` in its header buffer: every component it takes
while looking for `SYNC` ends with it, or is the last one.  After `SYNC` come the checksum of the
size and the size; then, if the two agree, the checksum of the data and the data. -/
def StaysInStep (checksum : List Byte → List Byte) (toInt : List Byte → Option ℤ)
    (left bytes : List Byte) : Prop :=
  ∀ sync afterSync, bytes = sync ++ comma :: afterSync → comma ∉ sync →
    if SYNC <:+ keep (left ++ sync) then
      ∀ checksumOfSize afterChecksumOfSize,
        afterSync = checksumOfSize ++ comma :: afterChecksumOfSize → comma ∉ checksumOfSize →
      ∀ size afterSize, afterChecksumOfSize = size ++ comma :: afterSize → comma ∉ size →
        match toInt (keep size) with
        | none => StaysInStep checksum toInt (keep size) afterSize
        | some sizeOfData =>
            if checksum (keep size) ≠ keep checksumOfSize then
              StaysInStep checksum toInt [] afterSize
            else
              ∀ checksumOfData afterHeader, afterSize = checksumOfData ++ comma :: afterHeader →
                comma ∉ checksumOfData → 1 ≤ sizeOfData →
                  StaysInStep checksum toInt [] (afterHeader.drop sizeOfData.toNat)
    else comma ∉ afterSync
termination_by bytes.length
decreasing_by
  all_goals
    subst_vars
    simp only [List.length_append, List.length_cons, List.length_drop]
    omega

namespace Position

variable {checksum : List Byte → List Byte} {toInt : List Byte → Option ℤ}

/-- The position after the first component decides. -/
lemma neverFallsThrough_iff_component {r : Reader} (hr : r.haveReadMessageHeader = false)
    (bytes : List Byte) :
    NeverFallsThrough checksum toInt (.reading false r) bytes ↔
      ∀ component rest, bytes = component ++ comma :: rest → comma ∉ component →
        NeverFallsThrough checksum toInt (endComponent checksum toInt false
          (r.withHeader (r.messageHeaderReader.appendAll component))) rest := by
  constructor
  · rintro h component rest rfl hcomma
    exact (neverFallsThrough_component hr hcomma).1 h
  · intro h
    by_cases hcomma : comma ∈ bytes
    · obtain ⟨component, rest, hbytes, hcomponent⟩ := List.eq_append_cons_of_mem hcomma
      rw [hbytes]
      exact (neverFallsThrough_component hr hcomponent).2 (h component rest hbytes hcomponent)
    · exact neverFallsThrough_of_no_comma hr false hcomma

/-- Once the header was read, only the bytes after the message matter. -/
lemma neverFallsThrough_startMessage {r : Reader} {h : HeaderReader} {messageSize : ℤ}
    {bytes : List Byte} :
    NeverFallsThrough checksum toInt (.reading false (r.startMessage messageSize h)) bytes ↔
      (1 ≤ messageSize → NeverFallsThrough checksum toInt
        (readAll (step checksum toInt) (.reading false (r.startMessage messageSize h))
          (bytes.take messageSize.toNat)).1 (bytes.drop messageSize.toNat)) := by
  by_cases hsize : 1 ≤ messageSize
  · by_cases hlong : messageSize.toNat ≤ bytes.length
    · have hlength : ((bytes.take messageSize.toNat).length : ℤ) = messageSize := by
        rw [List.length_take]
        omega
      have hmessage :
          NeverFallsThrough checksum toInt (.reading false (r.startMessage messageSize h))
            (bytes.take messageSize.toNat ++ bytes.drop messageSize.toNat) ↔ _ :=
        neverFallsThrough_message rfl hsize hlength
      rw [List.take_append_drop] at hmessage
      simp [hmessage, hsize]
    · have hshort : bytes.length ≤ messageSize.toNat := by omega
      rw [List.drop_eq_nil_of_le hshort]
      refine ⟨fun _ _ => trivial, fun _ => neverFallsThrough_message_part rfl ?_⟩
      simp only [Reader.startMessage]
      omega
  · refine ⟨fun _ h => absurd h hsize, fun _ => ?_⟩
    cases bytes with
    | nil => trivial
    | cons b bytes =>
        refine ⟨fun hf => absurd hf (by simp [FellThrough]), ?_⟩
        rw [step_stuck rfl (by simpa [Reader.startMessage] using hsize)]
        exact neverFallsThrough_looping _ _

variable (checksum toInt) in
/-- Where a message ends the reader looks for `SYNC` again, with an empty header buffer. -/
lemma readAll_startMessage {r : Reader} {h : HeaderReader} {messageSize : ℤ} {bytes : List Byte}
    (hsize : 1 ≤ messageSize) (hlength : (bytes.length : ℤ) = messageSize) :
    ∃ r', readAll (step checksum toInt) (.reading false (r.startMessage messageSize h)) bytes =
        (.reading false r', if checksum bytes = h.parsedMessageChecksum then [bytes] else []) ∧
      r'.haveReadMessageHeader = false ∧ r'.messageHeaderReader = h := by
  have hne : bytes ≠ [] := by
    rintro rfl
    rw [List.length_nil] at hlength
    omega
  refine ⟨({ r.startMessage messageSize h with
      messageBuffer := bytes
      numBytesOfMessageLeft := 0 }.messageRead checksum).2,
    (readAll_message rfl hne hlength.symm).trans ?_, rfl, rfl⟩
  simp only [Reader.messageRead, Reader.messageChecksumIsValid, Reader.startMessage,
    List.nil_append]
  by_cases hchecksum : checksum bytes = h.parsedMessageChecksum <;> simp [hchecksum]

/-- After `SYNC` come the checksum of the size and the size. -/
lemma neverFallsThrough_afterSync {r : Reader} {h : HeaderReader}
    (hr : r.haveReadMessageHeader = false) (hstate : h.state = .readingChecksumOfSizeOfData)
    (hbuffer : h.messageHeaderBuffer = []) (bytes : List Byte) :
    NeverFallsThrough checksum toInt (.reading false (r.withHeader h)) bytes ↔
      ∀ checksumOfSize afterChecksumOfSize,
        bytes = checksumOfSize ++ comma :: afterChecksumOfSize → comma ∉ checksumOfSize →
      ∀ size afterSize, afterChecksumOfSize = size ++ comma :: afterSize → comma ∉ size →
        NeverFallsThrough checksum toInt (.reading false (r.withHeader
          (({ h with
              state := .readingSizeOfData
              parsedChecksumOfSizeOfData := keep checksumOfSize
              messageHeaderBuffer := keep size } : HeaderReader).takeSizeOfData checksum toInt)))
          afterSize := by
  rw [neverFallsThrough_iff_component (by exact hr)]
  refine forall₂_congr fun checksumOfSize afterChecksumOfSize =>
    imp_congr_right fun _ => imp_congr_right fun _ => ?_
  rw [endComponent_readingChecksumOfSizeOfData (.inl (by simpa using hstate)),
    neverFallsThrough_iff_component (by exact hr)]
  refine forall₂_congr fun size afterSize => imp_congr_right fun _ => imp_congr_right fun _ => ?_
  rw [endComponent_readingSizeOfData (by simp [HeaderReader.takeChecksumOfSizeOfData]),
    HeaderReader.appendAll_eq (by simp [HeaderReader.takeChecksumOfSizeOfData]) size,
    Reader.withHeader_messageHeaderReader,
    HeaderReader.appendAll_eq (by simp [hbuffer]) checksumOfSize]
  simp [HeaderReader.takeChecksumOfSizeOfData, hbuffer]

/-- After the size come the checksum of the data and the data. -/
lemma neverFallsThrough_afterSize {r : Reader} {h : HeaderReader}
    (hr : r.haveReadMessageHeader = false) (hstate : h.state = .readingChecksumOfData)
    (hbuffer : h.messageHeaderBuffer = []) (bytes : List Byte) (P : List Byte → Prop)
    (hnil : P [])
    (hP : ∀ r' rest, r'.haveReadMessageHeader = false →
      r'.messageHeaderReader.state = .lookingForSync →
      r'.messageHeaderReader.messageHeaderBuffer = [] → rest.length < bytes.length →
      (NeverFallsThrough checksum toInt (.reading false r') rest ↔ P rest)) :
    NeverFallsThrough checksum toInt (.reading false (r.withHeader h)) bytes ↔
      ∀ checksumOfData afterHeader, bytes = checksumOfData ++ comma :: afterHeader →
        comma ∉ checksumOfData → 1 ≤ h.parsedSizeOfData →
          P (afterHeader.drop h.parsedSizeOfData.toNat) := by
  rw [neverFallsThrough_iff_component (by exact hr)]
  refine forall₂_congr fun checksumOfData afterHeader =>
    imp_congr_right fun hbytes => imp_congr_right fun _ => ?_
  rw [endComponent_readingChecksumOfData (by simpa using hstate), neverFallsThrough_startMessage,
    Reader.withHeader_messageHeaderReader, HeaderReader.appendAll_eq (by simp [hbuffer])]
  refine imp_congr_right fun (hsize : 1 ≤ h.parsedSizeOfData) => ?_
  dsimp only
  by_cases hlong : h.parsedSizeOfData.toNat ≤ afterHeader.length
  · have hlength : ((afterHeader.take h.parsedSizeOfData.toNat).length : ℤ) =
        h.parsedSizeOfData := by
      rw [List.length_take]
      omega
    obtain ⟨r', hread, hr', hh'⟩ :=
      readAll_startMessage checksum toInt (r := r.withHeader h) hsize hlength
    rw [hread]
    refine hP r' _ hr' (by rw [hh']; rfl) (by rw [hh']; rfl) ?_
    rw [hbytes, List.length_drop, List.length_append, List.length_cons]
    omega
  · rw [List.drop_eq_nil_of_le (Nat.le_of_not_le hlong)]
    exact iff_of_true trivial hnil

/-- **Staying in step**, for a reader that looks for `SYNC`. -/
theorem neverFallsThrough_iff {r : Reader} (hr : r.haveReadMessageHeader = false)
    (hstate : r.messageHeaderReader.state = .lookingForSync)
    (hlength : r.messageHeaderReader.messageHeaderBuffer.length ≤ sizeOfLargestHeaderComponent)
    (bytes : List Byte) :
    NeverFallsThrough checksum toInt (.reading false r) bytes ↔
      StaysInStep checksum toInt r.messageHeaderReader.messageHeaderBuffer bytes := by
  induction hn : bytes.length using Nat.strong_induction_on generalizing r bytes with
  | _ n ih =>
  -- what the induction hypothesis says once the reader looks for `SYNC` again
  have again (h : HeaderReader) {rest : List Byte} (hrest : rest.length < n)
      (hstate : h.state = .lookingForSync)
      (hlength : h.messageHeaderBuffer.length ≤ sizeOfLargestHeaderComponent) :
      NeverFallsThrough checksum toInt (.reading false (r.withHeader h)) rest ↔
        StaysInStep checksum toInt h.messageHeaderBuffer rest :=
    ih _ hrest (r := r.withHeader h) hr hstate hlength rest rfl
  rw [neverFallsThrough_iff_component hr, StaysInStep]
  refine forall₂_congr fun sync afterSync =>
    imp_congr_right fun hbytes => imp_congr_right fun _ => ?_
  rw [HeaderReader.appendAll_eq hlength, endComponent_lookingForSync (by exact hstate)]
  by_cases hsync : SYNC <:+ keep (r.messageHeaderReader.messageHeaderBuffer ++ sync)
  · rw [if_pos hsync]
    simp only [hsync, HeaderReader.lookForSync, not_true_eq_false, decide_false, if_true]
    rw [neverFallsThrough_afterSync hr rfl rfl]
    refine forall₂_congr fun checksumOfSize afterChecksumOfSize =>
      imp_congr_right fun hafterSync => imp_congr_right fun _ => ?_
    refine forall₂_congr fun size afterSize =>
      imp_congr_right fun hafterChecksum => imp_congr_right fun _ => ?_
    have hshort : afterSize.length < n := by
      rw [← hn, hbytes, hafterSync, hafterChecksum]
      simp only [List.length_append, List.length_cons]
      omega
    cases htoInt : toInt (keep size) with
    | none =>
        rw [HeaderReader.takeSizeOfData_of_none htoInt]
        exact again { .. } hshort rfl (length_keep_le size)
    | some sizeOfData =>
        dsimp only
        by_cases hchecksum : checksum (keep size) ≠ keep checksumOfSize
        · rw [if_pos hchecksum, HeaderReader.takeSizeOfData_of_ne htoInt hchecksum]
          exact again { .. } hshort rfl (Nat.zero_le _)
        · rw [if_neg hchecksum, HeaderReader.takeSizeOfData_of_eq htoInt (not_not.1 hchecksum)]
          refine neverFallsThrough_afterSize hr rfl rfl afterSize _ ?_ ?_
          · rw [StaysInStep]
            simp
          · intro r' rest hr' hstate' hbuffer' hrest
            have := ih _ (Nat.lt_trans hrest hshort) hr' hstate' (by simp [hbuffer']) rest rfl
            rwa [hbuffer'] at this
  · rw [if_neg hsync]
    simp only [hsync, not_false_eq_true, decide_true]
    exact neverFallsThrough_fellThrough (by exact hr)

/-! ## Cuts -/

/-- **In step, cuts do not matter.** -/
theorem handleReadyReads_inStep {r : Reader} {deliveries : List (List Byte)}
    (h : NeverFallsThrough checksum toInt (.reading false r) deliveries.flatten) :
    r.handleReadyReads checksum toInt deliveries =
      ((readAll (step checksum toInt) (.reading false r) deliveries.flatten).2,
        (readAll (step checksum toInt) (.reading false r) deliveries.flatten).1.turn) := by
  -- after falling through no comma is to come, and the bytes only go to the header buffer
  have hfell {p : Position} {rest : List Byte} (hp : p.WellPlaced)
      (h : NeverFallsThrough checksum toInt p rest) :
      p.settle = p ∨ ∃ r, p = .reading true r ∧ r.haveReadMessageHeader = false ∧ comma ∉ rest := by
    match p, hp with
    | .looping r, _ => exact .inl rfl
    | .reading false r, _ => exact .inl rfl
    | .reading true r, hp =>
        have hr := (hp rfl).1
        exact .inr ⟨r, rfl, hr, (neverFallsThrough_fellThrough hr).1 h⟩
  let Good (p : Position) (rest : List Byte) : Prop :=
    p.WellPlaced ∧ NeverFallsThrough checksum toInt p rest
  have hstep (p : Position) (b : Byte) (rest : List Byte) (hgood : Good p (b :: rest)) :
      Good (step checksum toInt p b).1 rest :=
    ⟨wellPlaced_step hgood.1 b, hgood.2.2⟩
  have hsettle (p : Position) (rest : List Byte) (hgood : Good p rest) : Good p.settle rest := by
    rcases hfell hgood.1 hgood.2 with heq | ⟨r, rfl, hr, hcomma⟩
    · rwa [heq]
    · exact ⟨wellPlaced_reading r, neverFallsThrough_of_no_comma hr false hcomma⟩
  have hsame (p : Position) (rest : List Byte) (hgood : Good p rest) :
      (readAll (step checksum toInt) p.settle rest).1.settle =
          (readAll (step checksum toInt) p rest).1.settle ∧
        (readAll (step checksum toInt) p.settle rest).2 =
          (readAll (step checksum toInt) p rest).2 := by
    rcases hfell hgood.1 hgood.2 with heq | ⟨r, rfl, hr, hcomma⟩
    · rw [heq]
      exact ⟨rfl, rfl⟩
    · rw [settle, readAll_component hr false hcomma, readAll_component hr true hcomma]
      exact ⟨rfl, rfl⟩
  have hstart : Good (.reading false r) deliveries.flatten := ⟨wellPlaced_reading r, h⟩
  obtain ⟨hstate, hmessages⟩ := settle_readDeliveries hstep hsettle hsame hstart
  rw [handleReadyReads_eq, hmessages, ← turn_settle, hstate, turn_settle]

/-! ## What leads where -/

/-- The bytes lead from one position to another without a message, and do not fall through. -/
def Leads (checksum : List Byte → List Byte) (toInt : List Byte → Option ℤ) (p : Position)
    (bytes : List Byte) (p' : Position) : Prop :=
  readAll (step checksum toInt) p bytes = (p', []) ∧
    ∀ rest, NeverFallsThrough checksum toInt p' rest →
      NeverFallsThrough checksum toInt p (bytes ++ rest)

lemma Leads.trans {p p' p'' : Position} {bytes bytes' : List Byte}
    (h : Leads checksum toInt p bytes p') (h' : Leads checksum toInt p' bytes' p'') :
    Leads checksum toInt p (bytes ++ bytes') p'' := by
  refine ⟨by rw [readAll_append_of_eq _ h.1, h'.1], fun rest hrest => ?_⟩
  rw [List.append_assoc]
  exact h.2 _ (h'.2 rest hrest)

lemma leads_component {r : Reader} (hr : r.haveReadMessageHeader = false) {component : List Byte}
    (hcomma : comma ∉ component) {p : Position}
    (hend : endComponent checksum toInt false
      (r.withHeader (r.messageHeaderReader.appendAll component)) = p) :
    Leads checksum toInt (.reading false r) (component ++ [comma]) p := by
  subst hend
  refine ⟨readAll_component_comma hr false hcomma, fun rest hrest => ?_⟩
  rw [List.append_assoc, List.singleton_append]
  exact (neverFallsThrough_component hr hcomma).2 hrest

end Position

end Autobackup.ChecksummedMessages
