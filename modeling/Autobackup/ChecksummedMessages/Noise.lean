import Autobackup.ChecksummedMessages.RoundTrip

/-!
# A message behind noise

Noise without a comma is read past: it only goes to the header buffer, and `SYNC,` ends whatever is
in there.  Noise with a comma is read past only if the delivery is cut after the last one.  Without
a cut there the control flow falls through, the `SYNC` of the message is taken for the checksum of
a size, and the header of the message is over before the reader looks for `SYNC` again.

That the message is then not emitted needs an argument about lengths.  A message that is emitted
has the checksum its header named, which is 32 bytes long; `credit` counts what of such a header
and message a position has read, and `length_le_of_mem_readAll` bounds by it how long a message can
be that is still to come.

Noise is what a line picks up before the sender has begun.  It must not have a whole `SYNC,` in it,
since what follows that is a header for every reader.  The message is any one with bytes in it that
fits into an `int`.
-/

namespace Autobackup.ChecksummedMessages

namespace Position

variable {checksum : List Byte → List Byte} {toInt : List Byte → Option ℤ}

/-! ## How long the messages are that can still come -/

/-- What was read of the checksum of some data, of its comma and of the data. -/
def credit : Position → ℕ
  | .looping _ => 0
  | .reading _ r =>
      (if r.messageHeaderReader.state = .readingChecksumOfData then
        1 + r.messageHeaderReader.messageHeaderBuffer.length else 0) +
      if r.haveReadMessageHeader ∧
        r.messageHeaderReader.parsedMessageChecksum.length = sizeOfLargestHeaderComponent then
        2 + sizeOfLargestHeaderComponent + r.messageBuffer.length else 0

lemma length_append_messageHeaderBuffer_le (h : HeaderReader) (b : Byte) :
    (h.append b).messageHeaderBuffer.length ≤ h.messageHeaderBuffer.length + 1 := by
  simp only [HeaderReader.append]
  split <;> simp

lemma messageHeaderBuffer_takeSizeOfData {h : HeaderReader}
    (hstate : (h.takeSizeOfData checksum toInt).state = .readingChecksumOfData) :
    (h.takeSizeOfData checksum toInt).messageHeaderBuffer = [] := by
  cases hsize : toInt h.messageHeaderBuffer with
  | none =>
      rw [HeaderReader.takeSizeOfData_of_none hsize] at hstate
      exact absurd hstate (by simp)
  | some size => simp [HeaderReader.takeSizeOfData, hsize]

lemma credit_of_ne {r : Reader} (hr : r.haveReadMessageHeader = false) (f : Bool)
    (hstate : r.messageHeaderReader.state ≠ .readingChecksumOfData) :
    (reading f r).credit = 0 := by
  simp [credit, hr, hstate]

/-- A comma in the header. -/
lemma credit_endComponent_le {r : Reader} (hr : r.haveReadMessageHeader = false) (f : Bool) :
    (endComponent checksum toInt f r).credit ≤ (reading f r).credit + 1 := by
  obtain ⟨h, hh⟩ : ∃ h, r.messageHeaderReader = h := ⟨_, rfl⟩
  simp only [endComponent, hh]
  split
  · next hstate =>
      rw [credit_of_ne (by exact hr)]
      · exact Nat.zero_le _
      · simp only [HeaderReader.lookForSync, Reader.withHeader_messageHeaderReader, hstate]
        split <;> simp
  · rw [credit_of_ne (by exact hr) false (by simp [HeaderReader.takeChecksumOfSizeOfData])]
    exact Nat.zero_le _
  · rw [credit_of_ne (by exact hr) false (by simp [HeaderReader.takeChecksumOfSizeOfData])]
    exact Nat.zero_le _
  · -- the header failed, or the next component is the checksum of the data
    rcases h.takeSizeOfData_state checksum toInt with hlooking | hreading
    · rw [credit_of_ne (by exact hr) false (by simp [hlooking])]
      exact Nat.zero_le _
    · have hbuffer := messageHeaderBuffer_takeSizeOfData hreading
      simp [credit, hr, hreading, hbuffer]
  · next hstate =>
      by_cases hlength : h.messageHeaderBuffer.length = sizeOfLargestHeaderComponent
      · simp [credit, Reader.startMessage, HeaderReader.takeChecksumOfData, hh, hstate, hlength]
        omega
      · simp [credit, Reader.startMessage, HeaderReader.takeChecksumOfData, hlength]

variable (checksum toInt) in
lemma credit_step_le (p : Position) (b : Byte) :
    (step checksum toInt p b).1.credit ≤ p.credit + 1 := by
  cases p with
  | looping r => simp [step_looping, credit]
  | reading f r =>
      cases hr : r.haveReadMessageHeader with
      | true =>
          by_cases hleft : 1 ≤ r.numBytesOfMessageLeft
          · rw [step_message hr hleft, messageByte]
            split
            · simp [credit, Reader.messageRead]
              omega
            · simp only [credit, hr, true_and, List.length_append, List.length_singleton]
              split_ifs <;> omega
          · rw [step_stuck hr (Int.not_le.1 hleft)]
            exact Nat.zero_le _
      | false =>
          by_cases hb : b = comma
          · subst hb
            rw [step_comma hr]
            exact credit_endComponent_le hr f
          · rw [step_header hr f hb]
            have := length_append_messageHeaderBuffer_le r.messageHeaderReader b
            by_cases hstate : r.messageHeaderReader.state = .readingChecksumOfData
            · simp [credit, hr, hstate]
              omega
            · simp [credit, hr, hstate]

/-- A message that is emitted has used up what was read of it. -/
lemma length_le_of_step_eq
    (hchecksum : ∀ data, (checksum data).length = sizeOfLargestHeaderComponent)
    {p : Position} {b : Byte} {message : List Byte}
    (h : (step checksum toInt p b).2 = some message) :
    message.length + (1 + sizeOfLargestHeaderComponent) ≤ p.credit := by
  cases p with
  | looping r => exact absurd h (by simp [step_looping])
  | reading f r =>
      cases hr : r.haveReadMessageHeader with
      | true =>
          by_cases hleft : 1 ≤ r.numBytesOfMessageLeft
          · rw [step_message hr hleft, messageByte] at h
            split at h
            · rw [Reader.messageRead, Option.ite_none_right_eq_some] at h
              obtain ⟨hvalid, hmessage⟩ := h
              have hparsed : r.messageHeaderReader.parsedMessageChecksum.length =
                  sizeOfLargestHeaderComponent := by
                rw [← of_decide_eq_true hvalid, hchecksum]
              rw [← Option.some.inj hmessage]
              simp [credit, hr, hparsed]
              omega
            · exact absurd h (by simp)
          · rw [step_stuck hr (Int.not_le.1 hleft)] at h
            exact absurd h (by simp)
      | false =>
          by_cases hb : b = comma
          · subst hb
            rw [step_comma hr] at h
            exact absurd h (by simp)
          · rw [step_header hr f hb] at h
            exact absurd h (by simp)

/-- **How long the messages are.** -/
lemma length_le_of_mem_readAll
    (hchecksum : ∀ data, (checksum data).length = sizeOfLargestHeaderComponent)
    {p : Position} {bytes message : List Byte}
    (h : message ∈ (readAll (step checksum toInt) p bytes).2) :
    message.length + (2 + sizeOfLargestHeaderComponent) ≤ bytes.length + p.credit := by
  induction bytes generalizing p with
  | nil => exact absurd h (by simp)
  | cons b bytes ih =>
      rw [readAll_cons, List.mem_append, Option.mem_toList] at h
      rw [List.length_cons]
      rcases h with hnow | hlater
      · have := length_le_of_step_eq hchecksum hnow
        omega
      · have hstep := credit_step_le checksum toInt p b
        have := ih hlater
        omega

/-! ## Falling through in front of a message -/

/-- A component that is too short for the checksum of data, where a size was to come next. -/
lemma credit_endComponent_eq_zero {r : Reader} {h : HeaderReader}
    (hr : r.haveReadMessageHeader = false)
    (hstate : h.state = .lookingForSync ∨ h.state = .readingChecksumOfData ∧
      h.messageHeaderBuffer.length < sizeOfLargestHeaderComponent) :
    (endComponent checksum toInt false (r.withHeader h)).credit = 0 := by
  rcases hstate with hstate | ⟨hstate, hlength⟩
  · rw [endComponent_lookingForSync hstate]
    refine credit_of_ne (by exact hr) _ ?_
    simp only [Reader.withHeader_messageHeaderReader, HeaderReader.lookForSync, hstate]
    split <;> simp
  · rw [endComponent_readingChecksumOfData hstate]
    simp [credit, Reader.startMessage, HeaderReader.takeChecksumOfData, Nat.ne_of_lt hlength]

/-- The reader has fallen through: `SYNC` is the checksum of a size, the checksum of the size is
the size, and whatever comes of that, nothing of a header for the message was read when the size
has been. -/
lemma notMem_of_fellThrough (hcompatible : Compatible checksum toInt) {r : Reader}
    (hr : r.haveReadMessageHeader = false)
    (hstate : r.messageHeaderReader.state = .lookingForSync)
    {noise data : List Byte} (hnoise : comma ∉ noise) (hdata : data.length < 2 ^ 31) :
    data ∉ (readAll (step checksum toInt) (.reading true r)
      (noise ++ sendMessage checksum data)).2 := by
  have hsend : noise ++ sendMessage checksum data =
      (noise ++ SYNC) ++ [comma] ++ ((checksum (number data.length) ++ [comma]) ++
          ((number data.length ++ [comma]) ++ (checksum data ++ comma :: data))) := by
    simp [sendMessage]
  have hcomma : comma ∉ noise ++ SYNC := by
    rw [List.mem_append, not_or]
    exact ⟨hnoise, by decide⟩
  -- the checksum of a size
  rw [hsend, readAll_append_of_eq _ (readAll_component_comma hr true hcomma),
    endComponent_readingChecksumOfSizeOfData
      (.inr ⟨by rw [HeaderReader.appendAll_state, hstate], rfl⟩)]
  -- the size
  generalize hh : (r.messageHeaderReader.appendAll (noise ++ SYNC)).takeChecksumOfSizeOfData = h
  have hreading : h.state = .readingSizeOfData := by rw [← hh]; rfl
  have hbuffer : h.messageHeaderBuffer = [] := by rw [← hh]; rfl
  rw [readAll_append_of_eq _ (readAll_component_comma (by exact hr) false
      (hcompatible.comma_notMem_checksum (number data.length))),
    Reader.withHeader_withHeader, Reader.withHeader_messageHeaderReader,
    endComponent_readingSizeOfData (by rw [HeaderReader.appendAll_state, hreading])]
  -- the checksum of the data, or a component without `SYNC`
  generalize hh' : (h.appendAll (checksum (number data.length))).takeSizeOfData checksum toInt = h'
  have hstate' : h'.state = .lookingForSync ∨
      h'.state = .readingChecksumOfData ∧ h'.messageHeaderBuffer = [] := by
    rw [← hh']
    exact (HeaderReader.takeSizeOfData_state _ checksum toInt).imp_right fun h =>
      ⟨h, messageHeaderBuffer_takeSizeOfData h⟩
  rw [readAll_append_of_eq _ (readAll_component_comma (by exact hr) false
      (comma_notMem_number data.length)),
    Reader.withHeader_withHeader, Reader.withHeader_messageHeaderReader]
  have hcredit : (endComponent checksum toInt false
      (r.withHeader (h'.appendAll (number data.length)))).credit = 0 := by
    refine credit_endComponent_eq_zero hr (hstate'.imp (by simp) fun h => ⟨by simp [h.1], ?_⟩)
    have hlength := length_number_le hdata
    rw [appendAll_of_empty h.2 (Nat.le_trans hlength (by decide))]
    exact Nat.lt_of_le_of_lt hlength (by decide)
  intro hmem
  have hlength := length_le_of_mem_readAll hcompatible.length_checksum hmem
  rw [hcredit, List.length_append, List.length_cons, hcompatible.length_checksum] at hlength
  omega

lemma append_messageHeaderBuffer_suffix {h : HeaderReader} {before : List Byte}
    (hbuffer : h.messageHeaderBuffer <:+ before) (b : Byte) :
    (h.append b).messageHeaderBuffer <:+ before ++ [b] := by
  have happend : h.messageHeaderBuffer ++ [b] <:+ before ++ [b] :=
    List.suffix_append_self_iff.2 hbuffer
  simp only [HeaderReader.append]
  split
  · exact (List.drop_suffix 1 _).trans happend
  · exact happend

/-- A comma in the noise. -/
lemma step_comma_noise {r : Reader} (hr : r.haveReadMessageHeader = false)
    (hstate : r.messageHeaderReader.state = .lookingForSync) {before bytes : List Byte}
    (hbuffer : r.messageHeaderReader.messageHeaderBuffer <:+ before)
    (hsync : ¬ SYNC ++ [comma] <:+: before ++ comma :: bytes) :
    step checksum toInt (.reading false r) comma =
      (.reading true (r.withHeader { r.messageHeaderReader with messageHeaderBuffer := [] }),
        none) := by
  have hnoSync : ¬ SYNC <:+ r.messageHeaderReader.messageHeaderBuffer := by
    intro h
    have hend : SYNC ++ [comma] <:+ before ++ [comma] :=
      List.suffix_append_self_iff.2 (h.trans hbuffer)
    rw [List.append_cons before comma bytes] at hsync
    exact hsync (hend.isInfix.trans (List.prefix_append _ _).isInfix)
  rw [step_comma hr, show endComponent checksum toInt false r = _ from
    endComponent_lookingForSync hstate]
  simp [HeaderReader.lookForSync, hnoSync]

variable (checksum toInt) in
/-- Bytes that are delivered one by one, without `SYNC,` among them. -/
lemma readDeliveries_oneByOne {r : Reader} (hr : r.haveReadMessageHeader = false)
    (hstate : r.messageHeaderReader.state = .lookingForSync) {before bytes : List Byte}
    (hbuffer : r.messageHeaderReader.messageHeaderBuffer <:+ before)
    (hsync : ¬ SYNC ++ [comma] <:+: before ++ bytes) :
    ∃ r', readDeliveries (step checksum toInt) settle (.reading false r) (bytes.map ([·])) =
        (.reading false r', []) ∧
      r'.haveReadMessageHeader = false ∧ r'.messageHeaderReader.state = .lookingForSync ∧
      r'.messageHeaderReader.messageHeaderBuffer <:+ before ++ bytes := by
  induction bytes generalizing r before with
  | nil => exact ⟨r, rfl, hr, hstate, by simpa using hbuffer⟩
  | cons b bytes ih =>
      rw [List.append_cons before b bytes] at hsync ⊢
      have hstep : ∃ r₁ f, step checksum toInt (.reading false r) b = (.reading f r₁, none) ∧
          r₁.haveReadMessageHeader = false ∧ r₁.messageHeaderReader.state = .lookingForSync ∧
          r₁.messageHeaderReader.messageHeaderBuffer <:+ before ++ [b] := by
        by_cases hb : b = comma
        · subst hb
          rw [← List.append_cons] at hsync
          exact ⟨_, true, step_comma_noise hr hstate hbuffer hsync, hr, hstate, List.nil_suffix⟩
        · exact ⟨_, false, step_header hr false hb, hr, hstate,
            append_messageHeaderBuffer_suffix hbuffer b⟩
      obtain ⟨r₁, f, hstep, hr₁, hstate₁, hbuffer₁⟩ := hstep
      obtain ⟨r', hread, hr'⟩ := ih hr₁ hstate₁ hbuffer₁ hsync
      refine ⟨r', ?_, hr'⟩
      rw [List.map_cons, readDeliveries, readAll_cons, hstep]
      simp only [readAll_nil, settle_reading, hread]
      rfl

end Position

open Position

lemma exists_last_comma {bytes : List Byte} (h : comma ∈ bytes) :
    ∃ before after, bytes = before ++ comma :: after ∧ comma ∉ after := by
  obtain ⟨after, before, hbytes, hafter⟩ := List.eq_append_cons_of_mem (List.mem_reverse.2 h)
  rw [List.reverse_eq_iff, List.reverse_append, List.reverse_cons, List.append_assoc,
    List.singleton_append] at hbytes
  exact ⟨before.reverse, after.reverse, hbytes, by rwa [List.mem_reverse]⟩

/-- **Resynchronising.**  Behind noise without `SYNC,` the message is emitted, alone and however the
bytes arrive, exactly when there is no comma in the noise.

The quantifier over the deliveries is inside: with a comma in the noise there are cuts with which
the message is emitted, and others with which it is not.  The necessary direction gives the latter,
which is the delivery in one piece. -/
theorem emits_message_iff {checksum : List Byte → List Byte} {toInt : List Byte → Option ℤ}
    (hcompatible : Compatible checksum toInt) {r : Reader} (hr : r.InInitialState)
    {noise data : List Byte} (hsync : ¬ SYNC ++ [comma] <:+: noise) (hne : data ≠ [])
    (hdata : data.length < 2 ^ 31) :
    (∀ deliveries : List (List Byte), deliveries.flatten = noise ++ sendMessage checksum data →
        (r.handleReadyReads checksum toInt deliveries).1 = [data]) ↔ comma ∉ noise := by
  constructor
  · intro h hcomma
    -- cut after every byte up to the last comma of the noise, and nowhere behind it
    obtain ⟨before, after, rfl, hafter⟩ := exists_last_comma hcomma
    have hbuffer : r.messageHeaderReader.messageHeaderBuffer <:+ [] :=
      List.suffix_nil.2 hr.messageHeaderBuffer
    have hbefore : ¬ SYNC ++ [comma] <:+: [] ++ before := by
      intro hbefore
      exact hsync (hbefore.trans (List.prefix_append _ _).isInfix)
    obtain ⟨r', hread, hr', hstate', hbuffer'⟩ := readDeliveries_oneByOne checksum toInt
      hr.haveReadMessageHeader hr.state hbuffer hbefore
    have hemits := h (before.map ([·]) ++ [comma :: (after ++ sendMessage checksum data)])
      (by simp [← List.flatMap_def])
    rw [handleReadyReads_eq, readDeliveries_append_of_eq _ _ hread] at hemits
    simp only [readDeliveries, readAll_cons, step_comma_noise hr' hstate' hbuffer' hsync,
      Option.toList_none, List.nil_append, List.append_nil] at hemits
    have hmem := List.mem_singleton_self data
    rw [← hemits] at hmem
    exact notMem_of_fellThrough hcompatible (by exact hr') (by exact hstate') hafter hdata hmem
  · rintro hnoise deliveries hdeliveries
    obtain ⟨r', -, hread, hnever⟩ := reads_sendMessage hcompatible hr.haveReadMessageHeader hr.state
      (by simp [hr.messageHeaderBuffer]) hnoise hne hdata
    have hnever := hnever [] trivial
    rw [List.append_nil] at hnever
    rw [← hdeliveries] at hread hnever
    rw [handleReadyReads_inStep hnever, hread]

/-- `A` behind `x`, cut behind the `SYNC`. -/
theorem emits_message_iff_noComma :
    (Reader.constructed.handleReadyReads zeros toIntOfDigits
      [[120, 83, 89, 78, 67], (sendMessage zeros [65]).drop 4]).1 = [[65]] := by
  have hsync : ¬ SYNC ++ [comma] <:+: [120] := by decide
  have hcomma : comma ∉ ([120] : List Byte) := by decide
  exact (emits_message_iff compatible_zeros Reader.constructed_inInitialState hsync
    (List.cons_ne_nil 65 []) (by decide)).2 hcomma _ rfl

/-- `A` behind `x,`, at a stretch. -/
theorem message_lost_behind_comma :
    ¬ SYNC ++ [comma] <:+: [120, comma] ∧
      (Reader.constructed.handleReadyReads zeros toIntOfDigits
        [[120, comma] ++ sendMessage zeros [65]]).1 = [] := by
  decide +kernel

end Autobackup.ChecksummedMessages
