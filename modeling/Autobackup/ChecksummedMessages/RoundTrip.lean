import Autobackup.ChecksummedMessages.InStep

/-!
# What was sent is read

A message that was sent with a header is read again, whatever it contains: the reader takes the
header apart component by component, each with its comma, and then does not look at the bytes of
the message.  In front of the header there may be noise, as long as there is no comma in it.

The reader never falls through on the way, so `handleReadyReads_inStep` applies: how the bytes
arrive does not matter.

The checksum and the conversion are parameters with one hypothesis (`Compatible`): a checksum has 32
bytes and no comma, and the text of a size is read as that size.  MD5 in hexadecimal digits and
`toInt` are like that.
-/

namespace Autobackup.ChecksummedMessages

/-! ## Numbers -/

lemma toNat_of_mem_toDigits {n : ℕ} {c : Char} (hc : c ∈ Nat.toDigits 10 n) :
    c.toNat.toUInt8.toNat = c.toNat ∧ 48 ≤ c.toNat ∧ c.toNat ≤ 57 := by
  have hdigit := Nat.isDigit_of_mem_toDigits (by decide) (by decide) hc
  obtain ⟨hlow, hhigh⟩ : 48 ≤ c.toNat ∧ c.toNat ≤ 57 := by
    simpa [Char.isDigit, UInt32.le_iff_toNat_le] using hdigit
  have hbyte : c.toNat.toUInt8.toNat = c.toNat := by
    simp only [Nat.toUInt8_eq, UInt8.toNat_ofNat']
    omega
  exact ⟨hbyte, hlow, hhigh⟩

lemma toNat_of_mem_number {n : ℕ} {b : Byte} (hb : b ∈ number n) :
    48 ≤ b.toNat ∧ b.toNat ≤ 57 := by
  obtain ⟨c, hc, rfl⟩ := List.mem_map.1 hb
  obtain ⟨hbyte, hlow, hhigh⟩ := toNat_of_mem_toDigits hc
  omega

lemma comma_notMem_number (n : ℕ) : comma ∉ number n := by
  intro h
  have hdigit := (toNat_of_mem_number h).1
  exact absurd hdigit (by decide)

lemma length_number_le {n : ℕ} (hn : n < 2 ^ 31) : (number n).length ≤ 10 := by
  rw [number, List.length_map, Nat.length_toDigits_le_iff (by decide) (by decide)]
  omega

/-- What the two sides rely on: checksums of 32 bytes without a comma, and the conversion of a
number that was written. -/
structure Compatible (checksum : List Byte → List Byte) (toInt : List Byte → Option ℤ) : Prop where
  length_checksum : ∀ data, (checksum data).length = sizeOfLargestHeaderComponent
  comma_notMem_checksum : ∀ data, comma ∉ checksum data
  toInt_number : ∀ n : ℕ, n < 2 ^ 31 → toInt (number n) = some (n : ℤ)

/-! ## One message -/

lemma suffix_keep_append {bytes component : List Byte}
    (hlength : component.length ≤ sizeOfLargestHeaderComponent) :
    component <:+ keep (bytes ++ component) := by
  rw [keep, List.length_append, List.drop_append_of_le_length (by omega)]
  exact List.suffix_append _ _

namespace Position

variable {checksum : List Byte → List Byte} {toInt : List Byte → Option ℤ}

variable (checksum toInt) in
/-- `SYNC,`, whatever without a comma is in front of it. -/
lemma leads_sync {r : Reader} (hr : r.haveReadMessageHeader = false)
    (hstate : r.messageHeaderReader.state = .lookingForSync)
    (hlength : r.messageHeaderReader.messageHeaderBuffer.length ≤ sizeOfLargestHeaderComponent)
    {noise : List Byte} (hnoise : comma ∉ noise) :
    ∃ h : HeaderReader, h.state = .readingChecksumOfSizeOfData ∧ h.messageHeaderBuffer = [] ∧
      Leads checksum toInt (.reading false r) (noise ++ SYNC ++ [comma])
        (.reading false (r.withHeader h)) := by
  have hcomma : comma ∉ noise ++ SYNC := by
    rw [List.mem_append, not_or]
    exact ⟨hnoise, by decide⟩
  have hlooking : (r.messageHeaderReader.appendAll (noise ++ SYNC)).state = .lookingForSync := by
    rw [HeaderReader.appendAll_state, hstate]
  have hsync : SYNC <:+ (r.messageHeaderReader.appendAll (noise ++ SYNC)).messageHeaderBuffer := by
    rw [HeaderReader.appendAll_eq hlength, ← List.append_assoc]
    exact suffix_keep_append (by decide)
  refine ⟨(r.messageHeaderReader.appendAll (noise ++ SYNC)).lookForSync, ?_, ?_,
    leads_component hr hcomma ?_⟩
  · rw [HeaderReader.lookForSync, if_pos hsync]
  · rfl
  · rw [endComponent_lookingForSync hlooking]
    simp [hsync]

section Component

variable {r : Reader} {h : HeaderReader} {component : List Byte}

/-- What the header buffer is at the comma. -/
lemma appendAll_of_empty (hbuffer : h.messageHeaderBuffer = [])
    (hlength : component.length ≤ sizeOfLargestHeaderComponent) :
    h.appendAll component = { h with messageHeaderBuffer := component } := by
  rw [HeaderReader.appendAll_eq (by simp [hbuffer]), hbuffer, List.nil_append,
    keep_of_length_le hlength]

variable (hr : r.haveReadMessageHeader = false) (hbuffer : h.messageHeaderBuffer = [])
  (hcomma : comma ∉ component) (hlength : component.length ≤ sizeOfLargestHeaderComponent)

include hr hbuffer hcomma hlength

variable (checksum toInt) in
lemma leads_checksumOfSize (hstate : h.state = .readingChecksumOfSizeOfData) :
    ∃ h' : HeaderReader, h'.state = .readingSizeOfData ∧ h'.messageHeaderBuffer = [] ∧
      h'.parsedChecksumOfSizeOfData = component ∧
      Leads checksum toInt (.reading false (r.withHeader h)) (component ++ [comma])
        (.reading false (r.withHeader h')) := by
  refine ⟨(h.appendAll component).takeChecksumOfSizeOfData, rfl, rfl, ?_, ?_⟩
  · rw [appendAll_of_empty hbuffer hlength]
    rfl
  · exact leads_component (by exact hr) hcomma
      (endComponent_readingChecksumOfSizeOfData (.inl (by simpa using hstate)))

lemma leads_size (hstate : h.state = .readingSizeOfData) {size : ℤ}
    (hsize : toInt component = some size)
    (hchecksum : checksum component = h.parsedChecksumOfSizeOfData) :
    ∃ h' : HeaderReader, h'.state = .readingChecksumOfData ∧ h'.messageHeaderBuffer = [] ∧
      h'.parsedSizeOfData = size ∧
      Leads checksum toInt (.reading false (r.withHeader h)) (component ++ [comma])
        (.reading false (r.withHeader h')) := by
  have hall := appendAll_of_empty hbuffer hlength
  have htake : (h.appendAll component).takeSizeOfData checksum toInt = _ :=
    HeaderReader.takeSizeOfData_of_eq (by rw [hall, hsize]) (by rw [hall]; exact hchecksum)
  refine ⟨(h.appendAll component).takeSizeOfData checksum toInt, ?_, ?_, ?_, ?_⟩
  · rw [htake]
  · rw [htake]
  · rw [htake]
  · exact leads_component (by exact hr) hcomma
      (endComponent_readingSizeOfData (by simpa using hstate) false)

variable (checksum toInt) in
lemma leads_checksumOfData (hstate : h.state = .readingChecksumOfData) :
    ∃ h' : HeaderReader, h'.state = .lookingForSync ∧ h'.messageHeaderBuffer = [] ∧
      h'.parsedMessageChecksum = component ∧
      Leads checksum toInt (.reading false (r.withHeader h)) (component ++ [comma])
        (.reading false (r.startMessage h.parsedSizeOfData h')) := by
  refine ⟨(h.appendAll component).takeChecksumOfData, rfl, rfl, ?_, ?_⟩
  · rw [appendAll_of_empty hbuffer hlength]
    rfl
  · refine leads_component (by exact hr) hcomma ?_
    rw [Reader.withHeader_messageHeaderReader, Reader.withHeader_withHeader,
      endComponent_readingChecksumOfData (by simpa using hstate),
      appendAll_of_empty hbuffer hlength]

end Component

/-- The header of a message leads to the message. -/
lemma leads_header (hcompatible : Compatible checksum toInt) {r : Reader}
    (hr : r.haveReadMessageHeader = false)
    (hstate : r.messageHeaderReader.state = .lookingForSync)
    (hlength : r.messageHeaderReader.messageHeaderBuffer.length ≤ sizeOfLargestHeaderComponent)
    {noise data : List Byte} (hnoise : comma ∉ noise) (hdata : data.length < 2 ^ 31) :
    ∃ h : HeaderReader, h.state = .lookingForSync ∧ h.messageHeaderBuffer = [] ∧
      h.parsedMessageChecksum = checksum data ∧
      Leads checksum toInt (.reading false r)
        (noise ++ SYNC ++ [comma] ++ (checksum (number data.length) ++ [comma]) ++
          (number data.length ++ [comma]) ++ (checksum data ++ [comma]))
        (.reading false (r.startMessage data.length h)) := by
  have hchecksum (data : List Byte) :
      comma ∉ checksum data ∧ (checksum data).length ≤ sizeOfLargestHeaderComponent :=
    ⟨hcompatible.comma_notMem_checksum data, Nat.le_of_eq (hcompatible.length_checksum data)⟩
  have hnumber : (number data.length).length ≤ sizeOfLargestHeaderComponent :=
    Nat.le_trans (length_number_le hdata) (by decide)
  obtain ⟨h, hstate, hbuffer, hsync⟩ := leads_sync checksum toInt hr hstate hlength hnoise
  obtain ⟨h, hstate, hbuffer, hparsed, hchecksumOfSize⟩ := leads_checksumOfSize checksum toInt
    hr hbuffer (hchecksum (number data.length)).1 (hchecksum _).2 hstate
  obtain ⟨h, hstate, hbuffer, hsize, hsizeOfData⟩ := leads_size hr hbuffer
    (comma_notMem_number _) hnumber hstate (hcompatible.toInt_number _ hdata) hparsed.symm
  obtain ⟨h', hstate, hbuffer, hparsed, hchecksumOfData⟩ := leads_checksumOfData checksum toInt
    hr hbuffer (hchecksum data).1 (hchecksum data).2 hstate
  rw [hsize] at hchecksumOfData
  exact ⟨h', hstate, hbuffer, hparsed,
    ((hsync.trans hchecksumOfSize).trans hsizeOfData).trans hchecksumOfData⟩

/-- A message with its header, behind noise without a comma. -/
lemma reads_sendMessage (hcompatible : Compatible checksum toInt) {r : Reader}
    (hr : r.haveReadMessageHeader = false)
    (hstate : r.messageHeaderReader.state = .lookingForSync)
    (hlength : r.messageHeaderReader.messageHeaderBuffer.length ≤ sizeOfLargestHeaderComponent)
    {noise data : List Byte} (hnoise : comma ∉ noise) (hne : data ≠ [])
    (hdata : data.length < 2 ^ 31) :
    ∃ r' : Reader, r'.InInitialState ∧
      readAll (step checksum toInt) (.reading false r) (noise ++ sendMessage checksum data) =
        (.reading false r', [data]) ∧
      ∀ rest, NeverFallsThrough checksum toInt (.reading false r') rest →
        NeverFallsThrough checksum toInt (.reading false r)
          (noise ++ sendMessage checksum data ++ rest) := by
  obtain ⟨h, hstate', hbuffer', hparsed, hheader, hheaderNever⟩ :=
    leads_header hcompatible hr hstate hlength hnoise hdata
  have hsend : noise ++ sendMessage checksum data =
      noise ++ SYNC ++ [comma] ++ (checksum (number data.length) ++ [comma]) ++
          (number data.length ++ [comma]) ++ (checksum data ++ [comma]) ++ data := by
    simp [sendMessage]
  have hleft : (1 : ℤ) ≤ (data.length : ℤ) := by
    have := List.length_pos_of_ne_nil hne
    omega
  obtain ⟨r', hread, hr', hh'⟩ :=
    readAll_startMessage checksum toInt (r := r) (h := h) hleft rfl
  rw [if_pos hparsed.symm] at hread
  refine ⟨r', ⟨by rw [hh', hstate'], by rw [hh', hbuffer'], hr'⟩, ?_, fun rest hrest => ?_⟩
  · rw [hsend, readAll_append_of_eq _ hheader, hread]
  · rw [hsend, List.append_assoc]
    apply hheaderNever
    rw [neverFallsThrough_message rfl hleft rfl, hread]
    exact hrest

/-- One message after the other. -/
lemma reads_messages (hcompatible : Compatible checksum toInt) {messages : List (List Byte)}
    (hmessages : ∀ data ∈ messages, data ≠ [] ∧ data.length < 2 ^ 31) {r : Reader}
    (hr : r.InInitialState) :
    ∃ r' : Reader, r'.InInitialState ∧
      readAll (step checksum toInt) (.reading false r)
        (messages.map (sendMessage checksum)).flatten = (.reading false r', messages) ∧
      NeverFallsThrough checksum toInt (.reading false r)
        (messages.map (sendMessage checksum)).flatten := by
  induction messages generalizing r with
  | nil => exact ⟨r, hr, rfl, trivial⟩
  | cons data messages ih =>
      obtain ⟨hne, hdata⟩ := hmessages data List.mem_cons_self
      have hnoise : comma ∉ ([] : List Byte) := List.not_mem_nil
      obtain ⟨r₁, hr₁, hread₁, hnever₁⟩ := reads_sendMessage hcompatible hr.haveReadMessageHeader
        hr.state (by simp [hr.messageHeaderBuffer]) hnoise hne hdata
      obtain ⟨r₂, hr₂, hread₂, hnever₂⟩ := ih (fun data h => hmessages data (.tail _ h)) hr₁
      rw [List.nil_append] at hread₁ hnever₁
      rw [List.map_cons, List.flatten_cons]
      refine ⟨r₂, hr₂, ?_, hnever₁ _ hnever₂⟩
      rw [readAll_append, hread₁, hread₂]
      rfl

end Position

/-! ## All messages -/

/-- **Round trip.**  However what was sent is cut into deliveries, the reader emits the messages
that were sent, each once and in order, and is in its initial state again.  The bytes of a message
may be anything, also commas and whole headers, because the reader counts them.  A message without
bytes is left out, as the reader does not get past it (`Autobackup.ChecksummedMessages.NeverSpins`).
-/
theorem handleReadyReads_sendMessage {checksum : List Byte → List Byte}
    {toInt : List Byte → Option ℤ} (hcompatible : Compatible checksum toInt)
    {messages : List (List Byte)}
    (hmessages : ∀ data ∈ messages, data ≠ [] ∧ data.length < 2 ^ 31)
    {deliveries : List (List Byte)}
    (hdeliveries : deliveries.flatten = (messages.map (sendMessage checksum)).flatten)
    {r : Reader} (hr : r.InInitialState) :
    ∃ r' : Reader, r.handleReadyReads checksum toInt deliveries = (messages, .returned r') ∧
      r'.InInitialState := by
  obtain ⟨r', hr', hread, hnever⟩ := Position.reads_messages hcompatible hmessages hr
  rw [← hdeliveries] at hread hnever
  refine ⟨r', ?_, hr'⟩
  rw [Position.handleReadyReads_inStep hnever, hread]
  rfl

/-! The theorem at two messages, with a checksum of 32 zeros. -/

/-- `QByteArray::toInt` of digits. -/
def toIntOfDigits (digits : List Byte) : Option ℤ :=
  let value := Nat.ofDigitChars 10 (digits.map fun b => Char.ofNat b.toNat) 0
  if digits ≠ [] ∧ digits.all (fun b => 48 ≤ b ∧ b ≤ 57) ∧ value < 2 ^ 31 then some value else none

lemma toIntOfDigits_number {n : ℕ} (hn : n < 2 ^ 31) : toIntOfDigits (number n) = some (n : ℤ) := by
  have hdigits : (number n).map (fun b => Char.ofNat b.toNat) = Nat.toDigits 10 n := by
    rw [number, List.map_map]
    refine (List.map_congr_left fun c hc => ?_).trans (List.map_id _)
    simp [(toNat_of_mem_toDigits hc).1]
  have hne : number n ≠ [] := by
    simp [number, Nat.toDigits_ne_nil]
  have hbytes : (number n).all (fun b => 48 ≤ b ∧ b ≤ 57) = true := by
    refine List.all_eq_true.2 fun b hb => decide_eq_true ?_
    simpa [UInt8.le_iff_toNat_le] using toNat_of_mem_number hb
  simp only [toIntOfDigits, hdigits, Nat.ofDigitChars_ten_toDigits]
  rw [if_pos ⟨hne, hbytes, hn⟩]

def zeros (_ : List Byte) : List Byte := List.replicate sizeOfLargestHeaderComponent 48

lemma compatible_zeros : Compatible zeros toIntOfDigits where
  length_checksum _ := rfl
  comma_notMem_checksum _ := show comma ∉ List.replicate sizeOfLargestHeaderComponent 48 by decide
  toInt_number _ hn := toIntOfDigits_number hn

/-- `A,` and `SYNC`, the second delivery starting inside the first `SYNC,`. -/
theorem handleReadyReads_sendMessage_twoMessages :
    ∃ r' : Reader, Reader.constructed.handleReadyReads zeros toIntOfDigits
        [(([[65, 44], SYNC].map (sendMessage zeros)).flatten.take 3),
          (([[65, 44], SYNC].map (sendMessage zeros)).flatten.drop 3)] =
        ([[65, 44], SYNC], .returned r') ∧ r'.InInitialState := by
  have hmessages : ∀ data ∈ ([[65, 44], SYNC] : List (List Byte)),
      data ≠ [] ∧ data.length < 2 ^ 31 := by
    decide
  exact handleReadyReads_sendMessage compatible_zeros hmessages (by simp)
    Reader.constructed_inInitialState

end Autobackup.ChecksummedMessages
