import Autobackup.ChecksummedMessages.Reader
import Autobackup.Foundation.Deliveries

/-!
# The reader, byte by byte

The functions of the reader take what they need from the front of the device and return as soon as
it runs dry.  Here the same reader is a function of one byte, `step`.  Its state has to say a little
more than the members of the class do: inside `tryReadMessageHeader` the control flow may have
fallen through from looking for `SYNC` to reading a checksum without `m_State` saying so.  When the
device runs dry at that point the function returns, and the next call is looking for `SYNC` again:
`settle` is what a return does to the state.

The result is `handleReadyRead_eq`: a turn of the event loop reads its delivery byte by byte and
settles at its end.
-/

namespace Autobackup.ChecksummedMessages

/-- The reader between two bytes. -/
inductive Position
  /-- Reading; `fellThrough` when a component without `SYNC` was just read while looking for it. -/
  | reading (fellThrough : Bool) (r : Reader)
  /-- `handleReadyRead` goes round without reading. -/
  | looping (r : Reader)
  deriving DecidableEq, Repr

namespace Position

/-- A turn ends. -/
def settle : Position → Position
  | .reading _ r => .reading false r
  | .looping r => .looping r

def turn : Position → Reader.Turn
  | .reading _ r => .returned r
  | .looping r => .looping r

@[simp] lemma settle_reading (f : Bool) (r : Reader) :
    settle (.reading f r) = .reading false r := rfl

@[simp] lemma turn_settle (p : Position) : p.settle.turn = p.turn := by
  cases p <;> rfl

variable (checksum : List Byte → List Byte) (toInt : List Byte → Option ℤ)

/-- A comma ends a component of the header. -/
def endComponent (fellThrough : Bool) (r : Reader) : Position :=
  let h := r.messageHeaderReader
  match h.state, fellThrough with
  | .lookingForSync, false =>
      .reading (¬ SYNC <:+ h.messageHeaderBuffer) (r.withHeader h.lookForSync)
  | .lookingForSync, true | .readingChecksumOfSizeOfData, _ =>
      .reading false (r.withHeader h.takeChecksumOfSizeOfData)
  | .readingSizeOfData, _ =>
      .reading false (r.withHeader (h.takeSizeOfData checksum toInt))
  | .readingChecksumOfData, _ =>
      .reading false (r.startMessage h.parsedSizeOfData h.takeChecksumOfData)

/-- A byte of the message. -/
def messageByte (r : Reader) (inChar : Byte) : Position × Option (List Byte) :=
  let r :=
    { r with
      messageBuffer := r.messageBuffer ++ [inChar]
      numBytesOfMessageLeft := r.numBytesOfMessageLeft - 1 }
  if r.numBytesOfMessageLeft < 1 then
    (.reading false (r.messageRead checksum).2, (r.messageRead checksum).1)
  else (.reading false r, none)

def step : Position → Byte → Position × Option (List Byte)
  | .looping r, _ => (.looping r, none)
  | .reading fellThrough r, inChar =>
      if r.haveReadMessageHeader then
        if r.numBytesOfMessageLeft < 1 then (.looping r, none) else messageByte checksum r inChar
      else if inChar = comma then (endComponent checksum toInt fellThrough r, none)
      else
        (.reading fellThrough (r.withHeader (r.messageHeaderReader.append inChar)), none)

end Position

/-! ## Components -/

namespace HeaderReader

/-- Append the bytes of a component. -/
def appendAll (h : HeaderReader) (component : List Byte) : HeaderReader :=
  component.foldl append h

@[simp] lemma append_state (h : HeaderReader) (b : Byte) : (h.append b).state = h.state := rfl

@[simp] lemma appendAll_nil (h : HeaderReader) : h.appendAll [] = h := rfl

@[simp] lemma appendAll_cons (h : HeaderReader) (b : Byte) (rest : List Byte) :
    h.appendAll (b :: rest) = (h.append b).appendAll rest := rfl

@[simp] lemma appendAll_state (h : HeaderReader) (component : List Byte) :
    (h.appendAll component).state = h.state := by
  induction component generalizing h with
  | nil => rfl
  | cons b component ih => rw [appendAll_cons, ih, append_state]

section TakeSizeOfData

variable {h : HeaderReader} {checksum : List Byte → List Byte} {toInt : List Byte → Option ℤ}
  {size : ℤ}

lemma takeSizeOfData_of_none (hsize : toInt h.messageHeaderBuffer = none) :
    h.takeSizeOfData checksum toInt =
      { h with parsedSizeOfData := 0, state := .lookingForSync } := by
  rw [takeSizeOfData, hsize]

lemma takeSizeOfData_of_ne (hsize : toInt h.messageHeaderBuffer = some size)
    (hchecksum : checksum h.messageHeaderBuffer ≠ h.parsedChecksumOfSizeOfData) :
    h.takeSizeOfData checksum toInt =
      { h with
        parsedSizeOfData := size
        parsedSizeOfDataAsString := h.messageHeaderBuffer
        messageHeaderBuffer := []
        calculatedChecksumOfSizeOfData := checksum h.messageHeaderBuffer
        state := .lookingForSync } := by
  rw [takeSizeOfData, hsize]
  simp only [if_pos hchecksum]

lemma takeSizeOfData_of_eq (hsize : toInt h.messageHeaderBuffer = some size)
    (hchecksum : checksum h.messageHeaderBuffer = h.parsedChecksumOfSizeOfData) :
    h.takeSizeOfData checksum toInt =
      { h with
        parsedSizeOfData := size
        parsedSizeOfDataAsString := h.messageHeaderBuffer
        messageHeaderBuffer := []
        calculatedChecksumOfSizeOfData := checksum h.messageHeaderBuffer
        state := .readingChecksumOfData } := by
  rw [takeSizeOfData, hsize]
  simp only [if_neg (not_not.2 hchecksum)]

variable (h checksum toInt) in
/-- After the size, either the header has failed or its last component is next. -/
lemma takeSizeOfData_state :
    (h.takeSizeOfData checksum toInt).state = .lookingForSync ∨
      (h.takeSizeOfData checksum toInt).state = .readingChecksumOfData := by
  cases hsize : toInt h.messageHeaderBuffer with
  | none => exact .inl (by rw [takeSizeOfData_of_none hsize])
  | some size =>
      by_cases hchecksum : checksum h.messageHeaderBuffer = h.parsedChecksumOfSizeOfData
      · exact .inr (by rw [takeSizeOfData_of_eq hsize hchecksum])
      · exact .inl (by rw [takeSizeOfData_of_ne hsize hchecksum])

end TakeSizeOfData

/-- Either the device runs dry, or a component is read with its comma. -/
lemma tryReadUntilComma_cases (h : HeaderReader) (device : List Byte) :
    (comma ∉ device ∧ h.tryReadUntilComma device = (false, h.appendAll device, [])) ∨
      ∃ component rest, comma ∉ component ∧ device = component ++ comma :: rest ∧
        h.tryReadUntilComma device = (true, h.appendAll component, rest) := by
  induction device generalizing h with
  | nil => exact .inl ⟨by simp, rfl⟩
  | cons b device ih =>
      by_cases hb : b = comma
      · subst hb
        exact .inr ⟨[], device, by simp, rfl, by simp [tryReadUntilComma]⟩
      · rcases ih (h.append b) with ⟨hdry, heq⟩ | ⟨component, rest, hcomma, rfl, heq⟩
        · refine .inl ⟨?_, by simp [tryReadUntilComma, hb, heq]⟩
          simp [hdry, Ne.symm hb]
        · refine .inr ⟨b :: component, rest, ?_, rfl, by simp [tryReadUntilComma, hb, heq]⟩
          simp [hcomma, Ne.symm hb]

end HeaderReader

namespace Reader

@[simp] lemma withHeader_messageHeaderReader (r : Reader) (h : HeaderReader) :
    (r.withHeader h).messageHeaderReader = h := rfl

@[simp] lemma withHeader_haveReadMessageHeader (r : Reader) (h : HeaderReader) :
    (r.withHeader h).haveReadMessageHeader = r.haveReadMessageHeader := rfl

@[simp] lemma withHeader_withHeader (r : Reader) (h h' : HeaderReader) :
    (r.withHeader h).withHeader h' = r.withHeader h' := rfl

@[simp] lemma withHeader_startMessage (r : Reader) (h h' : HeaderReader) (messageSize : ℤ) :
    (r.withHeader h).startMessage messageSize h' = r.startMessage messageSize h' := rfl

@[simp] lemma withHeader_self (r : Reader) : r.withHeader r.messageHeaderReader = r := rfl

end Reader

namespace Position

variable {checksum : List Byte → List Byte} {toInt : List Byte → Option ℤ}

lemma step_looping (r : Reader) (b : Byte) :
    step checksum toInt (.looping r) b = (.looping r, none) := rfl

lemma step_comma {r : Reader} (hr : r.haveReadMessageHeader = false) (fellThrough : Bool) :
    step checksum toInt (.reading fellThrough r) comma =
      (endComponent checksum toInt fellThrough r, none) := by
  simp [step, hr]

lemma step_header {r : Reader} (hr : r.haveReadMessageHeader = false) (fellThrough : Bool)
    {b : Byte} (hb : b ≠ comma) :
    step checksum toInt (.reading fellThrough r) b =
      (.reading fellThrough (r.withHeader (r.messageHeaderReader.append b)), none) := by
  simp [step, hr, hb]

lemma step_message {r : Reader} (hr : r.haveReadMessageHeader = true)
    (hleft : 1 ≤ r.numBytesOfMessageLeft) (fellThrough : Bool) (b : Byte) :
    step checksum toInt (.reading fellThrough r) b = messageByte checksum r b := by
  simp [step, hr, Int.not_lt.2 hleft]

lemma step_stuck {r : Reader} (hr : r.haveReadMessageHeader = true)
    (hleft : r.numBytesOfMessageLeft < 1) (fellThrough : Bool) (b : Byte) :
    step checksum toInt (.reading fellThrough r) b = (.looping r, none) := by
  simp [step, hr, hleft]

/-! What a comma leads to, by what was being read. -/

lemma endComponent_lookingForSync {r : Reader} {h : HeaderReader}
    (hstate : h.state = .lookingForSync) :
    endComponent checksum toInt false (r.withHeader h) =
      .reading (¬ SYNC <:+ h.messageHeaderBuffer) (r.withHeader h.lookForSync) := by
  simp only [endComponent, Reader.withHeader_messageHeaderReader, hstate]
  rfl

lemma endComponent_readingChecksumOfSizeOfData {r : Reader} {h : HeaderReader} {f : Bool}
    (hstate : h.state = .readingChecksumOfSizeOfData ∨ h.state = .lookingForSync ∧ f = true) :
    endComponent checksum toInt f (r.withHeader h) =
      .reading false (r.withHeader h.takeChecksumOfSizeOfData) := by
  rcases hstate with hstate | ⟨hstate, rfl⟩ <;> simp [endComponent, hstate]

lemma endComponent_readingSizeOfData {r : Reader} {h : HeaderReader}
    (hstate : h.state = .readingSizeOfData) (f : Bool) :
    endComponent checksum toInt f (r.withHeader h) =
      .reading false (r.withHeader (h.takeSizeOfData checksum toInt)) := by
  simp [endComponent, hstate]

lemma endComponent_readingChecksumOfData {r : Reader} {h : HeaderReader}
    (hstate : h.state = .readingChecksumOfData) (f : Bool) :
    endComponent checksum toInt f (r.withHeader h) =
      .reading false (r.startMessage h.parsedSizeOfData h.takeChecksumOfData) := by
  simp [endComponent, hstate]

lemma readAll_looping (r : Reader) (bytes : List Byte) :
    readAll (step checksum toInt) (.looping r) bytes = (.looping r, []) := by
  induction bytes with
  | nil => rfl
  | cons b bytes ih => simp [readAll_cons, step_looping, ih]

/-- A component of the header goes to the header buffer. -/
lemma readAll_component {r : Reader} (hr : r.haveReadMessageHeader = false) (fellThrough : Bool)
    {component : List Byte} (hcomma : comma ∉ component) :
    readAll (step checksum toInt) (.reading fellThrough r) component =
      (.reading fellThrough (r.withHeader (r.messageHeaderReader.appendAll component)), []) := by
  induction component generalizing r with
  | nil => rfl
  | cons b component ih =>
      have hb : b ≠ comma := fun h => hcomma (by simp [h])
      have hcomma' : comma ∉ component := fun h => hcomma (by simp [h])
      rw [readAll_cons, step_header hr fellThrough hb]
      have := ih (r := r.withHeader (r.messageHeaderReader.append b)) hr hcomma'
      simp only [this]
      rfl

/-- A component and its comma. -/
lemma readAll_component_comma {r : Reader} (hr : r.haveReadMessageHeader = false)
    (fellThrough : Bool) {component : List Byte} (hcomma : comma ∉ component) :
    readAll (step checksum toInt) (.reading fellThrough r) (component ++ [comma]) =
      (endComponent checksum toInt fellThrough
        (r.withHeader (r.messageHeaderReader.appendAll component)), []) := by
  rw [readAll_append_of_eq _ (readAll_component hr fellThrough hcomma)]
  rw [readAll_cons, step_comma (by exact hr)]
  rfl

/-! ## The header -/

/-- What the reader is after a part of `tryReadMessageHeader`. -/
def afterHeader (r : Reader) (h : HeaderReader) : Option ℤ → Reader
  | none => r.withHeader h
  | some messageSize => r.startMessage messageSize h

/-- A part of `tryReadMessageHeader` has read some bytes from the front of the device.  Only when
it has read them all may it have returned after falling through. -/
def Reads (checksum : List Byte → List Byte) (toInt : List Byte → Option ℤ) (fellThrough : Bool)
    (r : Reader) (device : List Byte) (result : Option ℤ × HeaderReader × List Byte) : Prop :=
  ∃ bytes fellThrough', device = bytes ++ result.2.2 ∧ (device ≠ [] → bytes ≠ []) ∧
    (result.2.2 ≠ [] → fellThrough' = false) ∧
      readAll (step checksum toInt) (.reading fellThrough r) bytes =
      (.reading fellThrough' (afterHeader r result.2.1 result.1), [])

section Header

variable {r : Reader} {h h' : HeaderReader} {f g : Bool} {device component rest : List Byte}
  {result : Option ℤ × HeaderReader × List Byte}

variable (hr : r.haveReadMessageHeader = false)

include hr

lemma reads_dry (hcomma : comma ∉ device) :
    Reads checksum toInt f (r.withHeader h) device (none, h.appendAll device, []) :=
  ⟨device, f, by simp, id, by simp, readAll_component (r := r.withHeader h) hr f hcomma⟩

/-- A component after which the call returns: the message starts, or the header has failed. -/
lemma reads_return {m : Option ℤ} (hcomma : comma ∉ component)
    (hend : endComponent checksum toInt f (r.withHeader (h.appendAll component)) =
      .reading false (afterHeader r h' m)) :
    Reads checksum toInt f (r.withHeader h) (component ++ comma :: rest)
      (m, h', rest) := by
  refine ⟨component ++ [comma], false, by simp, by simp, fun _ => rfl, ?_⟩
  rw [readAll_component_comma (r := r.withHeader h) hr f hcomma]
  refine congrArg (·, []) (hend.trans ?_)
  cases m <;> rfl

/-- A component after which the header goes on. -/
lemma reads_comma (hcomma : comma ∉ component)
    (hend : endComponent checksum toInt f (r.withHeader (h.appendAll component)) =
      .reading g (r.withHeader h'))
    (hrest : Reads checksum toInt g (r.withHeader h') rest result) :
    Reads checksum toInt f (r.withHeader h) (component ++ comma :: rest) result := by
  obtain ⟨bytes, last, hbytes, -, hlast, hread⟩ := hrest
  refine ⟨component ++ [comma] ++ bytes, last, by simp [hbytes], by simp, hlast, ?_⟩
  have hcomponent : readAll (step checksum toInt) (.reading f (r.withHeader h))
      (component ++ [comma]) = (.reading g (r.withHeader h'), []) := by
    rw [readAll_component_comma (r := r.withHeader h) hr f hcomma]
    exact congrArg (·, []) hend
  rw [readAll_append_of_eq _ hcomponent, hread]
  cases result.1 <;> rfl

lemma reads_readingChecksumOfData (hstate : h.state = .readingChecksumOfData) :
    Reads checksum toInt f (r.withHeader h) device (h.caseReadingChecksumOfData device) := by
  rcases h.tryReadUntilComma_cases device with
    ⟨hcomma, heq⟩ | ⟨component, rest, hcomma, rfl, heq⟩
  · rw [HeaderReader.caseReadingChecksumOfData, heq]
    exact reads_dry hr hcomma
  · rw [HeaderReader.caseReadingChecksumOfData, heq]
    exact reads_return (m := some _) hr hcomma
      (endComponent_readingChecksumOfData (by simp [hstate]) f)

lemma reads_readingSizeOfData (hstate : h.state = .readingSizeOfData) :
    Reads checksum toInt f (r.withHeader h) device
      (h.caseReadingSizeOfData checksum toInt device) := by
  rcases h.tryReadUntilComma_cases device with
    ⟨hcomma, heq⟩ | ⟨component, rest, hcomma, rfl, heq⟩
  · rw [HeaderReader.caseReadingSizeOfData, heq]
    exact reads_dry hr hcomma
  · rw [HeaderReader.caseReadingSizeOfData, heq]
    have hsize : (h.appendAll component).state = .readingSizeOfData := by simp [hstate]
    rcases (h.appendAll component).takeSizeOfData_state checksum toInt with hlooking | hreading
    · simp only [hlooking, if_true]
      exact reads_return (m := none) hr hcomma (endComponent_readingSizeOfData hsize f)
    · simp only [hreading, reduceCtorEq, if_false]
      exact reads_comma hr hcomma (endComponent_readingSizeOfData hsize f)
        (reads_readingChecksumOfData hr hreading)

/-- Entered with its own state, or by falling through from looking for `SYNC`. -/
lemma reads_readingChecksumOfSizeOfData
    (hstate : h.state = .readingChecksumOfSizeOfData ∨ h.state = .lookingForSync ∧ f = true) :
    Reads checksum toInt f (r.withHeader h) device
      (h.caseReadingChecksumOfSizeOfData checksum toInt device) := by
  rcases h.tryReadUntilComma_cases device with
    ⟨hcomma, heq⟩ | ⟨component, rest, hcomma, rfl, heq⟩
  · rw [HeaderReader.caseReadingChecksumOfSizeOfData, heq]
    exact reads_dry hr hcomma
  · rw [HeaderReader.caseReadingChecksumOfSizeOfData, heq]
    exact reads_comma hr hcomma
      (endComponent_readingChecksumOfSizeOfData (by simpa using hstate))
      (reads_readingSizeOfData hr rfl)

lemma reads_lookingForSync (hstate : h.state = .lookingForSync) :
    Reads checksum toInt false (r.withHeader h) device
      (h.caseLookingForSync checksum toInt device) := by
  rcases h.tryReadUntilComma_cases device with
    ⟨hcomma, heq⟩ | ⟨component, rest, hcomma, rfl, heq⟩
  · rw [HeaderReader.caseLookingForSync, heq]
    exact reads_dry hr hcomma
  · rw [HeaderReader.caseLookingForSync, heq]
    refine reads_comma hr hcomma (endComponent_lookingForSync (by simp [hstate]))
      (reads_readingChecksumOfSizeOfData hr ?_)
    by_cases hsync : SYNC <:+ (h.appendAll component).messageHeaderBuffer
    · exact .inl (by simp [HeaderReader.lookForSync, hsync])
    · exact .inr (by simp [HeaderReader.lookForSync, hsync, hstate])

variable (checksum toInt) in
/-- A call of `tryReadMessageHeader`. -/
lemma reads_tryReadMessageHeader :
    Reads checksum toInt false (r.withHeader h) device
      (h.tryReadMessageHeader checksum toInt device) := by
  unfold HeaderReader.tryReadMessageHeader
  split
  · next hstate => exact reads_lookingForSync hr hstate
  · next hstate => exact reads_readingChecksumOfSizeOfData hr (.inl hstate)
  · next hstate => exact reads_readingSizeOfData hr hstate
  · next hstate => exact reads_readingChecksumOfData hr hstate

end Header

/-! ## The message -/

/-- Bytes of a message that is not complete with them. -/
lemma readAll_message_part {r : Reader} (hr : r.haveReadMessageHeader = true) {bytes : List Byte}
    (hleft : (bytes.length : ℤ) < r.numBytesOfMessageLeft) :
    readAll (step checksum toInt) (.reading false r) bytes =
      (.reading false
        { r with
          messageBuffer := r.messageBuffer ++ bytes
          numBytesOfMessageLeft := r.numBytesOfMessageLeft - bytes.length }, []) := by
  induction bytes generalizing r with
  | nil => simp
  | cons b bytes ih =>
      rw [List.length_cons] at hleft
      have hmore : ¬ r.numBytesOfMessageLeft - 1 < 1 := by omega
      rw [readAll_cons, step_message hr (by omega), messageByte, if_neg hmore]
      dsimp only
      rw [ih (by exact hr) (by simp only; omega)]
      simp only [List.append_assoc, List.singleton_append, List.length_cons, Option.toList_none,
        List.nil_append, Prod.mk.injEq, and_true, reading.injEq, Reader.mk.injEq, true_and]
      omega

/-- The last byte of a message. -/
lemma step_message_last {r : Reader} (hr : r.haveReadMessageHeader = true)
    (hleft : r.numBytesOfMessageLeft = 1) (b : Byte) :
    step checksum toInt (.reading false r) b =
      (.reading false
        ({ r with
            messageBuffer := r.messageBuffer ++ [b]
            numBytesOfMessageLeft := 0 }.messageRead checksum).2,
        ({ r with
            messageBuffer := r.messageBuffer ++ [b]
            numBytesOfMessageLeft := 0 }.messageRead checksum).1) := by
  rw [step_message hr (by omega), messageByte]
  simp [hleft]

/-- All the bytes of a message that are left. -/
lemma readAll_message {r : Reader} (hr : r.haveReadMessageHeader = true) {bytes : List Byte}
    (hbytes : bytes ≠ []) (hleft : r.numBytesOfMessageLeft = bytes.length) :
    readAll (step checksum toInt) (.reading false r) bytes =
      (.reading false
        ({ r with
            messageBuffer := r.messageBuffer ++ bytes
            numBytesOfMessageLeft := 0 }.messageRead checksum).2,
        ({ r with
            messageBuffer := r.messageBuffer ++ bytes
            numBytesOfMessageLeft := 0 }.messageRead checksum).1.toList) := by
  obtain ⟨front, last, rfl⟩ : ∃ front last, bytes = front ++ [last] :=
    ⟨_, _, (List.dropLast_concat_getLast hbytes).symm⟩
  rw [List.length_append, List.length_singleton] at hleft
  rw [readAll_append_of_eq _ (readAll_message_part hr (by omega)), readAll_cons,
    step_message_last (by exact hr) (by simp only; omega)]
  simp

variable (toInt) in
/-- A call of `tryReadMessageActual` with a byte of the message left to read. -/
lemma reads_tryReadMessageActual {r : Reader} (hr : r.haveReadMessageHeader = true)
    (hleft : 1 ≤ r.numBytesOfMessageLeft) {device : List Byte} (hdevice : device ≠ []) :
    ∃ bytes, device = bytes ++ (r.tryReadMessageActual checksum device).2.2 ∧ bytes ≠ [] ∧
      readAll (step checksum toInt) (.reading false r) bytes =
        (.reading false (r.tryReadMessageActual checksum device).2.1,
          (r.tryReadMessageActual checksum device).1.toList) := by
  have hlength : 1 ≤ device.length := List.length_pos_of_ne_nil hdevice
  obtain ⟨n, hn⟩ : ∃ n : ℕ, min r.numBytesOfMessageLeft device.length = n :=
    ⟨_, (Int.toNat_of_nonneg (by omega)).symm⟩
  have hbytes : (device.take n).length = n := by
    rw [List.length_take]
    omega
  have hne : device.take n ≠ [] := by
    rw [← List.length_pos_iff, hbytes]
    omega
  unfold Reader.tryReadMessageActual
  simp only [hn, Int.toNat_natCast, if_neg (show ¬ (n : ℤ) < 1 by omega)]
  by_cases hlast : r.numBytesOfMessageLeft - n < 1
  · rw [if_pos hlast]
    refine ⟨device.take n, (List.take_append_drop n device).symm, hne, ?_⟩
    rw [readAll_message hr hne (by rw [hbytes]; omega),
      show r.numBytesOfMessageLeft - n = 0 by omega]
  · rw [if_neg hlast]
    refine ⟨device.take n, (List.take_append_drop n device).symm, hne, ?_⟩
    rw [readAll_message_part hr (by rw [hbytes]; omega), hbytes]
    rfl

/-! ## A turn -/

/-- Once nothing is left to be read of a message whose end was not noticed, nothing is read. -/
lemma tryReadMessage_stuck {r : Reader} (hr : r.haveReadMessageHeader = true)
    (hleft : r.numBytesOfMessageLeft < 1) (device : List Byte) :
    r.tryReadMessage checksum toInt device = (none, r, device) := by
  have : min r.numBytesOfMessageLeft device.length < 1 := by omega
  simp [Reader.tryReadMessage, hr, Reader.tryReadMessageActual, this]

lemma handleReadyRead_stuck {r : Reader} (hr : r.haveReadMessageHeader = true)
    (hleft : r.numBytesOfMessageLeft < 1) (rounds : ℕ) {device : List Byte}
    (hdevice : device ≠ []) :
    r.handleReadyRead checksum toInt rounds device = ([], .looping r) := by
  obtain ⟨b, device, rfl⟩ := List.exists_cons_of_ne_nil hdevice
  induction rounds with
  | zero => rfl
  | succ rounds ih => simp [Reader.handleReadyRead, tryReadMessage_stuck hr hleft, ih]

variable (checksum toInt) in
/-- One round of the loop. -/
lemma reads_tryReadMessage {r : Reader}
    (hgo : r.haveReadMessageHeader = true → 1 ≤ r.numBytesOfMessageLeft) {device : List Byte}
    (hdevice : device ≠ []) :
    ∃ bytes f, device = bytes ++ (r.tryReadMessage checksum toInt device).2.2 ∧ bytes ≠ [] ∧
      ((r.tryReadMessage checksum toInt device).2.2 ≠ [] → f = false) ∧
      readAll (step checksum toInt) (.reading false r) bytes =
        (.reading f (r.tryReadMessage checksum toInt device).2.1,
          (r.tryReadMessage checksum toInt device).1.toList) := by
  cases hr : r.haveReadMessageHeader with
  | true =>
      obtain ⟨bytes, hbytes, hne, hread⟩ :=
        reads_tryReadMessageActual toInt hr (hgo hr) hdevice
      simp only [Reader.tryReadMessage, hr, if_true]
      exact ⟨bytes, false, hbytes, hne, fun _ => rfl, hread⟩
  | false =>
      obtain ⟨bytes, f, hbytes, hne, hf, hread⟩ :=
        reads_tryReadMessageHeader checksum toInt (h := r.messageHeaderReader) hr
      rw [Reader.withHeader_self] at hread
      simp only [Reader.tryReadMessage, hr, Bool.false_eq_true, if_false]
      rcases hheader : r.messageHeaderReader.tryReadMessageHeader checksum toInt device with
        ⟨_ | messageSize, h, rest⟩
      · rw [hheader] at hbytes hf hread
        exact ⟨bytes, f, hbytes, hne hdevice, hf, hread⟩
      · rw [hheader] at hbytes hf hread
        dsimp only [afterHeader] at hbytes hf hread ⊢
        by_cases hrest : rest = []
        · subst hrest
          have : min messageSize (([] : List Byte).length : ℤ) < 1 := by
            rw [List.length_nil]
            omega
          simp only [Reader.tryReadMessageActual, Reader.startMessage, this, if_true]
          exact ⟨bytes, f, hbytes, hne hdevice, fun h => absurd rfl h, hread⟩
        · obtain rfl := hf hrest
          by_cases hsize : messageSize < 1
          · have : min messageSize (rest.length : ℤ) < 1 := by omega
            simp only [Reader.tryReadMessageActual, Reader.startMessage, this, if_true]
            exact ⟨bytes, false, hbytes, hne hdevice, fun _ => rfl, hread⟩
          · obtain ⟨bytes', hbytes', hne', hread'⟩ :=
              reads_tryReadMessageActual toInt (r := r.startMessage messageSize h) rfl
                (Int.not_lt.1 hsize) hrest
            refine ⟨bytes ++ bytes', false, ?_, by simp [hne'], fun _ => rfl, ?_⟩
            · rw [List.append_assoc, ← hbytes', hbytes]
            · rw [readAll_append_of_eq _ hread, hread']

/-- **A turn reads its delivery byte by byte.**  As many rounds of the loop as there are bytes are
enough; a turn that has not ended by then never ends. -/
theorem handleReadyRead_eq (r : Reader) (device : List Byte) {rounds : ℕ}
    (hrounds : device.length ≤ rounds) :
    r.handleReadyRead checksum toInt rounds device =
      ((readAll (step checksum toInt) (.reading false r) device).2,
        (readAll (step checksum toInt) (.reading false r) device).1.turn) := by
  induction rounds generalizing r device with
  | zero =>
      obtain rfl := List.eq_nil_of_length_eq_zero (Nat.le_zero.1 hrounds)
      rfl
  | succ rounds ih =>
      by_cases hdevice : device = []
      · subst hdevice
        rfl
      by_cases hgo : r.haveReadMessageHeader = true → 1 ≤ r.numBytesOfMessageLeft
      · obtain ⟨bytes, f, hbytes, hne, hf, hread⟩ :=
          reads_tryReadMessage checksum toInt hgo hdevice
        have hunfold : r.handleReadyRead checksum toInt (rounds + 1) device =
            ((r.tryReadMessage checksum toInt device).1.toList ++
              ((r.tryReadMessage checksum toInt device).2.1.handleReadyRead checksum toInt rounds
                (r.tryReadMessage checksum toInt device).2.2).1,
            ((r.tryReadMessage checksum toInt device).2.1.handleReadyRead checksum toInt rounds
                (r.tryReadMessage checksum toInt device).2.2).2) := by
          obtain ⟨b, device, rfl⟩ := List.exists_cons_of_ne_nil hdevice
          rfl
        rw [hunfold]
        generalize r.tryReadMessage checksum toInt device = read at hbytes hf hread ⊢
        obtain ⟨message, r', rest⟩ := read
        dsimp only at hbytes hf hread ⊢
        have hlength : rest.length ≤ rounds := by
          have := List.length_pos_of_ne_nil hne
          rw [hbytes, List.length_append] at hrounds
          omega
        rw [ih r' rest hlength, hbytes, readAll_append, hread]
        by_cases hrest : rest = []
        · subst hrest
          rfl
        · rw [hf hrest]
      · obtain ⟨hr, hleft⟩ := Classical.not_imp.1 hgo
        rw [handleReadyRead_stuck hr (Int.not_le.1 hleft) _ hdevice]
        obtain ⟨b, device, rfl⟩ := List.exists_cons_of_ne_nil hdevice
        rw [readAll_cons, step_stuck hr (Int.not_le.1 hleft), readAll_looping]
        rfl

/-- The deliveries of a run, read byte by byte. -/
theorem handleReadyReads_eq (r : Reader) (deliveries : List (List Byte)) :
    r.handleReadyReads checksum toInt deliveries =
      ((readDeliveries (step checksum toInt) settle (.reading false r) deliveries).2,
        (readDeliveries (step checksum toInt) settle (.reading false r) deliveries).1.turn) := by
  have hstuck (r : Reader) (deliveries : List (List Byte)) :
      readDeliveries (step checksum toInt) settle (.looping r) deliveries = (.looping r, []) := by
    induction deliveries with
    | nil => rfl
    | cons delivery deliveries ih => simp [readDeliveries, readAll_looping, settle, ih]
  induction deliveries generalizing r with
  | nil => rfl
  | cons delivery deliveries ih =>
      rw [Reader.handleReadyReads, handleReadyRead_eq r delivery (Nat.le_refl _), readDeliveries]
      rcases readAll (step checksum toInt) (.reading false r) delivery with ⟨⟨f, r'⟩ | r', messages⟩
      · simp only [turn, settle, ih r']
      · simp [turn, settle, hstuck]

end Position

end Autobackup.ChecksummedMessages
