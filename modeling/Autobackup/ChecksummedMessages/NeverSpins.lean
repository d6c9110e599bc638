import Autobackup.ChecksummedMessages.RoundTrip

/-!
# Does the reader spin?

Every round of the loop of `handleReadyRead` reads something, except where the header of a message
was read that has no bytes: its end is noticed where its last byte is read, and there is none.  So
the loop goes round for ever, as soon as there is one more byte (`neverSpins_iff`).

A loop that does not come back is an outcome of its own in the model (`Result`), not a missing
value, so that it can be said of which devices it happens.
-/

namespace Autobackup.ChecksummedMessages

variable (checksum : List Byte → List Byte) (toInt : List Byte → Option ℤ)

/-! ## Rounds of the loop -/

namespace Reader

/-- The reader and the device after some rounds of the loop. -/
def afterRounds : ℕ → Reader → List Byte → Reader × List Byte
  | 0, r, device => (r, device)
  | _, r, [] => (r, [])
  | rounds + 1, r, inChar :: device =>
      let read := r.tryReadMessage checksum toInt (inChar :: device)
      afterRounds rounds read.2.1 read.2.2

/-- `handleReadyRead` returns, and every round of its loop takes a byte.  A loop that goes round
without taking a byte would find the same device again, and so go round for ever. -/
def NeverSpins (r : Reader) (device : List Byte) : Prop :=
  (∃ rounds messages r', r.handleReadyRead checksum toInt rounds device =
      (messages, .returned r')) ∧
    ∀ rounds, (r.afterRounds checksum toInt rounds device).2 ≠ [] →
      (r.afterRounds checksum toInt (rounds + 1) device).2.length <
        (r.afterRounds checksum toInt rounds device).2.length

/-- What a reader is between two turns of the event loop.  Any device may have been read before,
with any messages, broken or not. -/
def Reachable (r : Reader) : Prop :=
  ∃ (constructed : Reader) (deliveries : List (List Byte)) (messages : List (List Byte)),
    constructed.InInitialState ∧
      constructed.handleReadyReads checksum toInt deliveries = (messages, .returned r)

end Reader

/-! ## Sizes in a stream -/

/-- What is read next of a header, with what the stream has said before. -/
inductive HeaderPart
  | sync
  | checksumOfSize
  | size (checksumOfSize : List Byte)
  | checksumOfData (sizeOfData : ℤ)

/-- No message without bytes is announced, other than at the end.  `left` is in the header buffer
already.  In one turn it does not matter whether `SYNC` was found. -/
def SizesArePositive : HeaderPart → (left bytes : List Byte) → Prop
  | part, left, bytes =>
      ∀ component rest, bytes = component ++ comma :: rest → comma ∉ component →
        match part with
        | .sync => SizesArePositive .checksumOfSize [] rest
        | .checksumOfSize => SizesArePositive (.size (keep (left ++ component))) [] rest
        | .size checksumOfSize =>
            match toInt (keep (left ++ component)) with
            | none => SizesArePositive .sync (keep (left ++ component)) rest
            | some sizeOfData =>
                if checksum (keep (left ++ component)) ≠ checksumOfSize then
                  SizesArePositive .sync [] rest
                else SizesArePositive (.checksumOfData sizeOfData) [] rest
        | .checksumOfData sizeOfData =>
            if 1 ≤ sizeOfData then SizesArePositive .sync [] (rest.drop sizeOfData.toNat)
            else rest = []
termination_by _ _ bytes => bytes.length
decreasing_by
  all_goals
    subst_vars
    simp only [List.length_append, List.length_cons, List.length_drop]
    omega

def HeaderReader.nextPart (h : HeaderReader) : HeaderPart :=
  match h.state with
  | .lookingForSync => .sync
  | .readingChecksumOfSizeOfData => .checksumOfSize
  | .readingSizeOfData => .size h.parsedChecksumOfSizeOfData
  | .readingChecksumOfData => .checksumOfData h.parsedSizeOfData

/-- The same for a reader: what is left of a message comes first. -/
def Reader.SizesArePositive (r : Reader) (device : List Byte) : Prop :=
  if r.haveReadMessageHeader then
    device = [] ∨ 1 ≤ r.numBytesOfMessageLeft ∧
      ChecksummedMessages.SizesArePositive checksum toInt .sync []
        (device.drop r.numBytesOfMessageLeft.toNat)
  else
    ChecksummedMessages.SizesArePositive checksum toInt r.messageHeaderReader.nextPart
      r.messageHeaderReader.messageHeaderBuffer device

variable {checksum toInt}

namespace Position

/-- The loop is not stuck after some bytes. -/
def KeepsGoing (checksum : List Byte → List Byte) (toInt : List Byte → Option ℤ) (p : Position)
    (bytes : List Byte) : Prop :=
  ∃ f r, (readAll (step checksum toInt) p bytes).1 = .reading f r

/-- The position after the first component decides. -/
lemma keepsGoing_iff_component {r : Reader} (hr : r.haveReadMessageHeader = false) (f : Bool)
    (bytes : List Byte) :
    KeepsGoing checksum toInt (.reading f r) bytes ↔
      ∀ component rest, bytes = component ++ comma :: rest → comma ∉ component →
        KeepsGoing checksum toInt (endComponent checksum toInt f
          (r.withHeader (r.messageHeaderReader.appendAll component))) rest := by
  have hsplit {component : List Byte} (rest : List Byte) (hcomma : comma ∉ component) :
      KeepsGoing checksum toInt (.reading f r) (component ++ comma :: rest) ↔
        KeepsGoing checksum toInt (endComponent checksum toInt f
          (r.withHeader (r.messageHeaderReader.appendAll component))) rest := by
    rw [KeepsGoing, KeepsGoing, List.append_cons,
      readAll_append_of_eq _ (readAll_component_comma hr f hcomma)]
  constructor
  · rintro h component rest rfl hcomma
    exact (hsplit rest hcomma).1 h
  · intro h
    by_cases hcomma : comma ∈ bytes
    · obtain ⟨component, rest, hbytes, hcomponent⟩ := List.eq_append_cons_of_mem hcomma
      rw [hbytes]
      exact (hsplit rest hcomponent).2 (h component rest hbytes hcomponent)
    · refine ⟨f, r.withHeader (r.messageHeaderReader.appendAll bytes), ?_⟩
      rw [readAll_component hr f hcomma]

variable (checksum toInt) in
/-- While a message is read, the loop goes on. -/
lemma keepsGoing_message {r : Reader} (hr : r.haveReadMessageHeader = true) (bytes : List Byte)
    (hpositive : 1 ≤ r.numBytesOfMessageLeft) :
    ∃ r', r'.haveReadMessageHeader = false ∧ r'.messageHeaderReader = r.messageHeaderReader ∧
      (KeepsGoing checksum toInt (.reading false r) bytes ↔
        KeepsGoing checksum toInt (.reading false r')
          (bytes.drop r.numBytesOfMessageLeft.toNat)) := by
  by_cases hlong : r.numBytesOfMessageLeft.toNat ≤ bytes.length
  · have hlength : (bytes.take r.numBytesOfMessageLeft.toNat).length =
        r.numBytesOfMessageLeft.toNat := List.length_take_of_le hlong
    have hne : bytes.take r.numBytesOfMessageLeft.toNat ≠ [] := by
      apply List.ne_nil_of_length_pos
      omega
    have hread := congrArg Prod.fst
      (@readAll_message checksum toInt r hr _ hne (by omega))
    refine ⟨({ r with
        messageBuffer := r.messageBuffer ++ bytes.take r.numBytesOfMessageLeft.toNat
        numBytesOfMessageLeft := 0 }.messageRead checksum).2, rfl, rfl, ?_⟩
    rw [KeepsGoing, KeepsGoing]
    nth_rewrite 1 [← List.take_append_drop r.numBytesOfMessageLeft.toNat bytes]
    rw [readAll_append, hread]
  · have hshort : (bytes.length : ℤ) < r.numBytesOfMessageLeft := by omega
    have hread : (readAll (step checksum toInt) (.reading false r) bytes).1 = _ :=
      congrArg Prod.fst (readAll_message_part hr hshort)
    refine ⟨{ r with haveReadMessageHeader := false }, rfl, rfl, ?_⟩
    rw [List.drop_eq_nil_of_le (by omega)]
    exact iff_of_true ⟨_, _, hread⟩ ⟨_, _, rfl⟩

/-- Where there are no bytes of the message left, the next byte is one too many. -/
lemma keepsGoing_stuck {r : Reader} (hr : r.haveReadMessageHeader = true) {bytes : List Byte}
    (hleft : r.numBytesOfMessageLeft < 1) :
    KeepsGoing checksum toInt (.reading false r) bytes ↔ bytes = [] := by
  constructor
  · rintro ⟨f, r', hread⟩
    by_contra hne
    obtain ⟨b, bytes, rfl⟩ := List.exists_cons_of_ne_nil hne
    rw [readAll_cons, step_stuck hr hleft, readAll_looping] at hread
    exact absurd hread (by simp)
  · rintro rfl
    exact ⟨false, r, rfl⟩

/-! ## The parts of a header -/

/-- What is read next, when the control flow may have fallen through. -/
def nextPart (fellThrough : Bool) (h : HeaderReader) : HeaderPart :=
  if fellThrough then .checksumOfSize else h.nextPart

/-- **A header that is being read**: the loop goes on as long as the sizes are positive. -/
theorem keepsGoing_iff {r : Reader} (hr : r.haveReadMessageHeader = false)
    (hlength : r.messageHeaderReader.messageHeaderBuffer.length ≤ sizeOfLargestHeaderComponent)
    {f : Bool} (hf : f = true → r.messageHeaderReader.state = .lookingForSync)
    (bytes : List Byte) :
    KeepsGoing checksum toInt (.reading f r) bytes ↔
      SizesArePositive checksum toInt (nextPart f r.messageHeaderReader)
        r.messageHeaderReader.messageHeaderBuffer bytes := by
  induction hn : bytes.length using Nat.strong_induction_on generalizing r f bytes with
  | _ n ih =>
  -- what the induction hypothesis says of a header reader that goes on
  have again (h : HeaderReader) {rest : List Byte} (hrest : rest.length < n)
      (hlength : h.messageHeaderBuffer.length ≤ sizeOfLargestHeaderComponent) {f : Bool}
      (hf : f = true → h.state = .lookingForSync) :
      KeepsGoing checksum toInt (.reading f (r.withHeader h)) rest ↔
        SizesArePositive checksum toInt (nextPart f h) h.messageHeaderBuffer rest :=
    ih _ hrest (r := r.withHeader h) hr hlength hf rest rfl
  rw [keepsGoing_iff_component hr, SizesArePositive]
  refine forall₂_congr fun component rest =>
    imp_congr_right fun hbytes => imp_congr_right fun _ => ?_
  have hshort : rest.length < n := by
    rw [← hn, hbytes, List.length_append, List.length_cons]
    omega
  rw [HeaderReader.appendAll_eq hlength]
  have hkeep := length_keep_le (r.messageHeaderReader.messageHeaderBuffer ++ component)
  generalize hh : ({ r.messageHeaderReader with
    messageHeaderBuffer := keep (r.messageHeaderReader.messageHeaderBuffer ++ component) } :
      HeaderReader) = h
  have hbuffer : keep (r.messageHeaderReader.messageHeaderBuffer ++ component) =
      h.messageHeaderBuffer := by rw [← hh]
  have hnext : nextPart f r.messageHeaderReader = nextPart f h := by rw [← hh]; rfl
  have hf' : f = true → h.state = .lookingForSync := by rw [← hh]; exact hf
  rw [hbuffer] at hkeep ⊢
  rw [hnext]
  have hzero : ([] : List Byte).length ≤ sizeOfLargestHeaderComponent := Nat.zero_le _
  cases hstate : h.state with
  | lookingForSync =>
      cases f with
      | false =>
          have hpart : nextPart false h = .sync := by
            simp [nextPart, HeaderReader.nextPart, hstate]
          -- either `SYNC` was found, or the control flow falls through
          have hafter : nextPart (¬ SYNC <:+ h.messageHeaderBuffer) h.lookForSync =
              .checksumOfSize := by
            by_cases hsync : SYNC <:+ h.messageHeaderBuffer
            · simp [nextPart, HeaderReader.nextPart, HeaderReader.lookForSync, hsync]
            · simp [nextPart, hsync]
          have hfell : decide (¬ SYNC <:+ h.messageHeaderBuffer) = true →
              h.lookForSync.state = .lookingForSync := by
            intro hsync
            simp [HeaderReader.lookForSync, of_decide_eq_true hsync, hstate]
          rw [hpart, endComponent_lookingForSync hstate, again h.lookForSync hshort hzero hfell,
            hafter]
          rfl
      | true =>
          rw [endComponent_readingChecksumOfSizeOfData (.inr ⟨hstate, rfl⟩),
            again h.takeChecksumOfSizeOfData hshort hzero (by simp)]
          rfl
  | readingChecksumOfSizeOfData =>
      obtain rfl : f = false := by
        apply Bool.eq_false_iff.2
        intro hfell
        rw [hf' hfell] at hstate
        exact absurd hstate (by decide)
      have hpart : nextPart false h = .checksumOfSize := by
        simp [nextPart, HeaderReader.nextPart, hstate]
      rw [hpart, endComponent_readingChecksumOfSizeOfData (.inl hstate),
        again h.takeChecksumOfSizeOfData hshort hzero (by simp)]
      rfl
  | readingSizeOfData =>
      obtain rfl : f = false := by
        apply Bool.eq_false_iff.2
        intro hfell
        rw [hf' hfell] at hstate
        exact absurd hstate (by decide)
      have hpart : nextPart false h = .size h.parsedChecksumOfSizeOfData := by
        simp [nextPart, HeaderReader.nextPart, hstate]
      rw [hpart, endComponent_readingSizeOfData hstate]
      cases htoInt : toInt h.messageHeaderBuffer with
      | none =>
          rw [HeaderReader.takeSizeOfData_of_none htoInt]
          exact again { h with parsedSizeOfData := 0, state := .lookingForSync } hshort hkeep
            fun hfell => absurd hfell (by decide)
      | some sizeOfData =>
          by_cases hchecksum : checksum h.messageHeaderBuffer ≠ h.parsedChecksumOfSizeOfData
          · rw [HeaderReader.takeSizeOfData_of_ne htoInt hchecksum]
            simp only [if_pos hchecksum]
            exact again { .. } hshort hzero fun hfell => absurd hfell (by decide)
          · rw [HeaderReader.takeSizeOfData_of_eq htoInt (not_not.1 hchecksum)]
            simp only [if_neg hchecksum]
            exact again { .. } hshort hzero fun hfell => absurd hfell (by decide)
  | readingChecksumOfData =>
      obtain rfl : f = false := by
        apply Bool.eq_false_iff.2
        intro hfell
        rw [hf' hfell] at hstate
        exact absurd hstate (by decide)
      have hpart : nextPart false h = .checksumOfData h.parsedSizeOfData := by
        simp [nextPart, HeaderReader.nextPart, hstate]
      rw [hpart, endComponent_readingChecksumOfData hstate]
      by_cases hsize : 1 ≤ h.parsedSizeOfData
      · obtain ⟨r', hr', hheader, hmessage⟩ := keepsGoing_message checksum toInt
          (r := r.startMessage h.parsedSizeOfData h.takeChecksumOfData) rfl rest hsize
        have hdrop : (rest.drop h.parsedSizeOfData.toNat).length < n := by
          rw [List.length_drop]
          omega
        have hlater := ih _ hdrop (f := false) hr' (by rw [hheader]; exact hzero) (by simp) _ rfl
        rw [hheader] at hlater
        simp only [if_pos hsize]
        exact hmessage.trans hlater
      · simp only [if_neg hsize]
        exact keepsGoing_stuck rfl (Int.not_le.1 hsize)

/-! ## Reachable readers -/

/-- The header buffer is short, and while a message is read nothing of the next header was. -/
def Sound : Position → Prop
  | .reading _ r =>
      r.messageHeaderReader.messageHeaderBuffer.length ≤ sizeOfLargestHeaderComponent ∧
        (r.haveReadMessageHeader = true → r.messageHeaderReader.state = .lookingForSync)
  | .looping _ => True

lemma length_takeSizeOfData_le (h : HeaderReader) :
    (h.takeSizeOfData checksum toInt).messageHeaderBuffer.length ≤
      h.messageHeaderBuffer.length := by
  rw [HeaderReader.takeSizeOfData]
  split
  · exact Nat.le_refl _
  · exact Nat.zero_le _

lemma sound_step {p : Position} (hp : p.Sound) (b : Byte) :
    (step checksum toInt p b).1.Sound := by
  cases p with
  | looping r => trivial
  | reading f r =>
      obtain ⟨hlength, hstate⟩ := hp
      have hzero : ([] : List Byte).length ≤ sizeOfLargestHeaderComponent := Nat.zero_le _
      cases hr : r.haveReadMessageHeader with
      | true =>
          by_cases hleft : 1 ≤ r.numBytesOfMessageLeft
          · rw [step_message hr hleft, messageByte]
            split
            · exact ⟨hlength, fun h => absurd h (by simp [Reader.messageRead])⟩
            · exact ⟨hlength, fun _ => hstate hr⟩
          · rw [step_stuck hr (Int.not_le.1 hleft)]
            trivial
      | false =>
          have hnever (h : HeaderReader) :
              (r.withHeader h).haveReadMessageHeader = true → h.state = .lookingForSync :=
            fun h => absurd (hr.symm.trans h) (by decide)
          by_cases hb : b = comma
          · subst hb
            rw [step_comma hr]
            simp only [endComponent]
            split
            · exact ⟨hzero, hnever _⟩
            · exact ⟨hzero, hnever _⟩
            · exact ⟨hzero, hnever _⟩
            · refine ⟨?_, hnever _⟩
              exact Nat.le_trans (length_takeSizeOfData_le _) hlength
            · exact ⟨hzero, fun _ => rfl⟩
          · rw [step_header hr f hb]
            refine ⟨?_, hnever _⟩
            rw [Reader.withHeader_messageHeaderReader,
              HeaderReader.append_messageHeaderBuffer hlength]
            exact length_keep_le _

lemma sound_readAll {p : Position} (hp : p.Sound) (bytes : List Byte) :
    (readAll (step checksum toInt) p bytes).1.Sound := by
  induction bytes generalizing p with
  | nil => exact hp
  | cons b bytes ih => exact ih (sound_step hp b)

lemma sound_settle {p : Position} (hp : p.Sound) : p.settle.Sound := by
  cases p with
  | looping r => trivial
  | reading f r => exact hp

variable (checksum toInt) in
lemma sound_readDeliveries {p : Position} (hp : p.Sound) (deliveries : List (List Byte)) :
    (readDeliveries (step checksum toInt) settle p deliveries).1.Sound := by
  induction deliveries generalizing p with
  | nil => exact hp
  | cons delivery deliveries ih => exact ih (sound_settle (sound_readAll hp delivery))

lemma sound_of_reachable {r : Reader} (h : r.Reachable checksum toInt) :
    (reading false r).Sound := by
  obtain ⟨constructed, deliveries, messages, hinitial, hturn⟩ := h
  have hstart : (reading false constructed).Sound := by
    refine ⟨?_, fun hr => absurd (hinitial.haveReadMessageHeader.symm.trans hr) (by decide)⟩
    rw [hinitial.messageHeaderBuffer]
    exact Nat.zero_le _
  have hsound := sound_readDeliveries checksum toInt hstart deliveries
  rw [handleReadyReads_eq] at hturn
  have hreturned := congrArg Prod.snd hturn
  revert hsound hreturned
  generalize (readDeliveries (step checksum toInt) settle (.reading false constructed)
    deliveries).1 = p
  intro hsound hreturned
  cases p with
  | looping r' => exact absurd hreturned (by simp [turn])
  | reading f r' =>
      obtain rfl : r' = r := by simpa [turn] using hreturned
      exact hsound

/-- The header buffer does not matter for `SYNC`. -/
lemma sizesArePositive_sync {left bytes : List Byte} :
    SizesArePositive checksum toInt .sync left bytes ↔
      SizesArePositive checksum toInt .sync [] bytes := by
  rw [SizesArePositive, SizesArePositive]

/-- The reader between two turns. -/
theorem keepsGoing_iff_of_sound {r : Reader} (hsound : (reading false r).Sound)
    (device : List Byte) :
    KeepsGoing checksum toInt (.reading false r) device ↔
      r.SizesArePositive checksum toInt device := by
  obtain ⟨hlength, hstate⟩ := hsound
  have hfalse {p : Prop} (h : false = true) : p := absurd h (by decide)
  rw [Reader.SizesArePositive]
  cases hr : r.haveReadMessageHeader with
  | false => exact keepsGoing_iff hr hlength hfalse device
  | true =>
      simp only [if_true]
      by_cases hpositive : 1 ≤ r.numBytesOfMessageLeft
      · obtain ⟨r', hr', hheader, hmessage⟩ :=
          keepsGoing_message checksum toInt hr device hpositive
        have hpart : nextPart false r'.messageHeaderReader = .sync := by
          rw [hheader]
          simp [nextPart, HeaderReader.nextPart, hstate hr]
        rw [hmessage, keepsGoing_iff hr' (by rw [hheader]; exact hlength) hfalse, hpart,
          sizesArePositive_sync]
        constructor
        · intro hrest
          exact .inr ⟨hpositive, hrest⟩
        · rintro (rfl | ⟨-, hrest⟩)
          · rw [List.drop_nil, SizesArePositive]
            intro component rest hnil
            exact absurd hnil (by simp)
          · exact hrest
      · rw [keepsGoing_stuck hr (Int.not_le.1 hpositive)]
        constructor
        · exact Or.inl
        · rintro (hnil | ⟨h, -⟩)
          · exact hnil
          · exact absurd h hpositive

/-- A reader that keeps going is not stuck. -/
lemma one_le_of_keepsGoing {r : Reader} {device : List Byte} (hdevice : device ≠ [])
    (h : KeepsGoing checksum toInt (.reading false r) device) :
    r.haveReadMessageHeader = true → 1 ≤ r.numBytesOfMessageLeft := by
  intro hr
  by_contra hleft
  exact hdevice ((keepsGoing_stuck hr (Int.not_le.1 hleft)).1 h)

variable (checksum toInt) in
/-- What one round leaves. -/
lemma keepsGoing_round {r : Reader} {device : List Byte} (hdevice : device ≠ [])
    (hgo : r.haveReadMessageHeader = true → 1 ≤ r.numBytesOfMessageLeft) :
    (r.tryReadMessage checksum toInt device).2.2.length < device.length ∧
      (KeepsGoing checksum toInt (.reading false r) device ↔
        KeepsGoing checksum toInt (.reading false (r.tryReadMessage checksum toInt device).2.1)
          (r.tryReadMessage checksum toInt device).2.2) := by
  obtain ⟨bytes, f, hbytes, hne, hf, hread⟩ := reads_tryReadMessage checksum toInt hgo hdevice
  generalize r.tryReadMessage checksum toInt device = read at hbytes hf hread ⊢
  obtain ⟨message, r', rest⟩ := read
  dsimp only at hbytes hf hread ⊢
  have hpos := List.length_pos_of_ne_nil hne
  refine ⟨by rw [hbytes, List.length_append]; omega, ?_⟩
  rw [KeepsGoing, KeepsGoing, hbytes, readAll_append, hread]
  by_cases hrest : rest = []
  · subst hrest
    exact iff_of_true ⟨f, r', rfl⟩ ⟨false, r', rfl⟩
  · rw [hf hrest]

end Position

namespace Reader

lemma afterRounds_succ {r : Reader} {device : List Byte} (hdevice : device ≠ []) (rounds : ℕ) :
    r.afterRounds checksum toInt (rounds + 1) device =
      (r.tryReadMessage checksum toInt device).2.1.afterRounds checksum toInt rounds
        (r.tryReadMessage checksum toInt device).2.2 := by
  obtain ⟨b, device, rfl⟩ := List.exists_cons_of_ne_nil hdevice
  rfl

lemma afterRounds_nil (r : Reader) (rounds : ℕ) :
    r.afterRounds checksum toInt rounds [] = (r, []) := by
  cases rounds with
  | zero => rfl
  | succ rounds => rfl

/-- Every round takes a byte, if the loop is never stuck. -/
lemma length_afterRounds_lt {r : Reader} {device : List Byte}
    (h : Position.KeepsGoing checksum toInt (.reading false r) device) (rounds : ℕ)
    (hleft : (r.afterRounds checksum toInt rounds device).2 ≠ []) :
    (r.afterRounds checksum toInt (rounds + 1) device).2.length <
      (r.afterRounds checksum toInt rounds device).2.length := by
  have hdevice : device ≠ [] := by
    rintro rfl
    rw [afterRounds_nil] at hleft
    exact hleft rfl
  obtain ⟨hlt, hround⟩ :=
    Position.keepsGoing_round checksum toInt hdevice (Position.one_le_of_keepsGoing hdevice h)
  induction rounds generalizing r device with
  | zero =>
      rw [afterRounds_succ hdevice]
      exact hlt
  | succ rounds ih =>
      rw [afterRounds_succ hdevice] at hleft ⊢
      rw [afterRounds_succ hdevice]
      have hrest : (r.tryReadMessage checksum toInt device).2.2 ≠ [] := by
        intro hnil
        rw [hnil, afterRounds_nil] at hleft
        exact hleft rfl
      have hnext := hround.1 h
      obtain ⟨hlt', hround'⟩ :=
        Position.keepsGoing_round checksum toInt hrest (Position.one_le_of_keepsGoing hrest hnext)
      exact ih hnext hleft hrest hlt' hround'

/-- If every round takes a byte, the loop is never stuck. -/
lemma keepsGoing_of_length_afterRounds_lt {r : Reader} {device : List Byte}
    (h : ∀ rounds, (r.afterRounds checksum toInt rounds device).2 ≠ [] →
      (r.afterRounds checksum toInt (rounds + 1) device).2.length <
        (r.afterRounds checksum toInt rounds device).2.length) :
    Position.KeepsGoing checksum toInt (.reading false r) device := by
  induction hn : device.length using Nat.strong_induction_on generalizing r device with
  | _ n ih =>
  by_cases hdevice : device = []
  · subst hdevice
    exact ⟨false, r, rfl⟩
  have hfirst := h 0 hdevice
  rw [afterRounds_succ hdevice] at hfirst
  have hgo : r.haveReadMessageHeader = true → 1 ≤ r.numBytesOfMessageLeft := by
    intro hr
    by_contra hleft
    rw [Position.tryReadMessage_stuck hr (Int.not_le.1 hleft)] at hfirst
    exact absurd hfirst (Nat.lt_irrefl _)
  obtain ⟨hlt, hround⟩ := Position.keepsGoing_round checksum toInt hdevice hgo
  apply hround.2
  refine ih _ (hn ▸ hlt) (fun rounds hleft => ?_) rfl
  have hlater := h (rounds + 1)
  rw [afterRounds_succ hdevice, afterRounds_succ hdevice] at hlater
  exact hlater hleft

lemma neverSpins_iff_keepsGoing (r : Reader) (device : List Byte) :
    r.NeverSpins checksum toInt device ↔
      Position.KeepsGoing checksum toInt (.reading false r) device := by
  constructor
  · rintro ⟨-, h⟩
    exact keepsGoing_of_length_afterRounds_lt h
  · intro h
    refine ⟨?_, length_afterRounds_lt h⟩
    obtain ⟨f, r', hread⟩ := h
    have hturn : r.handleReadyRead checksum toInt device.length device = _ :=
      Position.handleReadyRead_eq r device (Nat.le_refl _)
    rw [hread] at hturn
    exact ⟨device.length, _, r', hturn⟩

/-- **The reader never spins exactly if no message without bytes is announced.**  The reader may be
any that is reachable and the device may hold anything, also what no sender has sent.  A header with
a size of 0 passes its checksum like any other one, so one such message from the sender is enough.
-/
theorem neverSpins_iff {checksum : List Byte → List Byte} {toInt : List Byte → Option ℤ}
    {r : Reader} (h : r.Reachable checksum toInt) (device : List Byte) :
    r.NeverSpins checksum toInt device ↔ r.SizesArePositive checksum toInt device := by
  rw [neverSpins_iff_keepsGoing,
    Position.keepsGoing_iff_of_sound (Position.sound_of_reachable h)]

/-! ## A constructed reader -/

lemma constructed_reachable : constructed.Reachable zeros toIntOfDigits :=
  ⟨constructed, [], [], constructed_inInitialState, rfl⟩

/-- `SYNC` without its comma. -/
theorem neverSpins_sync : constructed.NeverSpins zeros toIntOfDigits SYNC := by
  apply (neverSpins_iff constructed_reachable SYNC).2
  show ChecksummedMessages.SizesArePositive zeros toIntOfDigits .sync [] SYNC
  rw [ChecksummedMessages.SizesArePositive]
  intro component rest hbytes hcomma
  have hmem : comma ∈ SYNC := by
    rw [hbytes]
    exact List.mem_append_right _ List.mem_cons_self
  exact absurd hmem (by decide)

/-- A message without bytes, and one more byte. -/
theorem spins_behind_emptyMessage :
    constructed.Reachable zeros toIntOfDigits ∧
      ¬ constructed.NeverSpins zeros toIntOfDigits (sendMessage zeros [] ++ SYNC.take 1) := by
  refine ⟨constructed_reachable, fun h => ?_⟩
  have hround := h.2 1 (by decide +kernel)
  exact absurd hround (by decide +kernel)

end Reader

end Autobackup.ChecksummedMessages
