import Mathlib.Data.List.Infix
import Mathlib.Algebra.Group.Nat.Defs

/-!
# Messages between magic and magic

Every message on a connection is a `QByteArray` with four bytes of magic before it.  A connection
looks for the magic byte by byte (`NetworkMagic`), looks ahead at the size of the message
(`ByteArrayMessageSizePeekerForIODevice`), and reads the message when all of it has arrived.  The
device is the list of the bytes that have arrived and were not read yet.

`handleDataReceivedFromClient` is the loop of the slot for `readyRead`.  It is the same for every
number of rounds that is not smaller than the number of bytes in the device, and it does not matter
in which pieces the bytes arrive: `receiveAll_eq`.
-/

namespace Autobackup.Network

abbrev Byte := UInt8

/-- `NetworkMagic::MagicExpected` -/
def MagicExpected : List Byte := [70, 85, 67, 75]

structure NetworkMagic where
  currentMagicByteIndex : ℕ := 0
  magicGot : Bool := false
  deriving DecidableEq, Repr

namespace NetworkMagic

/-- The loop of the function below: what it returns, the members, and what is left in the device. -/
def lookForMagic (m : NetworkMagic) : List Byte → Bool × NetworkMagic × List Byte
  | [] => (false, m, [])
  | potentialMagicPiece :: device =>
      if MagicExpected[m.currentMagicByteIndex]? = some potentialMagicPiece then
        if m.currentMagicByteIndex + 1 = MagicExpected.length then
          (true, ⟨m.currentMagicByteIndex + 1, true⟩, device)
        else
          { m with currentMagicByteIndex := m.currentMagicByteIndex + 1 }.lookForMagic device
      -- the byte is given up, though it may be the first of the magic
      else { m with currentMagicByteIndex := 0 }.lookForMagic device

def consumeFromIODeviceByteByByteLookingForMagic (m : NetworkMagic) (device : List Byte) :
    Bool × NetworkMagic × List Byte :=
  if m.magicGot then (true, m, device) else m.lookForMagic device

/-- `messageHasBeenConsumedSoPlzResetMagic` -/
def reset : NetworkMagic := {}

end NetworkMagic

/-- The `quint32` at the front of the device, big endian. -/
def quint32 (device : List Byte) : ℕ := (device.take 4).foldl (fun n b => 256 * n + b.toNat) 0

/-- `ByteArrayMessageSizePeekerForIODevice`.  A null and an empty array need no more bytes. -/
def enoughBytesAreAvailableToReadTheByteArrayMessage (device : List Byte) : Bool :=
  if device.length < 4 then false
  else if quint32 device = 0xFFFFFFFF ∨ quint32 device = 0 then true
  else ¬ device.length < quint32 device + 4

/-- `>>` of a `QByteArray`: the array, whether all of its bytes were there, and what is left. -/
def readByteArray (device : List Byte) : List Byte × Bool × List Byte :=
  if device.length < 4 then ([], false, [])
  -- a null array
  else if quint32 device = 0xFFFFFFFF then ([], true, device.drop 4)
  else if device.length < quint32 device + 4 then ([], false, [])
  else ((device.drop 4).take (quint32 device), true, (device.drop 4).drop (quint32 device))

/-- A `QByteArray` was read from the device.  The source keeps no record of that. -/
structure Read where
  /-- How many bytes of the stream were read before. -/
  position : ℕ
  message : List Byte
  /-- All of its bytes were available. -/
  complete : Bool
  deriving DecidableEq, Repr

/-- `AbstractClientConnection`, as far as it receives. -/
structure Receiver where
  networkMagic : NetworkMagic := {}
  device : List Byte := []
  /-- How many bytes of the stream were read. -/
  position : ℕ := 0
  reads : List Read := []
  deriving DecidableEq, Repr

namespace Receiver

/-- Whether magic was seen, now or before. -/
def consumeMagic (c : Receiver) : Bool × Receiver :=
  let r := c.networkMagic.consumeFromIODeviceByteByByteLookingForMagic c.device
  (r.1,
    { c with
      networkMagic := r.2.1
      device := r.2.2
      position := c.position + (c.device.length - r.2.2.length) })

def readMessage (c : Receiver) : Receiver where
  networkMagic := NetworkMagic.reset
  device := (readByteArray c.device).2.2
  position := c.position + (c.device.length - (readByteArray c.device).2.2.length)
  reads := c.reads ++ [⟨c.position, (readByteArray c.device).1, (readByteArray c.device).2.1⟩]

/-- The first `rounds` rounds of the loop. -/
def handleDataReceivedFromClient : ℕ → Receiver → Receiver
  | 0, c => c
  | rounds + 1, c =>
      if c.device = [] then c
      else if ¬ c.consumeMagic.1 then c.consumeMagic.2
      else if ¬ enoughBytesAreAvailableToReadTheByteArrayMessage c.consumeMagic.2.device then
        c.consumeMagic.2
      else handleDataReceivedFromClient rounds c.consumeMagic.2.readMessage

def push (c : Receiver) (delivery : List Byte) : Receiver :=
  { c with device := c.device ++ delivery }

/-- `readyRead`.  As many rounds as there are bytes are enough, see
`handleDataReceivedFromClient_eq`. -/
def readyRead (c : Receiver) : Receiver := c.handleDataReceivedFromClient c.device.length

/-- One delivery after the other. -/
def receiveAll (c : Receiver) (deliveries : List (List Byte)) : Receiver :=
  deliveries.foldl (fun c delivery => (c.push delivery).readyRead) c

/-- The messages that are dispatched.  The others are null or empty. -/
def dispatched (c : Receiver) : List Read := c.reads.filter (·.message ≠ [])

end Receiver

/-! ## More bytes -/

section MoreBytes

variable {device more rest : List Byte}

namespace NetworkMagic

variable {m m' : NetworkMagic}

/-- Magic that was seen is seen as well if more bytes follow. -/
lemma lookForMagic_append (h : m.lookForMagic device = (true, m', rest)) (more : List Byte) :
    m.lookForMagic (device ++ more) = (true, m', rest ++ more) := by
  induction device generalizing m with
  | nil => cases h
  | cons b device ih =>
      unfold lookForMagic at h
      rw [List.cons_append, lookForMagic]
      split at h
      · next hb =>
          rw [if_pos hb]
          split at h
          · next hlast =>
              cases h
              rw [if_pos hlast]
          · next hlast =>
              rw [if_neg hlast]
              exact ih h
      · next hb =>
          rw [if_neg hb]
          exact ih h

/-- Where magic was not seen, the index is all that is kept of the bytes. -/
lemma lookForMagic_append_of_not (h : m.lookForMagic device = (false, m', rest))
    (more : List Byte) : rest = [] ∧ m'.magicGot = m.magicGot ∧
      m.lookForMagic (device ++ more) = m'.lookForMagic more := by
  induction device generalizing m with
  | nil =>
      cases h
      exact ⟨rfl, rfl, rfl⟩
  | cons b device ih =>
      unfold lookForMagic at h
      rw [List.cons_append, lookForMagic]
      split at h
      · next hb =>
          rw [if_pos hb]
          split at h
          · cases h
          · next hlast =>
              rw [if_neg hlast]
              exact ih h
      · next hb =>
          rw [if_neg hb]
          exact ih h

lemma length_lookForMagic_le (m : NetworkMagic) (device : List Byte) :
    (m.lookForMagic device).2.2.length ≤ device.length := by
  induction device generalizing m with
  | nil => exact Nat.le_refl 0
  | cons b device ih =>
      unfold lookForMagic
      rw [List.length_cons]
      split
      · split
        · exact Nat.le_succ _
        · exact Nat.le_succ_of_le (ih _)
      · exact Nat.le_succ_of_le (ih _)

/-- At least one byte was read. -/
lemma length_lookForMagic (h : m.lookForMagic device = (true, m', rest)) :
    rest.length < device.length ∧ m'.magicGot := by
  induction device generalizing m with
  | nil => cases h
  | cons b device ih =>
      unfold lookForMagic at h
      rw [List.length_cons]
      split at h
      · split at h
        · cases h
          exact ⟨Nat.lt_succ_self _, rfl⟩
        · obtain ⟨hlt, hgot⟩ := ih h
          exact ⟨Nat.lt_succ_of_lt hlt, hgot⟩
      · obtain ⟨hlt, hgot⟩ := ih h
        exact ⟨Nat.lt_succ_of_lt hlt, hgot⟩

end NetworkMagic

lemma quint32_append (h : 4 ≤ device.length) (more : List Byte) :
    quint32 (device ++ more) = quint32 device := by
  unfold quint32
  rw [List.take_append_of_le_length h]

lemma enough_iff : enoughBytesAreAvailableToReadTheByteArrayMessage device ↔
    4 ≤ device.length ∧ (quint32 device = 0xFFFFFFFF ∨ quint32 device + 4 ≤ device.length) := by
  unfold enoughBytesAreAvailableToReadTheByteArrayMessage
  split
  · next hshort => simp; omega
  · next hshort =>
      split
      · next hsize => simp; omega
      · next hsize => simp; omega

lemma enough_append (h : enoughBytesAreAvailableToReadTheByteArrayMessage device)
    (more : List Byte) : enoughBytesAreAvailableToReadTheByteArrayMessage (device ++ more) := by
  rw [enough_iff] at h ⊢
  rw [quint32_append h.1, List.length_append]
  omega

variable (device) in
lemma readByteArray_of_null (hle : 4 ≤ device.length) (hnull : quint32 device = 0xFFFFFFFF) :
    readByteArray device = ([], true, device.drop 4) := by
  unfold readByteArray
  rw [if_neg (by omega), if_pos hnull]

variable (device) in
lemma readByteArray_of_le (hle : quint32 device + 4 ≤ device.length)
    (hnull : quint32 device ≠ 0xFFFFFFFF) : readByteArray device =
      ((device.drop 4).take (quint32 device), true, (device.drop 4).drop (quint32 device)) := by
  unfold readByteArray
  rw [if_neg (by omega), if_neg hnull, if_neg (by omega)]

/-- **A read that is started** has all of its bytes, and does not see those that follow. -/
lemma readByteArray_append (h : enoughBytesAreAvailableToReadTheByteArrayMessage device)
    (more : List Byte) : (readByteArray device).2.1 = true ∧
      (readByteArray device).2.2.length + 4 ≤ device.length ∧
      readByteArray (device ++ more) =
        ((readByteArray device).1, true, (readByteArray device).2.2 ++ more) := by
  obtain ⟨hle, hsize⟩ := enough_iff.1 h
  have hquint32 := quint32_append hle more
  have hlength : (device ++ more).length = device.length + more.length := List.length_append
  by_cases hnull : quint32 device = 0xFFFFFFFF
  · rw [readByteArray_of_null _ hle hnull,
      readByteArray_of_null (device ++ more) (by omega) (hquint32.trans hnull),
      List.drop_append_of_le_length hle]
    refine ⟨rfl, ?_, rfl⟩
    simp only [List.length_drop]
    omega
  · have hsize := hsize.resolve_left hnull
    have hdrop : quint32 device ≤ (device.drop 4).length := by
      rw [List.length_drop]
      omega
    rw [readByteArray_of_le _ hsize hnull,
      readByteArray_of_le (device ++ more) (by omega) (by rwa [hquint32]), hquint32,
      List.drop_append_of_le_length hle, List.take_append_of_le_length hdrop,
      List.drop_append_of_le_length hdrop]
    refine ⟨rfl, ?_, rfl⟩
    simp only [List.length_drop]
    omega

end MoreBytes

namespace Receiver

variable {c : Receiver}

/-! ## The loop -/

lemma length_consumeMagic (c : Receiver) : c.consumeMagic.2.device.length ≤ c.device.length := by
  unfold consumeMagic NetworkMagic.consumeFromIODeviceByteByByteLookingForMagic
  dsimp only
  split
  · exact Nat.le_refl _
  · exact c.networkMagic.length_lookForMagic_le c.device

/-- A round that reads a message reads bytes. -/
lemma length_readMessage
    (henough : enoughBytesAreAvailableToReadTheByteArrayMessage c.consumeMagic.2.device) :
    c.consumeMagic.2.readMessage.device.length < c.device.length := by
  have hread := (readByteArray_append henough []).2.1
  have hmagic := c.length_consumeMagic
  unfold readMessage
  dsimp only
  omega

/-- **Enough rounds.** -/
theorem handleDataReceivedFromClient_eq {rounds : ℕ} (h : c.device.length ≤ rounds) :
    c.handleDataReceivedFromClient rounds = c.readyRead := by
  have hsame (n m : ℕ) (c : Receiver) (hn : c.device.length ≤ n) (hm : c.device.length ≤ m) :
      c.handleDataReceivedFromClient n = c.handleDataReceivedFromClient m := by
    induction n generalizing c m with
    | zero =>
        have hempty := List.length_eq_zero_iff.1 (Nat.le_zero.1 hn)
        cases m with
        | zero => rfl
        | succ m => rw [handleDataReceivedFromClient, handleDataReceivedFromClient, if_pos hempty]
    | succ n ih =>
        cases m with
        | zero =>
            have hempty := List.length_eq_zero_iff.1 (Nat.le_zero.1 hm)
            rw [handleDataReceivedFromClient, handleDataReceivedFromClient, if_pos hempty]
        | succ m =>
            rw [handleDataReceivedFromClient, handleDataReceivedFromClient]
            refine if_congr Iff.rfl rfl (if_congr Iff.rfl rfl ?_)
            split
            · rfl
            · next henough =>
                have hlt := length_readMessage (not_not.1 henough)
                exact ih m _ (by omega) (by omega)
  exact hsame _ _ c h (Nat.le_refl _)

/-- What a turn of the loop does. -/
lemma readyRead_eq (c : Receiver) : c.readyRead =
    if c.device = [] then c
    else if ¬ c.consumeMagic.1 then c.consumeMagic.2
    else if ¬ enoughBytesAreAvailableToReadTheByteArrayMessage c.consumeMagic.2.device then
      c.consumeMagic.2
    else c.consumeMagic.2.readMessage.readyRead := by
  rw [← handleDataReceivedFromClient_eq (Nat.le_succ c.device.length),
    handleDataReceivedFromClient]
  refine if_congr Iff.rfl rfl (if_congr Iff.rfl rfl ?_)
  split
  · rfl
  · next henough =>
      have hlt := length_readMessage (not_not.1 henough)
      exact handleDataReceivedFromClient_eq (by omega)

lemma readyRead_of_nil (h : c.device = []) : c.readyRead = c := by
  rw [c.readyRead_eq, if_pos h]

/-! ## More deliveries -/

@[simp] lemma push_nil (c : Receiver) : c.push [] = c := by
  simp [push]

lemma push_append (c : Receiver) (bytes more : List Byte) :
    c.push (bytes ++ more) = (c.push bytes).push more := by
  simp [push]

lemma consumeMagic_push (h : c.consumeMagic.1) (more : List Byte) :
    (c.push more).consumeMagic = (true, c.consumeMagic.2.push more) := by
  unfold consumeMagic NetworkMagic.consumeFromIODeviceByteByByteLookingForMagic at h ⊢
  by_cases hgot : c.networkMagic.magicGot
  · simp [push, hgot]
  · rw [if_neg hgot] at h ⊢
    have hlook : c.networkMagic.lookForMagic c.device = (true,
        (c.networkMagic.lookForMagic c.device).2.1, (c.networkMagic.lookForMagic c.device).2.2) :=
      Prod.ext h rfl
    have happend := NetworkMagic.lookForMagic_append hlook more
    simp [push, hgot, happend]
    omega

/-- Magic stays got until the message is read. -/
lemma consumeMagic_of_got (h : c.networkMagic.magicGot) : c.consumeMagic = (true, c) := by
  unfold consumeMagic NetworkMagic.consumeFromIODeviceByteByByteLookingForMagic
  simp [h]

lemma magicGot_consumeMagic (h : c.consumeMagic.1) : c.consumeMagic.2.networkMagic.magicGot := by
  unfold consumeMagic NetworkMagic.consumeFromIODeviceByteByByteLookingForMagic at h ⊢
  by_cases hgot : c.networkMagic.magicGot
  · simp [hgot]
  · rw [if_neg hgot] at h ⊢
    exact (NetworkMagic.length_lookForMagic (Prod.ext h rfl)).2

lemma consumeMagic_push_of_not (h : ¬ c.consumeMagic.1) (more : List Byte) :
    c.consumeMagic.2.device = [] ∧
      (c.push more).consumeMagic = (c.consumeMagic.2.push more).consumeMagic := by
  unfold consumeMagic NetworkMagic.consumeFromIODeviceByteByByteLookingForMagic at h ⊢
  by_cases hgot : c.networkMagic.magicGot
  · rw [if_pos hgot] at h
    exact absurd rfl h
  · rw [if_neg hgot] at h ⊢
    have hlook : c.networkMagic.lookForMagic c.device = (false,
        (c.networkMagic.lookForMagic c.device).2.1, (c.networkMagic.lookForMagic c.device).2.2) :=
      Prod.ext (Bool.eq_false_iff.2 h) rfl
    obtain ⟨hrest, hgot', happend⟩ := NetworkMagic.lookForMagic_append_of_not hlook more
    refine ⟨hrest, ?_⟩
    have hle := NetworkMagic.length_lookForMagic_le
      (c.networkMagic.lookForMagic c.device).2.1 more
    simp [push, hgot, hgot', happend, hrest]
    omega

lemma readMessage_push (h : enoughBytesAreAvailableToReadTheByteArrayMessage c.device)
    (more : List Byte) : (c.push more).readMessage = c.readMessage.push more := by
  obtain ⟨hcomplete, -, happend⟩ := readByteArray_append h more
  unfold readMessage push
  simp [happend, hcomplete]
  omega

/-- **A delivery may be cut anywhere.** -/
theorem readyRead_push (c : Receiver) (more : List Byte) :
    (c.push more).readyRead = (c.readyRead.push more).readyRead := by
  induction hn : c.device.length using Nat.strongRecOn generalizing c with
  | ind n ih =>
  by_cases hempty : c.device = []
  · rw [c.readyRead_eq, if_pos hempty]
  have hpush : (c.push more).device ≠ [] := by
    simp [push, hempty]
  rw [c.readyRead_eq, if_neg hempty]
  by_cases hmagic : c.consumeMagic.1
  · have hconsume := consumeMagic_push hmagic more
    rw [if_neg (not_not.2 hmagic)]
    by_cases henough : enoughBytesAreAvailableToReadTheByteArrayMessage c.consumeMagic.2.device
    · have hmore : enoughBytesAreAvailableToReadTheByteArrayMessage
          (c.consumeMagic.2.push more).device := enough_append henough more
      rw [if_neg (not_not.2 henough), ← ih _ (hn ▸ length_readMessage henough) _ rfl,
        (c.push more).readyRead_eq, if_neg hpush, hconsume, if_neg (by simp),
        if_neg (not_not.2 hmore), readMessage_push henough]
    · have hgot : (c.consumeMagic.2.push more).consumeMagic = (true, c.consumeMagic.2.push more) :=
        consumeMagic_of_got (magicGot_consumeMagic hmagic)
      rw [if_pos henough, (c.push more).readyRead_eq, if_neg hpush, hconsume,
        (c.consumeMagic.2.push more).readyRead_eq, hgot]
      by_cases hnil : (c.consumeMagic.2.push more).device = []
      · have hshort : ¬ enoughBytesAreAvailableToReadTheByteArrayMessage
            (c.consumeMagic.2.push more).device := by
          rw [hnil]
          decide
        rw [if_neg (by simp), if_pos hshort, if_pos hnil]
      · rw [if_neg hnil]
  · obtain ⟨hrest, hconsume⟩ := consumeMagic_push_of_not hmagic more
    rw [if_pos hmagic]
    by_cases hmore : more = []
    · subst hmore
      rw [push_nil, push_nil, c.readyRead_eq, if_neg hempty, if_pos hmagic,
        c.consumeMagic.2.readyRead_eq, if_pos hrest]
    · have hnil : (c.consumeMagic.2.push more).device ≠ [] := by
        simp [push, hmore]
      rw [(c.push more).readyRead_eq, if_neg hpush, (c.consumeMagic.2.push more).readyRead_eq,
        if_neg hnil, hconsume]

/-- **Only the stream matters**, not the deliveries it arrives in. -/
theorem receiveAll_eq (h : c.readyRead = c) (deliveries : List (List Byte)) :
    c.receiveAll deliveries = (c.push deliveries.flatten).readyRead := by
  have hreceive (c : Receiver) : c.readyRead.receiveAll deliveries =
      (c.push deliveries.flatten).readyRead := by
    induction deliveries generalizing c with
    | nil => simp [receiveAll]
    | cons delivery deliveries ih =>
        rw [receiveAll, List.foldl_cons, ← receiveAll, ← readyRead_push, ih, List.flatten_cons,
          push_append]
  rw [← hreceive, h]

end Receiver

end Autobackup.Network
