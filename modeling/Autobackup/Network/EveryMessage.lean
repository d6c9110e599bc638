import Autobackup.Network.Framing
import Mathlib.Data.List.Infix
import Mathlib.Algebra.Group.Nat.Defs

/-!
# Every message is recovered

Between two messages there may be garbage.  The search for magic does not go back: a byte that does
not continue what was matched is given up together with it.  So magic is overlooked when the garbage
before it ends in a match that has begun, and `FailedAttempts` says that it does not.

A receiver starts without a memory, and a delivery may end anywhere, also inside magic or inside a
size.  What is recovered are the messages with their contents and their order; a message is any
array whose size fits into 32 bits.
-/

namespace Autobackup.Network

/-- A `QByteArray` that is not empty. -/
abbrev Message := {message : List Byte // message ≠ [] ∧ message.length < 2 ^ 31}

/-- `<<` of a `quint32` -/
def bigEndian (n : ℕ) : List Byte :=
  [(n / 2 ^ 24).toUInt8, (n / 2 ^ 16).toUInt8, (n / 2 ^ 8).toUInt8, n.toUInt8]

/-- `streamOutMagic`, and `<<` of the message -/
def send (message : Message) : List Byte :=
  MagicExpected ++ (bigEndian message.1.length ++ message.1)

/-- Each message after some garbage, and garbage at the end. -/
def stream (parts : List (List Byte × Message)) (garbage : List Byte) : List Byte :=
  parts.flatMap (fun part => part.1 ++ send part.2) ++ garbage

/-- Magic does not begin in the garbage. -/
def MagicOnlyAfter (garbage : List Byte) : Prop :=
  ¬ MagicExpected <:+: garbage ++ MagicExpected.take 3
  deriving Decidable

/-- The reads that a connection owes, where `position` bytes were read before. -/
def owed : ℕ → List (List Byte × Message) → List Read
  | _, [] => []
  | position, (garbage, message) :: parts =>
      ⟨position + garbage.length + 4, message.1, true⟩ ::
        owed (position + garbage.length + 4 + (4 + message.1.length)) parts

/-- **Exactly the messages are dispatched**, each read where it was sent, and no read lacks bytes.
The messages come out whole, in their order, and nothing comes out besides. -/
structure Receiver.RecoversEveryMessage (c : Receiver) (parts : List (List Byte × Message)) :
    Prop where
  dispatched : c.dispatched = owed 0 parts
  complete : ∀ r ∈ c.reads, r.complete

/-- The condition: the garbage consists of attempts at magic, none of which is left unfinished. -/
inductive FailedAttempts : List Byte → Prop
  | nil : FailedAttempts []
  | attempt {garbage : List Byte} {n : ℕ} {b : Byte} (before : FailedAttempts garbage)
      (began : n < 4) (failed : MagicExpected[n]? ≠ some b) :
      FailedAttempts (garbage ++ MagicExpected.take n ++ [b])

namespace NetworkMagic

/-! ## Looking for magic in garbage -/

/-- An attempt leaves no trace. -/
lemma lookForMagic_attempt {n : ℕ} {b : Byte} (began : n < 4)
    (failed : MagicExpected[n]? ≠ some b) (rest : List Byte) :
    reset.lookForMagic (MagicExpected.take n ++ b :: rest) = reset.lookForMagic rest := by
  match n with
  | 0 => simp_all [MagicExpected, lookForMagic, reset, eq_comm]
  | 1 => simp_all [MagicExpected, lookForMagic, reset, eq_comm]
  | 2 => simp_all [MagicExpected, lookForMagic, reset, eq_comm]
  | 3 => simp_all [MagicExpected, lookForMagic, reset, eq_comm]

lemma lookForMagic_of_failedAttempts {garbage : List Byte} (h : FailedAttempts garbage)
    (rest : List Byte) : reset.lookForMagic (garbage ++ rest) = reset.lookForMagic rest := by
  induction h generalizing rest with
  | nil => rfl
  | attempt before began failed ih =>
      rw [List.append_assoc, List.append_assoc, ih]
      exact lookForMagic_attempt began failed rest

lemma lookForMagic_magic (rest : List Byte) :
    reset.lookForMagic (MagicExpected ++ rest) = (true, ⟨4, true⟩, rest) := by
  simp [MagicExpected, lookForMagic, reset]

/-- Magic is overlooked after an unfinished attempt. -/
lemma lookForMagic_overlooked {n : ℕ} (hpos : 0 < n) (hlt : n < 4) (rest : List Byte) :
    reset.lookForMagic (MagicExpected.take n ++ (MagicExpected ++ rest)) =
      reset.lookForMagic rest := by
  match n with
  | 1 => simp [MagicExpected, lookForMagic, reset]
  | 2 => simp [MagicExpected, lookForMagic, reset]
  | 3 => simp [MagicExpected, lookForMagic, reset]

end NetworkMagic

/-- Garbage without magic in it consists of failed attempts, and perhaps of an unfinished one. -/
lemma failedAttempts_or_unfinished {garbage : List Byte} (h : ¬ MagicExpected <:+: garbage) :
    FailedAttempts garbage ∨ ∃ before n, 0 < n ∧ n < 4 ∧ FailedAttempts before ∧
      garbage = before ++ MagicExpected.take n := by
  induction garbage using List.reverseRecOn with
  | nil => exact .inl .nil
  | append_singleton garbage b ih =>
      have hgarbage : ¬ MagicExpected <:+: garbage := fun hin =>
        h (hin.trans (List.prefix_append garbage [b]).isInfix)
      obtain ⟨before, n, hlt, hbefore, rfl⟩ : ∃ before n, n < 4 ∧ FailedAttempts before ∧
          garbage = before ++ MagicExpected.take n := by
        rcases ih hgarbage with hattempts | ⟨before, n, -, hlt, hbefore, heq⟩
        · exact ⟨garbage, 0, by omega, hattempts, by simp⟩
        · exact ⟨before, n, hlt, hbefore, heq⟩
      by_cases hb : MagicExpected[n]? = some b
      · have htake : MagicExpected.take n ++ [b] = MagicExpected.take (n + 1) := by
          rw [List.take_add_one, hb]
          rfl
        rw [List.append_assoc, htake] at h ⊢
        refine .inr ⟨before, n + 1, by omega, ?_, hbefore, rfl⟩
        by_contra hfour
        obtain rfl : n = 3 := by omega
        exact h ⟨before, [], by simp [MagicExpected]⟩
      · exact .inl (.attempt hbefore hlt hb)

/-! ## Reading a message -/

lemma length_bigEndian (n : ℕ) : (bigEndian n).length = 4 := rfl

lemma quint32_bigEndian {n : ℕ} (h : n < 2 ^ 32) (rest : List Byte) :
    quint32 (bigEndian n ++ rest) = n := by
  simp [quint32, bigEndian]
  omega

lemma readByteArray_send (message : Message) (rest : List Byte) :
    enoughBytesAreAvailableToReadTheByteArrayMessage
        (bigEndian message.1.length ++ (message.1 ++ rest)) ∧
      readByteArray (bigEndian message.1.length ++ (message.1 ++ rest)) =
        (message.1, true, rest) := by
  have hlt := message.2.2
  have hsize := quint32_bigEndian (n := message.1.length) (by omega) (message.1 ++ rest)
  have hle : quint32 (bigEndian message.1.length ++ (message.1 ++ rest)) + 4 ≤
      (bigEndian message.1.length ++ (message.1 ++ rest)).length := by
    rw [hsize, List.length_append, length_bigEndian, List.length_append]
    omega
  refine ⟨enough_iff.2 ⟨by omega, .inr hle⟩, ?_⟩
  rw [readByteArray_of_le _ hle (by omega), hsize]
  simp [bigEndian]

namespace Receiver

/-- A connection between two messages. -/
def between (position : ℕ) (reads : List Read) (device : List Byte) : Receiver where
  device := device
  position := position
  reads := reads

variable {position : ℕ} {reads : List Read} {garbage rest : List Byte}

/-- Bytes of which the search for magic keeps nothing. -/
lemma readyRead_skip {before : List Byte}
    (h : NetworkMagic.reset.lookForMagic (before ++ rest) = NetworkMagic.reset.lookForMagic rest) :
    (between position reads (before ++ rest)).readyRead =
      (between (position + before.length) reads rest).readyRead := by
  have hle := NetworkMagic.length_lookForMagic_le NetworkMagic.reset rest
  have hconsume : (between position reads (before ++ rest)).consumeMagic =
      (between (position + before.length) reads rest).consumeMagic := by
    unfold consumeMagic NetworkMagic.consumeFromIODeviceByteByByteLookingForMagic between
    unfold NetworkMagic.reset at h hle
    simp [h]
    omega
  by_cases hrest : rest = []
  · subst hrest
    rw [readyRead_of_nil (c := between (position + before.length) reads []) rfl]
    by_cases hbefore : before = []
    · subst hbefore
      exact readyRead_of_nil rfl
    · rw [readyRead_eq, if_neg (by simpa [between] using hbefore), hconsume,
        if_pos (by simp [consumeMagic, between,
          NetworkMagic.consumeFromIODeviceByteByByteLookingForMagic, NetworkMagic.lookForMagic])]
      rfl
  · have hdevice : (between (position + before.length) reads rest).device ≠ [] := hrest
    rw [readyRead_eq, if_neg (by simp [between, hrest]), hconsume,
      (between (position + before.length) reads rest).readyRead_eq, if_neg hdevice]

/-- **A message is read** if no attempt at magic is left unfinished before it. -/
lemma readyRead_message (h : FailedAttempts garbage) (message : Message) :
    (between position reads (garbage ++ (send message ++ rest))).readyRead =
      (between (position + garbage.length + 4 + (4 + message.1.length))
        (reads ++ [⟨position + garbage.length + 4, message.1, true⟩]) rest).readyRead := by
  obtain ⟨henough, hread⟩ := readByteArray_send message rest
  rw [readyRead_skip (NetworkMagic.lookForMagic_of_failedAttempts h _)]
  have hconsume : (between (position + garbage.length) reads (send message ++ rest)).consumeMagic =
      (true, { networkMagic := ⟨4, true⟩
               device := bigEndian message.1.length ++ (message.1 ++ rest)
               position := position + garbage.length + 4
               reads := reads }) := by
    have hmagic := NetworkMagic.lookForMagic_magic
      (bigEndian message.1.length ++ (message.1 ++ rest))
    unfold NetworkMagic.reset at hmagic
    unfold consumeMagic NetworkMagic.consumeFromIODeviceByteByByteLookingForMagic between send
    simp [hmagic]
    simp [MagicExpected]
  rw [readyRead_eq, if_neg (by simp [between, send, MagicExpected]), hconsume, if_neg (by simp),
    if_neg (not_not.2 henough)]
  unfold readMessage
  rw [hread]
  refine congrArg readyRead ?_
  simp [between, NetworkMagic.reset, length_bigEndian]
  omega

/-- Garbage at the end. -/
lemma reads_of_garbage (h : ¬ MagicExpected <:+: garbage) :
    (between position reads garbage).readyRead.reads = reads := by
  obtain ⟨before, n, hlt, hbefore, rfl⟩ : ∃ before n, n < 4 ∧ FailedAttempts before ∧
      garbage = before ++ MagicExpected.take n := by
    rcases failedAttempts_or_unfinished h with hattempts | ⟨before, n, -, hlt, hbefore, heq⟩
    · exact ⟨garbage, 0, by omega, hattempts, by simp⟩
    · exact ⟨before, n, hlt, hbefore, heq⟩
  rw [readyRead_skip (NetworkMagic.lookForMagic_of_failedAttempts hbefore _), readyRead_eq]
  match n with
  | 0 => rfl
  | 1 => rfl
  | 2 => rfl
  | 3 => rfl

/-! ## Every read -/

/-- Between two messages, a read starts after the magic before it, and lacks no bytes. -/
lemma position_of_mem_reads {c : Receiver} (hgot : c.networkMagic.magicGot = false) {r : Read}
    (hr : r ∈ c.readyRead.reads) : r ∈ c.reads ∨ c.position < r.position ∧ r.complete := by
  induction hn : c.device.length using Nat.strongRecOn generalizing c with
  | ind n ih =>
  have hsame : c.consumeMagic.2.reads = c.reads := rfl
  rw [readyRead_eq] at hr
  split at hr
  · exact .inl hr
  · split at hr
    · exact .inl hr
    · next hmagic =>
        split at hr
        · exact .inl hr
        · next henough =>
            rw [not_not] at hmagic henough
            have hlater : c.position < c.consumeMagic.2.position := by
              unfold consumeMagic NetworkMagic.consumeFromIODeviceByteByByteLookingForMagic
                at hmagic ⊢
              rw [hgot, if_neg Bool.false_ne_true] at hmagic ⊢
              have hlt : (c.networkMagic.lookForMagic c.device).2.2.length < c.device.length :=
                (NetworkMagic.length_lookForMagic (Prod.ext hmagic rfl)).1
              dsimp only
              omega
            rcases ih _ (hn ▸ length_readMessage henough) rfl hr rfl with hr | hr
            · rcases List.mem_append.1 hr with hr | hr
              · exact .inl hr
              · obtain rfl := List.mem_singleton.1 hr
                exact .inr ⟨hlater, (readByteArray_append henough []).1⟩
            · refine .inr ⟨?_, hr.2⟩
              exact Nat.lt_of_lt_of_le hlater
                (Nat.le_trans (Nat.le_add_right _ _) (Nat.le_of_lt hr.1))

/-! ## The whole stream -/

lemma owed_of_mem {parts : List (List Byte × Message)} {r : Read} (hr : r ∈ owed position parts) :
    r.message ≠ [] ∧ r.complete := by
  induction parts generalizing position with
  | nil => cases hr
  | cons part parts ih =>
      rcases List.mem_cons.1 hr with rfl | hr
      · exact ⟨part.2.2.1, rfl⟩
      · exact ih hr

lemma stream_cons (garbage : List Byte) (message : Message) (parts : List (List Byte × Message))
    (rest : List Byte) : stream ((garbage, message) :: parts) rest =
      garbage ++ (send message ++ stream parts rest) := by
  simp [stream]

variable {parts : List (List Byte × Message)}

variable (position reads) in
lemma reads_of_failedAttempts (hrest : ¬ MagicExpected <:+: rest)
    (h : ∀ part ∈ parts, FailedAttempts part.1) :
    (between position reads (stream parts rest)).readyRead.reads =
      reads ++ owed position parts := by
  induction parts generalizing position reads with
  | nil => simpa [stream, owed] using reads_of_garbage hrest
  | cons part parts ih =>
      obtain ⟨garbage, message⟩ := part
      rw [stream_cons, readyRead_message (h _ List.mem_cons_self),
        ih _ _ fun part hpart => h part (List.mem_cons_of_mem _ hpart), owed]
      simp

/-- **Magic is overlooked** after an unfinished attempt, and the message is not read. -/
lemma not_mem_reads (hgarbage : ¬ MagicExpected <:+: garbage) (h : ¬ FailedAttempts garbage)
    (message : Message) {r : Read}
    (hr : r ∈ (between position reads (garbage ++ (send message ++ rest))).readyRead.reads) :
    r ∈ reads ∨ position + garbage.length + 4 < r.position := by
  obtain ⟨before, n, hpos, hlt, hbefore, rfl⟩ :=
    (failedAttempts_or_unfinished hgarbage).resolve_left h
  have hoverlooked := NetworkMagic.lookForMagic_overlooked hpos hlt
    (bigEndian message.1.length ++ (message.1 ++ rest))
  rw [← List.append_assoc] at hoverlooked
  have hsplit : before ++ MagicExpected.take n ++ (send message ++ rest) =
      before ++ (MagicExpected.take n ++ MagicExpected ++
        (bigEndian message.1.length ++ (message.1 ++ rest))) := by
    simp [send]
  rw [hsplit, readyRead_skip (NetworkMagic.lookForMagic_of_failedAttempts hbefore _),
    readyRead_skip hoverlooked] at hr
  refine (position_of_mem_reads rfl hr).imp_right fun hafter => ?_
  have hlater := hafter.1
  simp only [between, List.length_append] at hlater ⊢
  simp [MagicExpected] at hlater ⊢
  omega

variable (position reads) in
/-- A message that is not read although it is owed. -/
lemma exists_owed_of_not_failedAttempts (hparts : ∀ part ∈ parts, MagicOnlyAfter part.1)
    (h : ¬ ∀ part ∈ parts, FailedAttempts part.1) (hreads : ∀ r ∈ reads, r.position < position) :
    ∃ r ∈ owed position parts,
      r ∉ (between position reads (stream parts rest)).readyRead.reads := by
  induction parts generalizing position reads with
  | nil => exact absurd (by simp) h
  | cons part parts ih =>
      obtain ⟨garbage, message⟩ := part
      rw [stream_cons]
      by_cases hgarbage : FailedAttempts garbage
      · have hlater : ¬ ∀ part ∈ parts, FailedAttempts part.1 := by
          intro hall
          refine h fun part hpart => ?_
          rcases List.mem_cons.1 hpart with rfl | hpart
          · exact hgarbage
          · exact hall part hpart
        rw [readyRead_message hgarbage]
        obtain ⟨r, hr, hnot⟩ := ih (position + garbage.length + 4 + (4 + message.1.length))
          (reads ++ [⟨position + garbage.length + 4, message.1, true⟩])
          (fun part hpart => hparts part (List.mem_cons_of_mem _ hpart)) hlater (by
            intro r hr
            rcases List.mem_append.1 hr with hr | hr
            · have hlt := hreads r hr
              omega
            · obtain rfl := List.mem_singleton.1 hr
              dsimp only
              omega)
        exact ⟨r, List.mem_cons_of_mem _ hr, hnot⟩
      · refine ⟨_, List.mem_cons_self, fun hr => ?_⟩
        have hmagic := hparts _ List.mem_cons_self
        rcases not_mem_reads (fun hin => hmagic (hin.trans (List.prefix_append _ _).isInfix))
          hgarbage message hr with hr | hr
        · have hlt := hreads _ hr
          dsimp only at hlt
          omega
        · exact Nat.lt_irrefl _ hr

/-- **Every message is recovered**, from any deliveries, if and only if no attempt at magic is left
unfinished where magic begins.

Garbage may have any bytes, as long as there is no magic in it.  The condition is about the garbage
alone.  Where it ends in an attempt that is not finished, the first byte of the magic behind it is
taken for the failure of that attempt, and the message is not found. -/
theorem recovers_every_message_iff (parts : List (List Byte × Message)) (garbage : List Byte)
    (deliveries : List (List Byte)) (hparts : ∀ part ∈ parts, MagicOnlyAfter part.1)
    (hgarbage : MagicOnlyAfter garbage) (hstream : deliveries.flatten = stream parts garbage) :
    (receiveAll {} deliveries).RecoversEveryMessage parts ↔
      ∀ part ∈ parts, FailedAttempts part.1 := by
  have hreceive : receiveAll {} deliveries = (between 0 [] (stream parts garbage)).readyRead := by
    rw [receiveAll_eq rfl, hstream]
    rfl
  rw [hreceive]
  constructor
  · intro hrecovers
    by_contra hnot
    obtain ⟨r, hr, hmissing⟩ := exists_owed_of_not_failedAttempts 0 [] hparts hnot (by simp)
    rw [← hrecovers.dispatched] at hr
    exact hmissing (List.mem_of_mem_filter hr)
  · intro hattempts
    have hreads := reads_of_failedAttempts 0 []
      (fun hin => hgarbage (hin.trans (List.prefix_append _ _).isInfix)) hattempts
    rw [List.nil_append] at hreads
    refine ⟨?_, fun r hr => (owed_of_mem (hreads ▸ hr)).2⟩
    unfold dispatched
    rw [hreads, List.filter_eq_self]
    exact fun r hr => decide_eq_true (owed_of_mem hr).1

/-- A message after one byte that looks like the beginning of magic. -/
def oneByteBefore : List (List Byte × Message) := [([70], ⟨[0], by decide⟩)]

theorem not_recovers_every_message : ¬ ∀ parts garbage deliveries,
    (∀ part ∈ parts, MagicOnlyAfter part.1) → MagicOnlyAfter garbage →
      deliveries.flatten = stream parts garbage →
        (receiveAll {} deliveries).RecoversEveryMessage parts := by
  intro hrecovers
  have hnothing := (hrecovers oneByteBefore [] [stream oneByteBefore []] (by decide) (by decide)
    (by decide)).dispatched
  exact absurd hnothing (by decide)

/-- Two messages, with an attempt at magic before the first one. -/
def twoMessages : List (List Byte × Message) :=
  [([70, 85, 1], ⟨[0], by decide⟩), ([], ⟨[4, 5], by decide⟩)]

theorem recovers_every_message_twoMessages :
    (receiveAll {} [[70], [85, 1, 70, 85], [67, 75, 0, 0, 0, 1, 0, 70, 85, 67], [],
      [75, 0, 0, 0, 2, 4], [5]]).RecoversEveryMessage twoMessages := by
  refine (recovers_every_message_iff twoMessages [] _ (by decide) (by decide) (by decide)).2 ?_
  have hattempt : FailedAttempts [70, 85, 1] :=
    .attempt (n := 2) (b := 1) .nil (by decide) (by decide)
  intro part hpart
  rcases List.mem_cons.1 hpart with rfl | hpart
  · exact hattempt
  · obtain rfl := List.mem_singleton.1 hpart
    exact .nil

end Receiver

end Autobackup.Network
