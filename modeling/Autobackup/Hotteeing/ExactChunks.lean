import Autobackup.Foundation.Machine
import Autobackup.Hotteeing.ReadLoop

/-!
# The stream is cut into exact chunks

The position in the stream, what the output process received and what the files contain agree
after every turn of the loop, whatever the commands are (`InStep`).

What a call does not do is to consume all that was available, once a chunk ends and nothing is
written: the loop is left then, as if the input process could not be read.  `BoundariesWritten` says
that no call gets there, and is the exact condition (`cuts_exactly_iff`).

A byte of the stream is in one place only: with the output process, in a chunk file, or still
unread, and the three have to fit together at every boundary of a hundred megabytes.  Left out are
I/O errors and full disks; a destination has room (`SpaceLeft`).
-/

namespace Autobackup.Hotteeing

variable {space : Space} {joinPoint bytesAvailable n sizeToRead chunk : ℕ} {st st' : Hottee}
  {bytes readChunk : List UInt8}

/-- What the stream has for a chunk. -/
def chunkOf (joinPoint chunk : ℕ) (bytes : List UInt8) : List UInt8 :=
  (bytes.drop ((chunk - joinPoint) * ONE_HUNDRED_MEGABYTES)).take ONE_HUNDRED_MEGABYTES

lemma chunkOf_append (h : (chunk - joinPoint + 1) * ONE_HUNDRED_MEGABYTES ≤ bytes.length) :
    chunkOf joinPoint chunk (bytes ++ readChunk) = chunkOf joinPoint chunk bytes := by
  have hend : (chunk - joinPoint + 1) * ONE_HUNDRED_MEGABYTES =
      (chunk - joinPoint) * ONE_HUNDRED_MEGABYTES + ONE_HUNDRED_MEGABYTES := Nat.succ_mul _ _
  rw [chunkOf, List.drop_append_of_le_length (by omega),
    List.take_append_of_le_length (by rw [List.length_drop]; omega)]
  rfl

/-- The chunk that the stream is in. -/
lemma chunkOf_append_last {offset : ℕ}
    (h : (chunk - joinPoint) * ONE_HUNDRED_MEGABYTES + offset = bytes.length)
    (hoffset : offset + readChunk.length ≤ ONE_HUNDRED_MEGABYTES) :
    chunkOf joinPoint chunk (bytes ++ readChunk) = chunkOf joinPoint chunk bytes ++ readChunk := by
  have hlength : (bytes.drop ((chunk - joinPoint) * ONE_HUNDRED_MEGABYTES)).length = offset := by
    rw [List.length_drop]
    omega
  rw [chunkOf, List.drop_append_of_le_length (by omega),
    List.take_of_length_le (by rw [List.length_append]; omega), chunkOf,
    List.take_of_length_le (by omega)]

lemma chunkOf_eq_nil (h : bytes.length ≤ (chunk - joinPoint) * ONE_HUNDRED_MEGABYTES) :
    chunkOf joinPoint chunk bytes = [] := by
  rw [chunkOf, List.drop_eq_nil_of_le h, List.take_nil]

/-! ## In step -/

/-- The position, the output process and the files agree with the stream. -/
structure Counted (joinPoint : ℕ) (st : Hottee) : Prop where
  offset_le : st.current100mbChunkWriteOffset ≤ ONE_HUNDRED_MEGABYTES
  joined : joinPoint ≤ st.chunkOffsetForFilename
  position : (st.chunkOffsetForFilename - joinPoint) * ONE_HUNDRED_MEGABYTES +
    st.current100mbChunkWriteOffset = st.consumed.length
  received : st.writeToOutputProcess = true →
    st.formerOutputProcesses.flatten ++ st.outputProcess = st.consumed
  files : ∀ file content, st.files file = some content →
    joinPoint ≤ file.chunk ∧ file.chunk ≤ st.chunkOffsetForFilename ∧
      content = chunkOf joinPoint file.chunk st.consumed
  quit : st.quitAfterThisChunkFinishes = false

/-- The chunk has a file while it is written, and none while it is not. -/
structure InStep (joinPoint : ℕ) (st : Hottee) : Prop extends Counted joinPoint st where
  writing : st.currentlyWritingToEitherDestination = true →
    ∃ destination, st.currentOutputFile = some ⟨destination, st.chunkOffsetForFilename⟩ ∧
      ∀ destination', (st.files ⟨destination', st.chunkOffsetForFilename⟩).isSome ↔
        destination' = destination
  notWriting : st.currentlyWritingToEitherDestination = false →
    ∀ destination, st.files ⟨destination, st.chunkOffsetForFilename⟩ = none
  starts : st.startWritingAtBeginningOfNextChunk = true →
    st.currentlyWritingToEitherDestination = false

lemma Counted.restartOutputProcess (h : Counted joinPoint st) :
    Counted joinPoint st.restartOutputProcess := by
  refine ⟨h.offset_le, h.joined, h.position, fun hwrite => ?_, h.files, h.quit⟩
  show (if st.restartOutputProcessOnNextChunkStart then
      st.formerOutputProcesses ++ [st.outputProcess] else st.formerOutputProcesses).flatten ++
    (if st.restartOutputProcessOnNextChunkStart then [] else st.outputProcess) = st.consumed
  split
  · rw [List.flatten_append, List.flatten_singleton, List.append_nil]
    exact h.received hwrite
  · exact h.received hwrite

lemma Counted.nextChunk (h : Counted joinPoint st)
    (hfull : st.current100mbChunkWriteOffset = ONE_HUNDRED_MEGABYTES) :
    Counted joinPoint st.nextChunk where
  offset_le := Nat.zero_le _
  joined := Nat.le_succ_of_le h.joined
  position := by
    have hposition := h.position
    have hnext : (st.chunkOffsetForFilename + 1 - joinPoint) * ONE_HUNDRED_MEGABYTES =
        (st.chunkOffsetForFilename - joinPoint) * ONE_HUNDRED_MEGABYTES +
          ONE_HUNDRED_MEGABYTES := by
      rw [Nat.succ_sub h.joined, Nat.succ_mul]
    show (st.chunkOffsetForFilename + 1 - joinPoint) * ONE_HUNDRED_MEGABYTES + 0 =
      st.consumed.length
    omega
  received := h.received
  files := fun file content hfile => by
    obtain ⟨hfirst, hlast, hcontent⟩ := h.files file content hfile
    exact ⟨hfirst, Nat.le_succ_of_le hlast, hcontent⟩
  quit := h.quit

/-- No file is there before its chunk starts. -/
lemma Counted.files_eq_none (h : Counted joinPoint st) {file : ChunkFile}
    (hfile : st.chunkOffsetForFilename < file.chunk) : st.files file = none := by
  by_contra hsome
  obtain ⟨content, hcontent⟩ := Option.ne_none_iff_exists'.1 hsome
  exact absurd (h.files file content hcontent).2.1 (Nat.not_le.2 hfile)

/-! ## The turns -/

lemma Counted.chunkOf_of_lt (h : Counted joinPoint st) {file : ChunkFile}
    (hjoined : joinPoint ≤ file.chunk) (hfile : file.chunk < st.chunkOffsetForFilename) :
    chunkOf joinPoint file.chunk (st.consumed ++ readChunk) =
      chunkOf joinPoint file.chunk st.consumed := by
  refine chunkOf_append ?_
  have hposition := h.position
  have hmul : (file.chunk - joinPoint + 1) * ONE_HUNDRED_MEGABYTES ≤
      (st.chunkOffsetForFilename - joinPoint) * ONE_HUNDRED_MEGABYTES :=
    Nat.mul_le_mul_right _ (by omega)
  omega

/-- Only the file of the chunk grows. -/
lemma InStep.files_read (h : InStep joinPoint st)
    (hoffset : st.current100mbChunkWriteOffset + readChunk.length ≤ ONE_HUNDRED_MEGABYTES) :
    (∀ file content, (st.writeToFile readChunk).files file = some content →
      joinPoint ≤ file.chunk ∧ file.chunk ≤ st.chunkOffsetForFilename ∧
        content = chunkOf joinPoint file.chunk (st.consumed ++ readChunk)) ∧
    ∀ file, ((st.writeToFile readChunk).files file).isSome = (st.files file).isSome := by
  by_cases hwriting : st.currentlyWritingToEitherDestination = true
  · obtain ⟨destination, hopen, hunique⟩ := h.writing hwriting
    obtain ⟨content, hcontent⟩ := Option.isSome_iff_exists.1 ((hunique destination).2 rfl)
    obtain ⟨hjoined, -, hsame⟩ := h.files _ _ hcontent
    have hfiles : (st.writeToFile readChunk).files = Function.update st.files
        ⟨destination, st.chunkOffsetForFilename⟩ (some (content ++ readChunk)) := by
      simp only [Hottee.writeToFile, hwriting, hopen, hcontent, Option.map_some]
    rw [hfiles]
    constructor
    · intro file content' hfile
      by_cases heq : file = ⟨destination, st.chunkOffsetForFilename⟩
      · subst heq
        rw [Function.update_self, Option.some_inj] at hfile
        refine ⟨hjoined, Nat.le_refl _, ?_⟩
        rw [← hfile, hsame, chunkOf_append_last h.position hoffset]
      · rw [Function.update_of_ne heq] at hfile
        obtain ⟨hfirst, hlast, hsame'⟩ := h.files file content' hfile
        have hother : file.chunk ≠ st.chunkOffsetForFilename := fun hchunk => by
          obtain ⟨destination', chunk'⟩ := file
          subst hchunk
          have hdestination := (hunique destination').1 (Option.isSome_iff_exists.2 ⟨_, hfile⟩)
          exact heq (congrArg (ChunkFile.mk · _) hdestination)
        refine ⟨hfirst, hlast, ?_⟩
        rw [hsame', h.chunkOf_of_lt hfirst (Nat.lt_of_le_of_ne hlast hother)]
    · intro file
      by_cases heq : file = ⟨destination, st.chunkOffsetForFilename⟩
      · subst heq
        rw [Function.update_self, hcontent]
        rfl
      · rw [Function.update_of_ne heq]
  · rw [Bool.not_eq_true] at hwriting
    have hfiles : (st.writeToFile readChunk).files = st.files := by
      simp only [Hottee.writeToFile, hwriting]
    rw [hfiles]
    refine ⟨fun file content hfile => ?_, fun file => rfl⟩
    obtain ⟨hfirst, hlast, hsame⟩ := h.files file content hfile
    have hother : file.chunk ≠ st.chunkOffsetForFilename := fun hchunk => by
      obtain ⟨destination, chunk'⟩ := file
      subst hchunk
      rw [h.notWriting hwriting] at hfile
      exact Option.some_ne_none _ hfile.symm
    refine ⟨hfirst, hlast, ?_⟩
    rw [hsame, h.chunkOf_of_lt hfirst (Nat.lt_of_le_of_ne hlast hother)]

/-- A turn that reads. -/
lemma InStep.read (h : InStep joinPoint st) (hpos : 0 < sizeToRead)
    (havailable : sizeToRead ≤ st.unread.length)
    (hoffset : st.current100mbChunkWriteOffset + sizeToRead ≤ ONE_HUNDRED_MEGABYTES) :
    ∃ st', readAndWrite bytesAvailable sizeToRead st =
        .continues (bytesAvailable - sizeToRead) st' ∧ InStep joinPoint st' ∧
      st'.unread = st.unread.drop sizeToRead ∧
      st'.current100mbChunkWriteOffset = st.current100mbChunkWriteOffset + sizeToRead ∧
      st'.currentlyWritingToEitherDestination = st.currentlyWritingToEitherDestination ∧
      st'.startWritingAtBeginningOfNextChunk = st.startWritingAtBeginningOfNextChunk ∧
      st'.stopWritingAtEndOfThisChunk = st.stopWritingAtEndOfThisChunk := by
  have hlength : (st.unread.take sizeToRead).length = sizeToRead :=
    List.length_take_of_le havailable
  have hopen : ¬ (st.currentlyWritingToEitherDestination = true ∧ st.currentOutputFile = none) := by
    rintro ⟨hwriting, hclosed⟩
    obtain ⟨destination, hfile, -⟩ := h.writing hwriting
    rw [hclosed] at hfile
    exact Option.some_ne_none _ hfile.symm
  have hfits : st.current100mbChunkWriteOffset + (st.unread.take sizeToRead).length ≤
      ONE_HUNDRED_MEGABYTES := by omega
  obtain ⟨hfiles, hsome⟩ := h.files_read hfits
  refine ⟨(((st.read sizeToRead).writeToOutput (st.unread.take sizeToRead)).writeToFile
    (st.unread.take sizeToRead)).advance (st.unread.take sizeToRead).length, ?_, ?_, rfl, ?_, rfl,
    rfl, rfl⟩
  · rw [readAndWrite, hlength, if_neg (by omega)]
    exact if_neg hopen
  · refine ⟨⟨?_, h.joined, ?_, fun hwrite => ?_, hfiles, h.quit⟩, fun hwriting => ?_,
      fun hwriting destination => ?_, h.starts⟩
    · exact hfits
    · show (st.chunkOffsetForFilename - joinPoint) * ONE_HUNDRED_MEGABYTES +
        (st.current100mbChunkWriteOffset + (st.unread.take sizeToRead).length) =
          (st.consumed ++ st.unread.take sizeToRead).length
      rw [List.length_append, ← h.position, Nat.add_assoc]
    · have hwrite' : st.writeToOutputProcess = true := hwrite
      show st.formerOutputProcesses.flatten ++ (if st.writeToOutputProcess then
        st.outputProcess ++ st.unread.take sizeToRead else st.outputProcess) = _
      rw [if_pos hwrite', ← List.append_assoc, h.received hwrite']
      rfl
    · obtain ⟨destination, hfile, hunique⟩ := h.writing hwriting
      refine ⟨destination, hfile, fun destination' => ?_⟩
      rw [← hunique destination']
      exact iff_of_eq (congrArg (· = true) (hsome _))
    · have hnone := hsome ⟨destination, st.chunkOffsetForFilename⟩
      rw [h.notWriting hwriting destination] at hnone
      exact Option.isNone_iff_eq_none.1 (Option.isSome_eq_false_iff.1 hnone)
  · show _ + (st.unread.take sizeToRead).length = _
    rw [hlength]
    rfl

/-- What a chunk starts with: no file is there yet. -/
lemma InStep.startChunk (h : InStep joinPoint st)
    (hfull : st.current100mbChunkWriteOffset = ONE_HUNDRED_MEGABYTES) :
    Counted joinPoint st.nextChunk.restartOutputProcess ∧
      ∀ destination, st.nextChunk.restartOutputProcess.files
        ⟨destination, st.chunkOffsetForFilename + 1⟩ = none :=
  ⟨(h.toCounted.nextChunk hfull).restartOutputProcess,
    fun _ => h.toCounted.files_eq_none (Nat.lt_succ_self _)⟩

/-- The file that is flushed at the end of a chunk is open. -/
lemma InStep.flushes (h : InStep joinPoint st)
    (hwriting : st.startWritingAtBeginningOfNextChunk = true ∨
      st.currentlyWritingToEitherDestination = true) :
    ¬ (st.startWritingAtBeginningOfNextChunk = false ∧ st.currentOutputFile = none) := by
  rintro ⟨hstart, hclosed⟩
  rw [hstart] at hwriting
  obtain ⟨destination, hfile, -⟩ := h.writing (hwriting.resolve_left Bool.false_ne_true)
  rw [hclosed] at hfile
  exact Option.some_ne_none _ hfile.symm

/-- A chunk ends with the command to stop. -/
lemma InStep.syncPoint_stop (h : InStep joinPoint st)
    (hfull : st.current100mbChunkWriteOffset = ONE_HUNDRED_MEGABYTES)
    (hwriting : st.startWritingAtBeginningOfNextChunk = true ∨
      st.currentlyWritingToEitherDestination = true)
    (hstop : st.stopWritingAtEndOfThisChunk = true) :
    ∃ st', syncPoint space bytesAvailable sizeToRead st = .continues bytesAvailable st' ∧
      InStep joinPoint st' ∧ st'.unread = st.unread ∧ st'.current100mbChunkWriteOffset = 0 ∧
      st'.currentlyWritingToEitherDestination = false ∧
      st'.startWritingAtBeginningOfNextChunk = false := by
  obtain ⟨hcounted, hnone⟩ := h.startChunk hfull
  refine ⟨st.nextChunk.restartOutputProcess.closeFile.stopWriting, ?_, ?_, rfl, rfl, rfl, rfl⟩
  · have hquit : ¬ st.quitAfterThisChunkFinishes = true := by
      rw [h.quit]
      exact Bool.false_ne_true
    unfold syncPoint
    exact (if_pos hwriting).trans ((if_neg (h.flushes hwriting)).trans
      ((if_neg hquit).trans (if_pos hstop)))
  · exact ⟨⟨hcounted.offset_le, hcounted.joined, hcounted.position, hcounted.received,
      hcounted.files, hcounted.quit⟩, fun hwriting => absurd hwriting Bool.false_ne_true,
      fun _ => hnone, fun _ => rfl⟩

lemma Destination.eq_other {destination destination' : Destination}
    (h : destination ≠ destination') : destination = destination'.other := by
  cases destination <;> cases destination' <;> first | rfl | exact absurd rfl h

/-- If one of the destinations has space, it is chosen. -/
lemma chooseDestination_space {available : Destination → ℕ} (destination : Destination)
    (hspace : ∃ destination', ONE_HUNDRED_MEGABYTES ≤ available destination') :
    ¬ available (if available destination < ONE_HUNDRED_MEGABYTES then destination.other
      else destination) < ONE_HUNDRED_MEGABYTES := by
  split
  · next hfull =>
      obtain ⟨destination', havailable⟩ := hspace
      have hne : destination' ≠ destination := fun heq => by
        rw [heq] at havailable
        omega
      rw [← Destination.eq_other hne]
      omega
  · next hfree => exact hfree

/-- The file of a chunk that has just started. -/
lemma Counted.createAndOpen (h : Counted joinPoint st)
    (hstarts : st.current100mbChunkWriteOffset = 0)
    (hnone : ∀ destination, st.files ⟨destination, st.chunkOffsetForFilename⟩ = none)
    (hwriting : st.currentlyWritingToEitherDestination = true)
    (hstart : st.startWritingAtBeginningOfNextChunk = false) :
    InStep joinPoint st.createAndOpen100mbFileAtCurrentDestination := by
  have hfiles : st.createAndOpen100mbFileAtCurrentDestination.files = Function.update st.files
      ⟨st.currentDestination, st.chunkOffsetForFilename⟩ (some []) := rfl
  refine ⟨⟨h.offset_le, h.joined, h.position, h.received, fun file content hfile => ?_, h.quit⟩,
    fun _ => ⟨st.currentDestination, rfl, fun destination' => ?_⟩,
    fun hnot => absurd (hwriting.symm.trans hnot) Bool.true_eq_false.mp,
    fun hstart' => absurd (hstart.symm.trans hstart') Bool.false_ne_true⟩
  · rw [hfiles] at hfile
    by_cases heq : file = ⟨st.currentDestination, st.chunkOffsetForFilename⟩
    · subst heq
      rw [Function.update_self, Option.some_inj] at hfile
      refine ⟨h.joined, Nat.le_refl _, ?_⟩
      have hposition := h.position
      have hend : st.consumed.length ≤
          (st.chunkOffsetForFilename - joinPoint) * ONE_HUNDRED_MEGABYTES := by omega
      rw [← hfile]
      exact (chunkOf_eq_nil hend).symm
    · rw [Function.update_of_ne heq] at hfile
      exact h.files file content hfile
  · show (Function.update st.files ⟨st.currentDestination, st.chunkOffsetForFilename⟩ (some [])
      ⟨destination', st.chunkOffsetForFilename⟩).isSome ↔ destination' = st.currentDestination
    by_cases heq : destination' = st.currentDestination
    · subst heq
      exact iff_of_true (by rw [Function.update_self]; rfl) rfl
    · have hother : (⟨destination', st.chunkOffsetForFilename⟩ : ChunkFile) ≠
          ⟨st.currentDestination, st.chunkOffsetForFilename⟩ := fun hfile =>
        heq (congrArg ChunkFile.destination hfile)
      refine iff_of_false (fun hsome => ?_) heq
      rw [Function.update_of_ne hother, hnone destination'] at hsome
      exact Bool.false_ne_true hsome

/-- A chunk starts that is written. -/
lemma InStep.syncPoint_writes (h : InStep joinPoint st)
    (hspace : ∃ destination, ONE_HUNDRED_MEGABYTES ≤
      space (st.chunkOffsetForFilename + 1) destination)
    (hfull : st.current100mbChunkWriteOffset = ONE_HUNDRED_MEGABYTES)
    (hwriting : st.startWritingAtBeginningOfNextChunk = true ∨
      st.currentlyWritingToEitherDestination = true)
    (hstop : st.stopWritingAtEndOfThisChunk = false) :
    ∃ st', syncPoint space bytesAvailable sizeToRead st = .continues bytesAvailable st' ∧
      InStep joinPoint st' ∧ st'.unread = st.unread ∧ st'.current100mbChunkWriteOffset = 0 ∧
      st'.currentlyWritingToEitherDestination = true ∧
      st'.stopWritingAtEndOfThisChunk = false := by
  obtain ⟨hcounted, hnone⟩ := h.startChunk hfull
  refine ⟨(st.nextChunk.restartOutputProcess.closeFile.chooseDestination
    space).createAndOpen100mbFileAtCurrentDestination, ?_, ?_, rfl, rfl, rfl, hstop⟩
  · have hquit : ¬ st.quitAfterThisChunkFinishes = true := by
      rw [h.quit]
      exact Bool.false_ne_true
    have hstop' : ¬ st.stopWritingAtEndOfThisChunk = true := by
      rw [hstop]
      exact Bool.false_ne_true
    unfold syncPoint
    exact (if_pos hwriting).trans ((if_neg (h.flushes hwriting)).trans
      ((if_neg hquit).trans ((if_neg hstop').trans
        (if_neg (chooseDestination_space st.currentDestination hspace)))))
  · refine Counted.createAndOpen ?_ rfl hnone rfl rfl
    exact ⟨hcounted.offset_le, hcounted.joined, hcounted.position, hcounted.received,
      hcounted.files, hcounted.quit⟩

/-- A chunk ends, and nothing is written: nothing can be read either. -/
lemma InStep.syncPoint_idle (h : InStep joinPoint st)
    (hfull : st.current100mbChunkWriteOffset = ONE_HUNDRED_MEGABYTES)
    (hstart : st.startWritingAtBeginningOfNextChunk = false)
    (hwriting : st.currentlyWritingToEitherDestination = false) :
    ∃ st', syncPoint space bytesAvailable 0 st = .returns false st' ∧ InStep joinPoint st' ∧
      st'.unread = st.unread ∧ st'.currentlyWritingToEitherDestination = false := by
  obtain ⟨hcounted, hnone⟩ := h.startChunk hfull
  refine ⟨st.nextChunk.restartOutputProcess, ?_, ⟨hcounted, ?_, fun _ => hnone, h.starts⟩, rfl,
    hwriting⟩
  · have hidle : ¬ (st.startWritingAtBeginningOfNextChunk = true ∨
        st.currentlyWritingToEitherDestination = true) := by
      rw [hstart, hwriting]
      simp
    unfold syncPoint
    exact if_neg hidle
  · exact fun hwriting' => absurd (hwriting.symm.trans hwriting') Bool.false_ne_true

/-! ## A call -/

/-- There is always space on one of the destinations. -/
def SpaceLeft (space : Space) : Prop :=
  ∀ chunk, ∃ destination, ONE_HUNDRED_MEGABYTES ≤ space chunk destination

/-- Reading does not get beyond the end of a chunk behind which nothing is written. -/
def ReadsOn (st : Hottee) (bytesAvailable : ℕ) : Prop :=
  if st.startWritingAtBeginningOfNextChunk = true ∨
      st.currentlyWritingToEitherDestination = true then
    st.stopWritingAtEndOfThisChunk = true →
      st.current100mbChunkWriteOffset + bytesAvailable ≤ 2 * ONE_HUNDRED_MEGABYTES
  else st.current100mbChunkWriteOffset + bytesAvailable ≤ ONE_HUNDRED_MEGABYTES

lemma readsOn_iff_of_writing (hwriting : st.startWritingAtBeginningOfNextChunk = true ∨
    st.currentlyWritingToEitherDestination = true) : ReadsOn st bytesAvailable ↔
      (st.stopWritingAtEndOfThisChunk = true →
        st.current100mbChunkWriteOffset + bytesAvailable ≤ 2 * ONE_HUNDRED_MEGABYTES) := by
  rw [ReadsOn, if_pos hwriting]

lemma readsOn_iff_of_not_writing (hstart : st.startWritingAtBeginningOfNextChunk = false)
    (hwriting : st.currentlyWritingToEitherDestination = false) : ReadsOn st bytesAvailable ↔
      st.current100mbChunkWriteOffset + bytesAvailable ≤ ONE_HUNDRED_MEGABYTES := by
  rw [ReadsOn, if_neg (by rw [hstart, hwriting]; simp)]

/-- Of reading, only the position is left. -/
lemma readsOn_congr (hstart : st'.startWritingAtBeginningOfNextChunk =
      st.startWritingAtBeginningOfNextChunk)
    (hwriting : st'.currentlyWritingToEitherDestination = st.currentlyWritingToEitherDestination)
    (hstop : st'.stopWritingAtEndOfThisChunk = st.stopWritingAtEndOfThisChunk)
    (hsum : st'.current100mbChunkWriteOffset + n =
      st.current100mbChunkWriteOffset + bytesAvailable) :
    ReadsOn st' n ↔ ReadsOn st bytesAvailable := by
  rw [ReadsOn, ReadsOn, hstart, hwriting, hstop, hsum]

/-- What the loop comes to. -/
structure LoopEnds (joinPoint bytesAvailable : ℕ) (st : Hottee) (result : Bool × Hottee) :
    Prop where
  inStep : InStep joinPoint result.2
  readsOn : ReadsOn st bytesAvailable →
    result.1 = true ∧ result.2.unread = st.unread.drop bytesAvailable
  leaves : ¬ ReadsOn st bytesAvailable → result.1 = false ∧ result.2.unread ≠ [] ∧
    result.2.currentlyWritingToEitherDestination = false

lemma readLoop_of_returns {ok : Bool} (h : turn space bytesAvailable st = .returns ok st') :
    readLoop space bytesAvailable st = (ok, st') := by
  rw [readLoop]
  split
  · next hturn =>
      rw [h] at hturn
      cases hturn
      rfl
  · next hturn =>
      rw [h] at hturn
      cases hturn

lemma readLoop_of_continues (h : turn space bytesAvailable st = .continues n st') :
    readLoop space bytesAvailable st = readLoop space n st' := by
  rw [readLoop]
  split
  · next hturn =>
      rw [h] at hturn
      cases hturn
  · next hturn =>
      rw [h] at hturn
      cases hturn
      rfl

/-- The size that a turn reads, unless the chunk has ended. -/
lemma turn_of_lt (space : Space) (hpos : 0 < bytesAvailable)
    (hlt : st.current100mbChunkWriteOffset < ONE_HUNDRED_MEGABYTES) :
    ∃ sizeToRead, 0 < sizeToRead ∧ sizeToRead ≤ bytesAvailable ∧
      st.current100mbChunkWriteOffset + sizeToRead ≤ ONE_HUNDRED_MEGABYTES ∧
      turn space bytesAvailable st = readAndWrite bytesAvailable sizeToRead st := by
  have hchunk : 0 < READ_CHUNK_SIZE_BYTES := by decide
  refine ⟨min (min bytesAvailable READ_CHUNK_SIZE_BYTES)
    (ONE_HUNDRED_MEGABYTES - st.current100mbChunkWriteOffset), by omega, by omega, by omega, ?_⟩
  have hnone : ¬ bytesAvailable < 1 := by omega
  have hsize : ¬ min (min bytesAvailable READ_CHUNK_SIZE_BYTES)
      (ONE_HUNDRED_MEGABYTES - st.current100mbChunkWriteOffset) < 1 := by omega
  exact (if_neg hnone).trans (if_neg hsize)

lemma turn_of_full (hpos : 0 < bytesAvailable)
    (hfull : st.current100mbChunkWriteOffset = ONE_HUNDRED_MEGABYTES) :
    turn space bytesAvailable st = syncPoint space bytesAvailable 0 st := by
  have hnone : ¬ bytesAvailable < 1 := by omega
  simp only [turn, hfull, Nat.sub_self, Nat.min_zero, if_neg hnone]
  exact if_pos Nat.zero_lt_one

/-- A turn that goes on, after which the rest of the loop comes to the same. -/
lemma LoopEnds.of_continues (hturn : turn space bytesAvailable st = .continues n st')
    (hrest : LoopEnds joinPoint n st' (readLoop space n st'))
    (hiff : ReadsOn st' n ↔ ReadsOn st bytesAvailable)
    (hunread : st'.unread.drop n = st.unread.drop bytesAvailable) :
    LoopEnds joinPoint bytesAvailable st (readLoop space bytesAvailable st) := by
  rw [readLoop_of_continues hturn]
  exact ⟨hrest.inStep, fun hreads => hunread ▸ hrest.readsOn (hiff.2 hreads),
    fun hnot => hrest.leaves fun hreads => hnot (hiff.1 hreads)⟩

/-- **The loop reads all that was available if it reads on, and leaves something otherwise.**  By
induction on the turns that are left. -/
lemma InStep.loopEnds (hspace : SpaceLeft space) (h : InStep joinPoint st)
    (havailable : bytesAvailable ≤ st.unread.length) :
    LoopEnds joinPoint bytesAvailable st (readLoop space bytesAvailable st) := by
  induction hturns : turnsLeft bytesAvailable st using Nat.strongRecOn
    generalizing bytesAvailable st with
  | ind turns ih =>
      have hoffset_le := h.offset_le
      by_cases hpos : 0 < bytesAvailable
      swap
      · -- nothing is left to read
        have hzero : bytesAvailable = 0 := by omega
        have hturn : turn space bytesAvailable st = .returns true st := if_pos (by omega)
        rw [readLoop_of_returns hturn]
        refine ⟨h, fun _ => ⟨rfl, by rw [hzero]; rfl⟩, fun hnot => absurd ?_ hnot⟩
        unfold ReadsOn
        split
        · intro _
          omega
        · omega
      by_cases hlt : st.current100mbChunkWriteOffset < ONE_HUNDRED_MEGABYTES
      · obtain ⟨sizeToRead, hsize, hle, hfits, hturn⟩ := turn_of_lt space hpos hlt
        obtain ⟨st', hread, hstep, hunread, hoffset, hwriting, hstart, hstop⟩ :=
          h.read hsize (Nat.le_trans hle havailable) hfits
        rw [hread] at hturn
        have hleft : bytesAvailable - sizeToRead ≤ st'.unread.length := by
          rw [hunread, List.length_drop]
          omega
        refine LoopEnds.of_continues hturn
          (ih _ (hturns ▸ turn_turnsLeft hturn) hstep hleft rfl)
          (readsOn_congr hstart hwriting hstop (by omega)) ?_
        rw [hunread, List.drop_drop, Nat.add_sub_cancel' hle]
      have hfull : st.current100mbChunkWriteOffset = ONE_HUNDRED_MEGABYTES := by omega
      have hturn : turn space bytesAvailable st = syncPoint space bytesAvailable 0 st :=
        turn_of_full hpos hfull
      by_cases hwriting : st.startWritingAtBeginningOfNextChunk = true ∨
          st.currentlyWritingToEitherDestination = true
      · cases hstop : st.stopWritingAtEndOfThisChunk with
        | true =>
            obtain ⟨st', hsync, hstep, hunread, hoffset, hwriting', hstart'⟩ :=
              h.syncPoint_stop hfull hwriting hstop
            rw [hsync] at hturn
            refine LoopEnds.of_continues hturn
              (ih _ (hturns ▸ turn_turnsLeft hturn) hstep (hunread ▸ havailable) rfl) ?_
              (by rw [hunread])
            rw [readsOn_iff_of_not_writing hstart' hwriting', readsOn_iff_of_writing hwriting,
              hoffset, hfull]
            constructor
            · intro hle _
              omega
            · intro hle
              have hsum := hle hstop
              omega
        | false =>
            obtain ⟨st', hsync, hstep, hunread, hoffset, hwriting', hstop'⟩ :=
              h.syncPoint_writes (hspace _) hfull hwriting hstop
            rw [hsync] at hturn
            refine LoopEnds.of_continues hturn
              (ih _ (hturns ▸ turn_turnsLeft hturn) hstep (hunread ▸ havailable) rfl) ?_
              (by rw [hunread])
            rw [readsOn_iff_of_writing (.inr hwriting'), readsOn_iff_of_writing hwriting]
            exact iff_of_true (fun h => absurd (hstop'.symm.trans h) Bool.false_ne_true)
              fun h => absurd (hstop.symm.trans h) Bool.false_ne_true
      · rw [not_or, Bool.not_eq_true, Bool.not_eq_true] at hwriting
        obtain ⟨st', hsync, hstep, hunread, hwriting'⟩ :=
          h.syncPoint_idle hfull hwriting.1 hwriting.2
        rw [hsync] at hturn
        rw [readLoop_of_returns hturn]
        refine ⟨hstep, fun hreads => absurd hreads ?_, fun _ => ⟨rfl, ?_, hwriting'⟩⟩
        · rw [readsOn_iff_of_not_writing hwriting.1 hwriting.2, hfull]
          omega
        · rw [hunread]
          exact List.ne_nil_of_length_pos (by omega)

/-! ## Runs -/

/-- All that was available is consumed, the position is that of the stream, the output process
received the stream, each file contains what the stream has for its chunk, and a chunk has a file
exactly while it is written. -/
structure CutsExactly (joinPoint : ℕ) (st : Hottee) : Prop where
  allConsumed : st.unread = []
  position : (st.chunkOffsetForFilename - joinPoint) * ONE_HUNDRED_MEGABYTES +
    st.current100mbChunkWriteOffset = st.consumed.length
  received : st.writeToOutputProcess = true →
    st.formerOutputProcesses.flatten ++ st.outputProcess = st.consumed
  files : ∀ file content, st.files file = some content →
    content = chunkOf joinPoint file.chunk st.consumed
  writing : st.currentlyWritingToEitherDestination = true ↔
    ∃ destination, (st.files ⟨destination, st.chunkOffsetForFilename⟩).isSome

lemma InStep.cutsExactly_iff (h : InStep joinPoint st) :
    CutsExactly joinPoint st ↔ st.unread = [] := by
  refine ⟨CutsExactly.allConsumed, fun hunread => ⟨hunread, h.position, h.received,
    fun file content hfile => (h.files file content hfile).2.2, fun hwriting => ?_, ?_⟩⟩
  · obtain ⟨destination, -, hunique⟩ := h.writing hwriting
    exact ⟨destination, (hunique destination).2 rfl⟩
  · rintro ⟨destination, hsome⟩
    by_contra hwriting
    rw [Bool.not_eq_true] at hwriting
    rw [h.notWriting hwriting destination] at hsome
    exact Bool.false_ne_true hsome

lemma inStep_startHotteeing (writeToOutputProcess : Bool) :
    InStep joinPoint (Hottee.startHotteeing writeToOutputProcess joinPoint) := by
  have hcounted : Counted joinPoint
      { writeToOutputProcess
        chunkOffsetForFilename := joinPoint
        currentlyWritingToEitherDestination := true } :=
    ⟨Nat.zero_le _, Nat.le_refl _, by simp, fun _ => rfl,
      fun _ _ hfile => absurd hfile (Option.some_ne_none _).symm, rfl⟩
  exact hcounted.createAndOpen rfl (fun _ => rfl) rfl rfl

/-- The condition for a step: a call reads on.  Whether it does is computed from the position, the
number of bytes and the commands that are pending, before anything is read. -/
def BoundariesWritten (st : Hottee) : Event → Prop
  | .readyRead bytes => ReadsOn st (st.unread.length + bytes.length)
  | _ => True

lemma InStep.deliver (h : InStep joinPoint st) (bytes : List UInt8) :
    InStep joinPoint { st with unread := st.unread ++ bytes } :=
  ⟨⟨h.offset_le, h.joined, h.position, h.received, h.files, h.quit⟩, h.writing, h.notWriting,
    h.starts⟩

/-- A call consumes all exactly if it reads on. -/
lemma InStep.handle (hspace : SpaceLeft space) (h : InStep joinPoint st) :
    InStep joinPoint (st.handleInputProcessReadyReadStandardOutput space) ∧
      ((st.handleInputProcessReadyReadStandardOutput space).unread = [] ↔
        ReadsOn st st.unread.length) := by
  have hends := h.loopEnds hspace (Nat.le_refl st.unread.length)
  rw [Hottee.handleInputProcessReadyReadStandardOutput,
    Hottee.readInputProcessesStdOutAndWriteAccordingly]
  generalize readLoop space st.unread.length st = result at hends ⊢
  obtain ⟨ok, st'⟩ := result
  by_cases hreads : ReadsOn st st.unread.length
  · obtain ⟨hok, hunread⟩ := hends.readsOn hreads
    obtain rfl : ok = true := hok
    refine ⟨hends.inStep, iff_of_true ?_ hreads⟩
    show st'.unread = []
    exact hunread.trans List.drop_length
  · obtain ⟨hok, hunread, hwriting⟩ := hends.leaves hreads
    obtain rfl : ok = false := hok
    -- writing is stopped where nothing is written
    have hsame : { st' with currentlyWritingToEitherDestination := false } = st' := by
      rw [← hwriting]
    show InStep joinPoint { st' with currentlyWritingToEitherDestination := false } ∧
      ({ st' with currentlyWritingToEitherDestination := false }.unread = [] ↔ _)
    rw [hsame]
    exact ⟨hends.inStep, iff_of_false hunread hreads⟩

/-- **Each step stays in step with the stream, and consumes all exactly if it reads on.** -/
lemma InStep.next (hspace : SpaceLeft space) (h : InStep joinPoint st) (event : Event)
    (hunread : st.unread = []) :
    InStep joinPoint (step space st event) ∧
      ((step space st event).unread = [] ↔ BoundariesWritten st event) := by
  cases event with
  | readyRead bytes =>
      have hhandle := (h.deliver bytes).handle hspace
      refine ⟨hhandle.1, hhandle.2.trans (iff_of_eq ?_)⟩
      rw [BoundariesWritten, List.length_append]
      rfl
  | startWritingAtNextChunkStart =>
      by_cases hwriting : st.currentlyWritingToEitherDestination = true
      · rw [step, if_pos hwriting]
        exact ⟨h, iff_of_true hunread trivial⟩
      · rw [step, if_neg hwriting]
        exact ⟨⟨⟨h.offset_le, h.joined, h.position, h.received, h.files, h.quit⟩, h.writing,
          h.notWriting, fun _ => (Bool.not_eq_true _).mp hwriting⟩, iff_of_true hunread trivial⟩
  | stopWritingAtEndOfThisChunk =>
      by_cases hidle : st.currentlyWritingToEitherDestination = false ∧
          st.startWritingAtBeginningOfNextChunk = false
      · rw [step, if_pos hidle]
        exact ⟨h, iff_of_true hunread trivial⟩
      · rw [step, if_neg hidle]
        exact ⟨⟨⟨h.offset_le, h.joined, h.position, h.received, h.files, h.quit⟩, h.writing,
          h.notWriting, h.starts⟩, iff_of_true hunread trivial⟩
  | restartOutputProcessOnNextChunkStart =>
      exact ⟨⟨⟨h.offset_le, h.joined, h.position, h.received, h.files, h.quit⟩, h.writing,
        h.notWriting, h.starts⟩, iff_of_true hunread trivial⟩

/-- **The stream is cut exactly, in every state of a run, exactly if each call reads on.**

The commands are to start and to stop writing and to restart the output process, each at the next
boundary, and they may come in any order between two deliveries.  If a call does not read on at a
boundary, what it leaves waits for the next delivery, which may never come. -/
theorem cuts_exactly_iff (hspace : SpaceLeft space) (writeToOutputProcess : Bool) (joinPoint : ℕ)
    (events : List Event) :
    Machine.HoldsThroughout (step space) (CutsExactly joinPoint)
        (Hottee.startHotteeing writeToOutputProcess joinPoint) events ↔
      Machine.StaysWithin (step space) BoundariesWritten
        (Hottee.startHotteeing writeToOutputProcess joinPoint) events := by
  have hstart : InStep joinPoint (Hottee.startHotteeing writeToOutputProcess joinPoint) :=
    inStep_startHotteeing writeToOutputProcess
  refine Machine.holdsThroughout_iff_staysWithin (I := InStep joinPoint) (fun _ => True)
    (fun st event _ h hcut _ => (h.next hspace event hcut.allConsumed).1)
    (fun st event _ h hcut => ?_) (fun _ _ => trivial) hstart (hstart.cutsExactly_iff.2 rfl)
  obtain ⟨hstep, hiff⟩ := h.next hspace event hcut.allConsumed
  rw [hstep.cutsExactly_iff, hiff]

/-- Two destinations with enough space. -/
def twoEmptyDestinations : Space := fun _ _ => 10 * ONE_HUNDRED_MEGABYTES

lemma spaceLeft_twoEmptyDestinations : SpaceLeft twoEmptyDestinations := fun _ =>
  ⟨.destination1, by unfold twoEmptyDestinations; omega⟩

theorem cuts_exactly_iff_threeBytes :
    Machine.HoldsThroughout (step twoEmptyDestinations) (CutsExactly 5)
      (Hottee.startHotteeing true 5)
      [.readyRead [1, 2, 3], .stopWritingAtEndOfThisChunk, .restartOutputProcessOnNextChunkStart] :=
  (cuts_exactly_iff spaceLeft_twoEmptyDestinations true 5 _).2
    ⟨(readsOn_iff_of_writing (.inr rfl)).2 fun hstop => absurd hstop Bool.false_ne_true, trivial,
      trivial, trivial⟩

/-- Two chunks and a byte, after the command to stop: the second chunk is not written, and the byte
is not read. -/
theorem not_cuts_exactly : ¬ Machine.HoldsThroughout (step twoEmptyDestinations) (CutsExactly 0)
    (Hottee.startHotteeing true 0)
    [.stopWritingAtEndOfThisChunk,
      .readyRead (List.replicate (2 * ONE_HUNDRED_MEGABYTES + 1) 0)] := by
  rintro ⟨hstart, hstopped, hread⟩
  have hin := ((inStep_startHotteeing true).next spaceLeft_twoEmptyDestinations
    .stopWritingAtEndOfThisChunk hstart.allConsumed).1
  have hreads := (hin.next spaceLeft_twoEmptyDestinations _ hstopped.allConsumed).2.1
    hread.allConsumed
  have hle := (readsOn_iff_of_writing (.inr rfl)).1 hreads rfl
  rw [hstopped.allConsumed, List.length_replicate] at hle
  exact absurd hle (by decide)

end Autobackup.Hotteeing
