import Autobackup.ChecksummedMessages.InStep

/-!
# Where the deliveries are cut

Two runs of the reader over the same bytes, cut into deliveries in different ways, agree on every
stream the reader stays in step with.  On any other stream they are apart as soon as the comma has
arrived that the reader should not have met: read at a stretch, the component before it is the
checksum of a size, and after a cut it is looked at for `SYNC`.

They may meet again later, when a message happens to overwrite all that they differ in, so the
equivalence speaks of all that has arrived at some point, that is, of the prefixes of the stream.

The reader is any reader in its initial state, and the checksum and the conversion of a size are
parameters.  What is compared are the messages that are emitted and the reader afterwards, up to
what is only left over in its buffers.
-/

namespace Autobackup.ChecksummedMessages

/-- Any two ways of cutting the stream into deliveries make the reader emit the same messages and
leave it in the same state. -/
def CutsDoNotMatter (checksum : List Byte → List Byte) (toInt : List Byte → Option ℤ) (r : Reader)
    (stream : List Byte) : Prop :=
  ∀ deliveries deliveries' : List (List Byte),
    deliveries.flatten = stream → deliveries'.flatten = stream →
      r.handleReadyReads checksum toInt deliveries = r.handleReadyReads checksum toInt deliveries'

def Reader.Turn.reader : Reader.Turn → Reader
  | .returned r => r
  | .looping r => r

namespace Position

variable {checksum : List Byte → List Byte} {toInt : List Byte → Option ℤ}

/-- Where a comma is read after falling through. -/
lemma exists_of_not_neverFallsThrough {p : Position} (hp : p.WellPlaced) {bytes : List Byte}
    (h : ¬ NeverFallsThrough checksum toInt p bytes) :
    ∃ before component rest r, bytes = before ++ (component ++ comma :: rest) ∧
      comma ∉ component ∧ (readAll (step checksum toInt) p before).1 = .reading true r ∧
      r.haveReadMessageHeader = false ∧ r.messageHeaderReader.state = .lookingForSync := by
  induction bytes generalizing p with
  | nil => exact absurd trivial h
  | cons b bytes ih =>
      rw [NeverFallsThrough, not_and_or] at h
      rcases h with hhere | hlater
      · obtain ⟨hfell, hcomma⟩ := Classical.not_imp.1 hhere
        obtain ⟨component, rest, hbytes, hcomponent⟩ :=
          List.eq_append_cons_of_mem (Classical.not_not.1 hcomma)
        cases p with
        | looping r => exact absurd hfell not_false
        | reading fellThrough r =>
            obtain rfl : fellThrough = true := by simpa [FellThrough] using hfell
            exact ⟨[], component, rest, r, hbytes, hcomponent, rfl, hp rfl⟩
      · obtain ⟨before, component, rest, r, hbytes, hcomponent, hread, hr⟩ :=
          ih (wellPlaced_step hp b) hlater
        exact ⟨b :: before, component, rest, r, by rw [hbytes, List.cons_append], hcomponent,
          hread, hr⟩

/-- With the comma, the two ways of reading its component have led to different states. -/
lemma turn_ne_of_fellThrough {r : Reader} (hr : r.haveReadMessageHeader = false)
    (hstate : r.messageHeaderReader.state = .lookingForSync) {component : List Byte}
    (hcomma : comma ∉ component) :
    (readAll (step checksum toInt) (.reading true r) (component ++ [comma])).1.turn ≠
      (readAll (step checksum toInt) (.reading false r) (component ++ [comma])).1.turn := by
  have hlooking : (r.messageHeaderReader.appendAll component).state = .lookingForSync := by
    rw [HeaderReader.appendAll_state, hstate]
  rw [readAll_component_comma hr true hcomma, readAll_component_comma hr false hcomma,
    endComponent_readingChecksumOfSizeOfData (.inr ⟨hlooking, rfl⟩),
    endComponent_lookingForSync hlooking]
  intro heq
  have hheader : MessageHeaderReaderState.readingSizeOfData =
      (r.messageHeaderReader.appendAll component).lookForSync.state := by
    exact congrArg (fun t : Reader.Turn => t.reader.messageHeaderReader.state) heq
  rw [HeaderReader.lookForSync, hlooking] at hheader
  dsimp only at hheader
  split at hheader <;> exact absurd hheader (by simp)

end Position

open Position

variable {checksum : List Byte → List Byte} {toInt : List Byte → Option ℤ}

lemma cutsDoNotMatter_of_neverFallsThrough {r : Reader} {stream : List Byte}
    (h : NeverFallsThrough checksum toInt (.reading false r) stream) :
    CutsDoNotMatter checksum toInt r stream := by
  rintro deliveries deliveries' rfl hflatten
  rw [handleReadyReads_inStep h, handleReadyReads_inStep (by rwa [hflatten]), hflatten]

/-- A comma after falling through: a cut before its component matters. -/
lemma not_cutsDoNotMatter {r r' : Reader} {before component : List Byte}
    (hread : (readAll (step checksum toInt) (.reading false r) before).1 = .reading true r')
    (hr' : r'.haveReadMessageHeader = false)
    (hstate : r'.messageHeaderReader.state = .lookingForSync) (hcomma : comma ∉ component) :
    ¬ CutsDoNotMatter checksum toInt r (before ++ (component ++ [comma])) := by
  intro h
  have hsame := h [before ++ (component ++ [comma])] [before, component ++ [comma]] (by simp)
    (by simp)
  have hne : (readAll (step checksum toInt) (.reading true r') (component ++ [comma])).1.turn ≠
      (readAll (step checksum toInt) (.reading false r') (component ++ [comma])).1.turn :=
    turn_ne_of_fellThrough hr' hstate hcomma
  generalize component ++ [comma] = bytes at hsame hne
  rw [handleReadyReads_eq, handleReadyReads_eq] at hsame
  simp only [readDeliveries, readAll_append, hread, settle_reading, turn_settle] at hsame
  exact hne (Prod.mk.inj hsame).2

/-- **Cuts do not matter, at any point of the stream, exactly when the reader stays in step with
it.**

A serial port cuts as it likes, so a reader whose answer depends on the cuts behaves differently
from one run to the next with the same sender.  Being in step is a property of the bytes alone: what
stands in front of each comma that ends a header component is the component that is expected there.
-/
theorem cutsDoNotMatter_iff_staysInStep {r : Reader} (hr : r.InInitialState) (bytes : List Byte) :
    (∀ stream, stream <+: bytes → CutsDoNotMatter checksum toInt r stream) ↔
      StaysInStep checksum toInt [] bytes := by
  rw [← hr.messageHeaderBuffer, ← neverFallsThrough_iff hr.haveReadMessageHeader hr.state
    (by simp [hr.messageHeaderBuffer])]
  constructor
  · intro h
    by_contra hfalls
    obtain ⟨before, component, rest, r', hbytes, hcomma, hread, hr', hstate⟩ :=
      exists_of_not_neverFallsThrough (wellPlaced_reading r) hfalls
    refine not_cutsDoNotMatter hread hr' hstate hcomma (h _ ⟨rest, ?_⟩)
    rw [hbytes]
    simp
  · rintro h stream ⟨rest, rfl⟩
    exact cutsDoNotMatter_of_neverFallsThrough h.of_append

/-- Without a comma. -/
theorem cutsDoNotMatter_iff_staysInStep_noComma :
    CutsDoNotMatter (fun _ => []) (fun _ => none) .constructed [120, 121] := by
  have hstays : StaysInStep (fun _ => []) (fun _ => none) [] [120, 121] := by
    rw [StaysInStep]
    intro sync afterSync hbytes
    have hcomma : comma ∈ ([120, 121] : List Byte) := by simp [hbytes]
    exact absurd hcomma (by decide)
  exact (cutsDoNotMatter_iff_staysInStep Reader.constructed_inInitialState [120, 121]).2 hstays _
    (List.prefix_refl _)

/-- `x,y,`: at a stretch `y` is the checksum of a size, and after a cut in front of it, it is
not. -/
theorem cuts_matter :
    ¬ ∃ checksum toInt, CutsDoNotMatter checksum toInt .constructed [120, 44, 121, 44] := by
  rintro ⟨checksum, toInt, h⟩
  have hread : (readAll (step checksum toInt) (.reading false .constructed) [120, 44]).1 =
      .reading true .constructed := rfl
  have hcomma : comma ∉ ([121] : List Byte) := by decide
  exact not_cutsDoNotMatter hread rfl rfl hcomma h

end Autobackup.ChecksummedMessages
