import Autobackup.Abc2.Documents

/-!
# The tab a user uploads ads in

An upload creates an ad slot filler document under the next free index and then enters its
nickname into the user's all-slot-fillers document.  Which index is the next one is a guess, made
from the all-slot-fillers document.  Where the guess is wrong because an earlier upload did not get
as far as entering its ad, or a concurrent one has not yet, the missing nickname is read from the
ad that is there, entered into the local copy of the document, and the next index is tried.

Left out are the image and the fields of an ad that are only shown, and that the nickname is stored
in base64.  Indexes are numbers here and their decimal strings in the source.
-/

namespace Autobackup.Abc2

/-- `ptree::put` under an index: replaces what is there, or puts it at the end. -/
def AllSlotFillersDoc.put (doc : AllSlotFillersDoc) (index : ℕ) (nickname : String) :
    AllSlotFillersDoc :=
  { doc with
    nicknames :=
      if (doc.nickname index).isSome then
        doc.nicknames.map fun entry => if entry.1 = index then (index, nickname) else entry
      else doc.nicknames ++ [(index, nickname)] }

/-- The request that is outstanding. -/
inductive NewAdSlotFillerPhase
  | idle
  | getAllSlotFillers
  | addSlotFiller (slotFillerIndexToAttemptToAdd : ℕ)
  | getSlotFillerThatIsntInAllAdSlotFillers (slotFillerIndex : ℕ)
  | setAllSlotFillers
  deriving DecidableEq, Repr, Inhabited

structure NewAdSlotFiller where
  /-- `m_AbcApp->m_CurrentlyLoggedInUsername` -/
  currentlyLoggedInUsername : Username
  /-- `m_Validated_NewAdSlotFiller_NICKNAME` -/
  validatedNickname : String := ""
  /-- `m_RunningAllSlotFillersJsonDoc` -/
  runningAllSlotFillersDoc : AllSlotFillersDoc := ⟨0, []⟩
  /-- `m_RunningAllSlotFillersJsonDocCAS` -/
  runningAllSlotFillersDocCas : ℕ := 0
  phase : NewAdSlotFillerPhase := .idle
  deriving DecidableEq, Repr, Inhabited

/-- What reaches the tab from outside. -/
inductive NewAdSlotFillerInput
  /-- An image was uploaded, with this nickname. -/
  | handleAdSlotFillerImageUploadFinished (nickname : String)
  /-- The outstanding request is performed and answered; a database error may be reported all the
  same. -/
  | proceed (dbError : Bool)
  /-- The outstanding request is not performed: a database error, or a file that is no image. -/
  | fail
  deriving DecidableEq, Repr

namespace NewAdSlotFiller

/-- `resetAdSlotFillerImageUploadFieldsForAnotherUpload` -/
def reset (s : NewAdSlotFiller) : NewAdSlotFiller :=
  { s with validatedNickname := "", phase := .idle }

def tryToAddAdSlotFillerToCouchbase (s : NewAdSlotFiller) (slotFillerIndexToAttemptToAdd : ℕ) :
    NewAdSlotFiller :=
  { s with phase := .addSlotFiller slotFillerIndexToAttemptToAdd }

/-- A document that does not exist is answered with CAS zero. -/
def determineNextSlotFillerIndexAndThenAddSlotFillerToIt (s : NewAdSlotFiller) :
    Option (ℕ × AllSlotFillersDoc) → NewAdSlotFiller
  | none =>
      { s with
        runningAllSlotFillersDoc := ⟨0, []⟩
        runningAllSlotFillersDocCas := 0 }.tryToAddAdSlotFillerToCouchbase 0
  | some (cas, doc) =>
      let s := { s with runningAllSlotFillersDoc := doc, runningAllSlotFillersDocCas := cas }
      -- the most ads that a user can have
      if doc.adsCount = 9999 then s.reset else s.tryToAddAdSlotFillerToCouchbase doc.adsCount

/-- Enter a nickname under the index `adsCount` into the running document. -/
def putNickname (s : NewAdSlotFiller) (nickname : String) : NewAdSlotFiller :=
  let doc := s.runningAllSlotFillersDoc
  { s with
    runningAllSlotFillersDoc :=
      { doc.put doc.adsCount nickname with adsCount := doc.adsCount + 1 } }

def storeLargeAdImageInCouchbaseDbAttemptComplete (s : NewAdSlotFiller) (slotFillerIndex : ℕ) :
    Reply → NewAdSlotFiller
  | .stored _ => { s.putNickname s.validatedNickname with phase := .setAllSlotFillers }
  | _ => { s with phase := .getSlotFillerThatIsntInAllAdSlotFillers slotFillerIndex }

/-- `getAdSlotFillerThatIsntInAllAdSlotFillersAttemptFinished_soAddItToAllAddSlotFillers…` -/
def getAdSlotFillerAttemptFinished (s : NewAdSlotFiller) :
    Option (ℕ × SlotFillerDoc) → NewAdSlotFiller
  | none => s.reset
  | some (_, doc) =>
      let s := s.putNickname doc.nickname
      s.tryToAddAdSlotFillerToCouchbase s.runningAllSlotFillersDoc.adsCount

/-- What the tab does with the outstanding request once it was performed. -/
def proceed (s : NewAdSlotFiller) (dbError : Bool) : DbAction NewAdSlotFiller :=
  match s.phase with
  | .idle => .pause s
  | .getAllSlotFillers =>
      .get (.adSpaceAllSlotFillers s.currentlyLoggedInUsername) fun r =>
        if dbError then s.reset else s.determineNextSlotFillerIndexAndThenAddSlotFillerToIt r
  | .addSlotFiller index =>
      .add (.adSpaceSlotFiller ⟨s.currentlyLoggedInUsername, index⟩) .document
        ⟨s.currentlyLoggedInUsername, s.validatedNickname⟩ fun r =>
        if dbError then s.reset else s.storeLargeAdImageInCouchbaseDbAttemptComplete index r
  | .getSlotFillerThatIsntInAllAdSlotFillers index =>
      .get (.adSpaceSlotFiller ⟨s.currentlyLoggedInUsername, index⟩) fun r =>
        if dbError then s.reset else s.getAdSlotFillerAttemptFinished r
  | .setAllSlotFillers =>
      -- accepted or not, this is the end of the upload
      .set (.adSpaceAllSlotFillers s.currentlyLoggedInUsername) .document
        s.runningAllSlotFillersDoc s.runningAllSlotFillersDocCas fun _ => s.reset

def act (s : NewAdSlotFiller) : NewAdSlotFillerInput → DbAction NewAdSlotFiller
  | .handleAdSlotFillerImageUploadFinished nickname =>
      match s.phase with
      | .idle => .pause { s with validatedNickname := nickname, phase := .getAllSlotFillers }
      | _ => .pause s
  | .proceed dbError => s.proceed dbError
  | .fail => .pause s.reset

end NewAdSlotFiller

/-- A store and any number of upload tabs. -/
abbrev Uploads (ι : Type) := World Note Doc NewAdSlotFiller ι

end Autobackup.Abc2
