import Autobackup.Abc2.SavedAccounts
import Autobackup.Abc2.PurchaseHistory

/-!
# What the programs know about purchases

Beside the account versions of `Saved`, a session in the middle of a purchase knows that the slot
it is about to fill was absent after the version it will lock had been read, and later that the
slot is its own; the recoverer knows the slot document it is finishing, and whose it is; the
creditor knows the transaction it is paying out.  With this, every write of theirs is one the
purchase protocol allows.
-/

namespace Autobackup.Abc2

/-! ## Sessions -/

/-- The slot document a session fills its slot with. -/
def SessionMembers.ownSlotDoc (m : SessionMembers) : SlotDoc where
  purchaseTimestamp := m.priceMembers.purchaseTimestamp
  startTimestamp := m.startTimestampUsedInNewPurchase
  purchasePrice := m.priceMembers.currentPriceInSatoshisToUseForBuying
  slotFilledWith := m.slotFillerToUseInBuy

/-- The slot is filled, and by the session itself. -/
def SessionMembers.OwnsSlot (m : SessionMembers) (st : Db) : Prop :=
  FilledWith st m.adSlotAboutToBeFilledIfLockIsSuccessful m.ownSlotDoc

/-- The account read before the slot was found absent, and none before it, was locked toward the
slot. -/
def SessionMembers.SlotWasAbsent (m : SessionMembers) (st : Db) : Prop :=
  NeverLockedToward st m.currentlyLoggedInUsername m.userAccountUnlockedJustBeforeBuyingCas
    m.adSlotAboutToBeFilledIfLockIsSuccessful

/-- The purchase facts of a session. -/
def Session.KnowsSlot (st : Db) (s : Session) : Prop :=
  let m := s.members
  let own := m.slotFillerToUseInBuy.username = m.currentlyLoggedInUsername
  let unlockedThere := ∃ doc, (st (.userAccount m.currentlyLoggedInUsername)).docAt
    m.userAccountUnlockedJustBeforeBuyingCas = some doc
  match s.phase with
  | .issued .verifyBalance | .answered (.verifyBalance _) | .issued .ensureSlotDoesntExist
  | .answered (.lockAccountForBuying _) => own
  | .answered (.ensureSlotDoesntExist r) =>
      own ∧ unlockedThere ∧ (r = none → m.SlotWasAbsent st)
  | .issued (.lockAccountForBuying _ _) => own ∧ unlockedThere ∧ m.SlotWasAbsent st
  | .issued (.fillSlot doc) => own ∧ doc = m.ownSlotDoc
  | .answered (.fillSlot r) => own ∧ ∀ cas, r = .stored cas → m.OwnsSlot st
  | .issued (.createTransaction doc) => own ∧ m.OwnsSlot st ∧
      PaysFor st m.adSlotAboutToBeFilledIfLockIsSuccessful doc
  | .answered .createTransaction | .issued (.unlockAccountDebitting _ _) =>
      own ∧ m.OwnsSlot st
  | .answered .unlockAccountDebitting => m.OwnsSlot st
  | .answered (.doesSlotExistCheck slot r) =>
      ∀ cas slotDoc, r = some (cas, slotDoc) → FilledWith st slot slotDoc
  | .issued (.unlockWithoutDebitting slot _ cas) => ∃ slotDoc, FilledWith st slot slotDoc ∧
      ∃ profile, (st (.userAccount m.currentlyLoggedInUsername)).docAt cas = some profile ∧
        profile.slotToAttemptToFillAkaPurchaseItWith ≠ some slotDoc.slotFilledWith
  | _ => True

section Mono

variable {st st' : Db} {m : SessionMembers}

lemma NeverLockedToward.mono (hst : st ≤ st') {u : Username} {cas : ℕ} {slot : SlotKey}
    {doc : UserAccount} (hdoc : (st (.userAccount u)).docAt cas = some doc)
    (h : NeverLockedToward st u cas slot) : NeverLockedToward st' u cas slot := by
  intro c profile hc hprofile
  have hb := Cell.docAt_bounds hdoc
  rw [Cell.docAt_eq_of_le (hst _) (by omega)] at hprofile
  exact h c profile hc hprofile

lemma SessionMembers.OwnsSlot.mono (hst : st ≤ st') (h : m.OwnsSlot st) : m.OwnsSlot st' :=
  FilledWith.mono hst h

lemma SessionMembers.OwnsSlot.paysFor (h : m.OwnsSlot st)
    (hown : m.slotFillerToUseInBuy.username = m.currentlyLoggedInUsername) (seller : Username) :
    PaysFor st m.adSlotAboutToBeFilledIfLockIsSuccessful
      (createTransactionDoc seller m.currentlyLoggedInUsername
        m.priceMembers.currentPriceInSatoshisToUseForBuying) :=
  ⟨m.ownSlotDoc, h, hown.symm, rfl⟩

lemma Session.KnowsSlot.mono {s : Session} (hst : st ≤ st') (h : s.KnowsSlot st) :
    s.KnowsSlot st' := by
  obtain ⟨m, phase⟩ := s
  cases phase with
  | idle => trivial
  | threw => trivial
  | issued request =>
      cases request with
      | lockAccountForBuying doc cas =>
          obtain ⟨hown, ⟨base, hbase⟩, habsent⟩ := h
          exact ⟨hown, ⟨base, Cell.docAt_mono (hst _) hbase⟩,
            NeverLockedToward.mono hst hbase habsent⟩
      | createTransaction doc =>
          obtain ⟨hown, howns, hpays⟩ := h
          exact ⟨hown, howns.mono hst, hpays.mono hst⟩
      | unlockAccountDebitting doc cas => exact ⟨h.1, h.2.mono hst⟩
      | unlockWithoutDebitting slot doc cas =>
          obtain ⟨slotDoc, hfilled, profile, hprofile, hne⟩ := h
          exact ⟨slotDoc, hfilled.mono hst, profile, Cell.docAt_mono (hst _) hprofile, hne⟩
      | _ => exact h
  | answered reply =>
      cases reply with
      | ensureSlotDoesntExist r =>
          obtain ⟨hown, ⟨base, hbase⟩, habsent⟩ := h
          exact ⟨hown, ⟨base, Cell.docAt_mono (hst _) hbase⟩,
            fun hr => NeverLockedToward.mono hst hbase (habsent hr)⟩
      | fillSlot r => exact ⟨h.1, fun cas hr => (h.2 cas hr).mono hst⟩
      | createTransaction => exact ⟨h.1, h.2.mono hst⟩
      | unlockAccountDebitting => exact SessionMembers.OwnsSlot.mono hst h
      | doesSlotExistCheck slot r => exact fun cas slotDoc hr => (h cas slotDoc hr).mono hst
      | _ => exact h

end Mono

/-! ### Callbacks -/

section Callbacks

variable {st : Db} {m : SessionMembers}

lemma verifyUserHasSufficientFunds_knowsSlot {r : Option (ℕ × UserAccount)}
    (h : Session.KnowsSlot st ⟨m, .answered (.verifyBalance r)⟩) :
    (m.verifyUserHasSufficientFunds r).KnowsSlot st := by
  unfold SessionMembers.verifyUserHasSufficientFunds
  cases r with
  | none => trivial
  | some found =>
      simp only
      split_ifs with hindex hslot hlocked hprevious
      · trivial
      · trivial
      · trivial
      · exact h
      · split
        · trivial
        · exact h

lemma ensureSlotDoesntExist_knowsSlot {r : Option (ℕ × SlotDoc)} {now : ℚ}
    (h : Session.KnowsSlot st ⟨m, .answered (.ensureSlotDoesntExist r)⟩) :
    (m.ensureSlotDoesntExist r now).KnowsSlot st := by
  unfold SessionMembers.ensureSlotDoesntExist
  cases r with
  | some found => trivial
  | none =>
      obtain ⟨hown, hbase, habsent⟩ := h
      simp only
      split_ifs with hnegative hfunds
      · trivial
      · exact ⟨hown, hbase, habsent rfl⟩
      · trivial

lemma userAccountLockAttemptFinish_knowsSlot {r : Reply}
    (h : Session.KnowsSlot st ⟨m, .answered (.lockAccountForBuying r)⟩) :
    (m.userAccountLockAttemptFinish r).KnowsSlot st := by
  cases r with
  | stored cas => exact ⟨h, rfl⟩
  | keyExists => trivial
  | keyMissing => trivial

lemma slotFillAkaPurchaseAddAttemptFinished_knowsSlot {r : Reply}
    (h : Session.KnowsSlot st ⟨m, .answered (.fillSlot r)⟩) :
    (m.slotFillAkaPurchaseAddAttemptFinished r).KnowsSlot st := by
  cases r with
  | stored cas => exact ⟨h.1, h.2 cas rfl, (h.2 cas rfl).paysFor h.1 _⟩
  | keyExists => trivial
  | keyMissing => trivial

lemma loginIfInputHashedEqualsDbInfo_knowsSlot {username : Username} {hash : String → String}
    {r : Option (ℕ × UserAccount)} :
    (m.loginIfInputHashedEqualsDbInfo username hash r).KnowsSlot st := by
  unfold SessionMembers.loginIfInputHashedEqualsDbInfo
  cases r with
  | none => trivial
  | some found =>
      simp only
      split_ifs with hpassword
      · split
        · trivial
        · split <;> trivial
      · trivial

/-- The lock is released only after the slot was found filled with something else. -/
lemma continueRecoveringLockedAccount_knowsSlot {slot : SlotKey} {r : Option (ℕ × SlotDoc)}
    (hsaved : Session.Saved st ⟨m, .answered (.doesSlotExistCheck slot r)⟩)
    (h : Session.KnowsSlot st ⟨m, .answered (.doesSlotExistCheck slot r)⟩) :
    (m.continueRecoveringLockedAccount slot r).KnowsSlot st := by
  unfold SessionMembers.continueRecoveringLockedAccount
  cases r with
  | none => trivial
  | some found =>
      obtain ⟨cas, slotDoc⟩ := found
      simp only
      split_ifs with hfiller
      · trivial
      · obtain ⟨base, hbase, -, hlockedWith, -⟩ := hsaved
        refine ⟨slotDoc, h cas slotDoc rfl, base, hbase, ?_⟩
        rw [hlockedWith]
        exact fun he => hfiller (Option.some.inj he).symm

lemma callback_knowsSlot {now : ℚ} {reply : SessionReply}
    (hsaved : Session.Saved st ⟨m, .answered reply⟩)
    (h : Session.KnowsSlot st ⟨m, .answered reply⟩) : (m.callback now reply).KnowsSlot st := by
  cases reply with
  | loginAttempt username hash r => exact loginIfInputHashedEqualsDbInfo_knowsSlot
  | allSlotFillers r =>
      cases r with
      | none => trivial
      | some found =>
          simp only [SessionMembers.callback, SessionMembers.buySlotPopulateStep2]
          split <;> trivial
  | verifyBalance r => exact verifyUserHasSufficientFunds_knowsSlot h
  | ensureSlotDoesntExist r => exact ensureSlotDoesntExist_knowsSlot h
  | lockAccountForBuying r => exact userAccountLockAttemptFinish_knowsSlot h
  | fillSlot r => exact slotFillAkaPurchaseAddAttemptFinished_knowsSlot h
  | createTransaction => exact h
  | unlockAccountDebitting => trivial
  | updateCampaignDoc => trivial
  | doesSlotExistCheck slot r => exact continueRecoveringLockedAccount_knowsSlot hsaved h
  | unlockWithoutDebitting r =>
      simp only [SessionMembers.callback, SessionMembers.doneAttemptingUserAccountUnlocking]
      split
      · split <;> trivial
      · trivial

end Callbacks

/-! ### Steps -/

section Steps

variable {st : Db} {m : SessionMembers}

lemma perform_knowsSlot {request : SessionRequest} (hok : PurchasesOk st)
    (hsaved : Session.Saved st ⟨m, .issued request⟩)
    (h : Session.KnowsSlot st ⟨m, .issued request⟩) :
    Session.KnowsSlot (perform st (m.perform request)).1 (perform st (m.perform request)).2 := by
  cases request with
  | ensureSlotDoesntExist =>
      refine ⟨h, ⟨_, hsaved.1⟩, fun hr => ?_⟩
      exact hok.neverLockedToward (Cell.get_eq_none.1 hr) hsaved.1
        (UserAccount.profileIsLocked_eq_false.1 hsaved.2).1
  | lockAccountForBuying doc cas =>
      exact perform_set_any (P := fun r => Session.KnowsSlot r.1 r.2) h.1 (fun _ => h.1)
  | fillSlot doc =>
      dsimp only [Session.KnowsSlot] at h
      obtain ⟨hown, rfl⟩ := h
      exact perform_add (P := fun r => Session.KnowsSlot r.1 r.2)
        (fun habsent => ⟨hown, fun _ _ => Store.docAt_push_next habsent.symm _ _⟩)
        (fun _ => ⟨hown, fun cas hcas => by cases hcas⟩)
  | createTransaction doc =>
      exact perform_add (P := fun r => Session.KnowsSlot r.1 r.2)
        (fun _ => ⟨h.1, h.2.1.mono (Store.le_push _ _ _ _)⟩) (fun _ => ⟨h.1, h.2.1⟩)
  | unlockAccountDebitting doc cas =>
      exact perform_set_any (P := fun r => Session.KnowsSlot r.1 r.2)
        (h.2.mono (Store.le_push _ _ _ _)) (fun _ => h.2)
  | updateCampaignDoc doc cas =>
      exact perform_set_any (P := fun r => Session.KnowsSlot r.1 r.2) trivial (fun _ => trivial)
  | doesSlotExistCheck slot => exact fun cas slotDoc hr => hok.filledWith_of_get hr
  | unlockWithoutDebitting slot doc cas =>
      exact perform_set_any (P := fun r => Session.KnowsSlot r.1 r.2) trivial (fun _ => trivial)
  | verifyBalance => exact h
  | _ => trivial

/-- The writes of a session are what the purchase protocol allows. -/
lemma perform_purchaseWritesOk {request : SessionRequest}
    (hsaved : Session.Saved st ⟨m, .issued request⟩)
    (h : Session.KnowsSlot st ⟨m, .issued request⟩) :
    PurchaseWritesOk st (m.perform request) := by
  cases request with
  | lockAccountForBuying doc cas =>
      dsimp only [Session.Saved] at hsaved
      obtain ⟨-, rfl, -⟩ := hsaved
      exact h.2.2
  | fillSlot doc =>
      dsimp only [Session.KnowsSlot] at h
      obtain ⟨hown, rfl⟩ := h
      obtain ⟨-, -, hlocked⟩ := hsaved
      rw [← hown] at hlocked
      exact ⟨m.casFromUserAccountLock, _, hlocked, rfl, rfl⟩
  | createTransaction doc => exact h.2.2
  | unlockAccountDebitting doc cas =>
      exact ⟨m.ownSlotDoc, h.2, h.1, rfl⟩
  | unlockWithoutDebitting slot doc cas =>
      obtain ⟨slotDoc, hfilled, profile, hprofile, hne⟩ := h
      refine ⟨slotDoc, hfilled, fun profile' hprofile' => ?_⟩
      rw [hprofile] at hprofile'
      exact Option.some.inj hprofile' ▸ hne
  | _ => trivial

lemma receiveCampaignDoc_knowsSlot {s : Session} {r : Option (ℕ × CampaignDoc)}
    (h : s.KnowsSlot st) : (s.receiveCampaignDoc r).KnowsSlot st := by
  unfold Session.receiveCampaignDoc
  split
  · exact h
  · split_ifs
    · exact h
    · obtain ⟨m, phase⟩ := s
      split
      · trivial
      · exact h
      · cases phase with
        | issued request => cases request <;> exact h
        | answered reply => cases reply <;> exact h
        | _ => exact h

lemma Session.act_knowsSlot {s : Session} {x : SessionInput} (hok : PurchasesOk st)
    (hsaved : s.Saved st) (h : s.KnowsSlot st) :
    Session.KnowsSlot (perform st (s.act x)).1 (perform st (s.act x)).2 := by
  obtain ⟨m, phase⟩ := s
  cases x with
  | campaignUpdate cas => exact receiveCampaignDoc_knowsSlot h
  | proceed now =>
      cases phase with
      | issued request => exact perform_knowsSlot hok hsaved h
      | answered reply => exact callback_knowsSlot hsaved h
      | idle => exact h
      | threw => exact h
  | handleLoginButtonClicked username hash =>
      cases phase with
      | idle => trivial
      | _ => exact h
  | handleLogoutButtonClicked =>
      cases phase with
      | idle =>
          simp only [Session.act, perform, SessionMembers.handleLogoutButtonClicked]
          split <;> trivial
      | _ => exact h
  | buySlotStep1ButtonClicked =>
      cases phase with
      | idle =>
          simp only [Session.act, perform, SessionMembers.buySlotStep1ButtonClicked]
          split_ifs <;> trivial
      | _ => exact h
  | buySlotStep2ButtonClicked currentIndex =>
      cases phase with
      | idle =>
          simp only [Session.act, perform, SessionMembers.buySlotStep2ButtonClicked]
          split
          · trivial
          · split_ifs <;> trivial
      | _ => exact h

lemma Session.act_purchaseWritesOk {s : Session} {x : SessionInput} (hsaved : s.Saved st)
    (h : s.KnowsSlot st) : PurchaseWritesOk st (s.act x) := by
  obtain ⟨m, phase⟩ := s
  cases x with
  | campaignUpdate cas => trivial
  | proceed now =>
      cases phase with
      | issued request => exact perform_purchaseWritesOk hsaved h
      | _ => trivial
  | _ => cases phase <;> trivial

end Steps

/-! ## Recoverers -/

/-- The purchase facts of a recoverer: the slot it is finishing is filled, and the user it works
on is the one whose ad fills it. -/
def RecovererPhase.KnowsSlot (st : Db) : RecovererPhase → Prop
  | .getCampaignDocAgain slotIndex slotDoc => FilledWith st ⟨d3faultCampaign0, slotIndex⟩ slotDoc
  | .getTransaction x | .getSlotFiller x | .getTransactionAgain x | .updateCampaignDoc x =>
      FilledWith st x.slot x.slotDoc
  | .getUserAccount x _ u => FilledWith st x.slot x.slotDoc ∧
      u = x.slotDoc.slotFilledWith.username
  | .addTransaction x b | .debitAndUnlock x b => FilledWith st x.slot x.slotDoc ∧
      b.usernameOfBuyer = x.slotDoc.slotFilledWith.username
  | _ => True

namespace RecovererPhase

variable {st st' : Db} {r : RecovererPhase}

lemma KnowsSlot.mono (hst : st ≤ st') (h : r.KnowsSlot st) : r.KnowsSlot st' := by
  cases r with
  | getCampaignDocAgain slotIndex slotDoc => exact FilledWith.mono hst h
  | getTransaction x => exact FilledWith.mono hst h
  | getSlotFiller x => exact FilledWith.mono hst h
  | getTransactionAgain x => exact FilledWith.mono hst h
  | updateCampaignDoc x => exact FilledWith.mono hst h
  | getUserAccount x transactionDocExists u => exact ⟨h.1.mono hst, h.2⟩
  | addTransaction x b => exact ⟨h.1.mono hst, h.2⟩
  | debitAndUnlock x b => exact ⟨h.1.mono hst, h.2⟩
  | _ => trivial

lemma afterUserAccount_knowsSlot {x : Recovery} {transactionDocExists : Bool} {u : Username}
    {found : Option (ℕ × UserAccount)} (hfilled : FilledWith st x.slot x.slotDoc)
    (hbuyer : u = x.slotDoc.slotFilledWith.username) :
    (afterUserAccount x transactionDocExists u found).KnowsSlot st := by
  unfold afterUserAccount
  split
  · trivial
  · simp only
    split_ifs
    · trivial
    · exact hfilled
    · exact ⟨hfilled, hbuyer⟩
    · exact ⟨hfilled, hbuyer⟩
    · trivial
    · exact hfilled

lemma act_knowsSlot (hok : PurchasesOk st) (h : r.KnowsSlot st) :
    KnowsSlot (perform st r.act).1 (perform st r.act).2 := by
  cases r with
  | sleeping =>
      simp only [act, perform, afterCampaignDoc]
      split
      · trivial
      · split <;> trivial
  | getSlotThatShouldntExist slotIndex =>
      simp only [act, perform, afterSlot]
      split
      · trivial
      · next hread => exact hok.filledWith_of_get hread
  | getCampaignDocAgain slotIndex slotDoc =>
      simp only [act, perform, afterCampaignDocAgain]
      split
      · trivial
      · split
        · exact h
        · split
          · trivial
          · exact h
  | getTransaction x =>
      simp only [act, perform, afterTransaction]
      split
      · exact h
      · next cas doc hread =>
          obtain ⟨slotDoc, hfilled, hbuyer, -⟩ :=
            hok.transactions _ _ _ (Cell.get_eq_some.1 hread).2
          obtain rfl := hfilled.unique h
          exact ⟨h, hbuyer⟩
  | getSlotFiller x =>
      simp only [act, perform, afterSlotFiller]
      split
      · trivial
      · next cas doc hread =>
          exact ⟨h, hok.slotFillers _ _ _ (Cell.get_eq_some.1 hread).2⟩
  | getUserAccount x transactionDocExists u => exact afterUserAccount_knowsSlot h.1 h.2
  | getTransactionAgain x =>
      simp only [act, perform, afterTransactionAgain]
      split <;> trivial
  | addTransaction x b =>
      exact perform_add (P := fun r => KnowsSlot r.1 r.2)
        (fun _ => KnowsSlot.mono (r := .debitAndUnlock x b) (Store.le_push _ _ _ _) h)
        (fun _ => trivial)
  | debitAndUnlock x b =>
      refine perform_set_any (P := fun r => KnowsSlot r.1 r.2)
        (h.1.mono (Store.le_push _ _ _ _)) (fun r => ?_)
      cases r with
      | stored cas => exact h.1
      | keyExists => trivial
      | keyMissing => trivial
  | updateCampaignDoc x =>
      exact perform_set_any (P := fun r => KnowsSlot r.1 r.2) trivial
        (fun r => by cases r <;> trivial)
  | returned => trivial

lemma act_purchaseWritesOk (h : r.KnowsSlot st) : PurchaseWritesOk st r.act := by
  cases r with
  | addTransaction x b => exact ⟨x.slotDoc, h.1, h.2, rfl⟩
  | debitAndUnlock x b => exact ⟨x.slotDoc, h.1, h.2.symm, rfl⟩
  | _ => trivial

end RecovererPhase

/-! ## Creditors -/

/-- The purchase facts of a creditor: its transaction is one the store has had, and was not
creditted then. -/
def Creditor.KnowsTransaction (st : Db) (s : Creditor) : Prop :=
  match s.phase with
  | .getSeller x | .lockSeller x _ _ | .setTransactionCreditted x _ _
  | .creditAndUnlockSeller x _ _ =>
      (st (.transaction x.key)).docAt x.transactionDocCas = some x.transactionDoc ∧
        x.transactionDoc.txCredittedState = .txUncreditted
  | _ => True

namespace Creditor

variable {st st' : Db} {s : Creditor}

lemma KnowsTransaction.mono (hst : st ≤ st') (h : s.KnowsTransaction st) :
    s.KnowsTransaction st' := by
  obtain ⟨rows, found, creditted, earned, phase⟩ := s
  cases phase with
  | getSeller x => exact ⟨Cell.docAt_mono (hst _) h.1, h.2⟩
  | lockSeller x cas doc => exact ⟨Cell.docAt_mono (hst _) h.1, h.2⟩
  | setTransactionCreditted x doc cas => exact ⟨Cell.docAt_mono (hst _) h.1, h.2⟩
  | creditAndUnlockSeller x doc cas => exact ⟨Cell.docAt_mono (hst _) h.1, h.2⟩
  | _ => trivial

lemma nextRow_knowsTransaction : s.nextRow.KnowsTransaction st := by
  unfold nextRow
  split <;> trivial

lemma act_knowsTransaction (h : s.KnowsTransaction st) :
    KnowsTransaction (perform st s.act).1 (perform st s.act).2 := by
  obtain ⟨rows, found, creditted, earned, phase⟩ := s
  cases phase with
  | getTransaction key =>
      simp only [act, perform, afterTransaction]
      split
      · trivial
      · next cas doc hread =>
          obtain ⟨rfl, hdoc⟩ := Cell.get_eq_some.1 hread
          split_ifs with hstate
          · exact nextRow_knowsTransaction
          · exact nextRow_knowsTransaction
          · exact ⟨hdoc, not_not.1 hstate⟩
  | getSeller x =>
      simp only [act, perform, afterSeller]
      split
      · trivial
      · split_ifs
        · exact nextRow_knowsTransaction
        · exact h
  | lockSeller x cas doc =>
      refine perform_set_any (P := fun r => KnowsTransaction r.1 r.2)
        ⟨Cell.docAt_mono (Store.le_push _ _ _ _ _) h.1, h.2⟩ (fun r => ?_)
      cases r with
      | stored cas => exact h
      | keyExists => trivial
      | keyMissing => trivial
  | getSellerAgain x =>
      simp only [act, perform, afterSellerAgain]
      split <;> trivial
  | setTransactionCreditted x doc lockCas =>
      refine perform_set_any (P := fun r => KnowsTransaction r.1 r.2)
        ⟨Cell.docAt_mono (Store.le_push _ _ _ _ _) h.1, h.2⟩ (fun r => ?_)
      cases r with
      | stored cas => exact h
      | keyExists => trivial
      | keyMissing => trivial
  | creditAndUnlockSeller x doc lockCas =>
      refine perform_set_any (P := fun r => KnowsTransaction r.1 r.2)
        nextRow_knowsTransaction (fun r => ?_)
      cases r with
      | stored cas => exact nextRow_knowsTransaction
      | keyExists => trivial
      | keyMissing => trivial
  | finished success => trivial
  | threw => trivial

lemma act_purchaseWritesOk (hok : PurchasesOk st) (h : s.KnowsTransaction st) :
    PurchaseWritesOk st s.act := by
  obtain ⟨rows, found, creditted, earned, phase⟩ := s
  cases phase with
  | setTransactionCreditted x doc lockCas =>
      obtain ⟨slotDoc, hfilled, hfacts⟩ := hok.transactions _ _ _ h.1
      exact ⟨slotDoc, hfilled, hfacts⟩
  | _ => trivial

end Creditor

/-! ## All programs together -/

lemma AddFunds.act_purchaseWritesOk {st : Db} {s : AddFunds} {sizes : KeySetSizes}
    {x : AddFundsInput} : PurchaseWritesOk st (s.act sizes x) := by
  cases x with
  | proceed setN uuid =>
      simp only [act, AddFunds.perform]
      cases s.phase with
      | generateSetAndUuid =>
          simp only
          split_ifs <;> trivial
      | _ => trivial
  | populateAndInitialize => simp only [act]; split_ifs <;> trivial
  | handleGetBitcoinKeyButtonClicked => simp only [act]; split_ifs <;> trivial
  | confirmedBitcoinBalance balance => simp only [act]; split_ifs <;> trivial
  | doneSendingBitcoinsToCurrentAddressButtonClicked => simp only [act]; split_ifs <;> trivial

lemma purchaseWritesOk_map {σ τ : Type} {st : Db} {a : DbAction σ} (f : σ → τ)
    (h : PurchaseWritesOk st a) : PurchaseWritesOk st (a.map f) := by
  cases a with
  | add k note doc resume => cases k <;> exact h
  | set k note doc cas resume => cases k <;> exact h
  | _ => trivial

namespace Process

/-- What a process knows about purchases. -/
def KnowsPurchase (st : Db) : Process → Prop
  | session s => s.KnowsSlot st
  | recoverer r => r.KnowsSlot st
  | creditor c => c.KnowsTransaction st
  | addFunds _ => True

variable {st st' : Db} {p : Process} {sizes : KeySetSizes}

lemma KnowsPurchase.mono (hst : st ≤ st') (h : p.KnowsPurchase st) : p.KnowsPurchase st' := by
  cases p with
  | session s => exact Session.KnowsSlot.mono hst h
  | recoverer r => exact RecovererPhase.KnowsSlot.mono hst h
  | creditor c => exact Creditor.KnowsTransaction.mono hst h
  | addFunds a => trivial

lemma Initial.knowsPurchase (h : p.Initial) (st : Db) : p.KnowsPurchase st := by
  cases h with
  | session ajax campaign => trivial
  | recoverer => trivial
  | creditor rows => exact Creditor.nextRow_knowsTransaction
  | addFunds username => trivial

lemma act_knowsPurchase {x : ProcessInput} (hok : PurchasesOk st) (hsaved : p.Saved st)
    (h : p.KnowsPurchase st) :
    KnowsPurchase (perform st (p.act sizes x)).1 (perform st (p.act sizes x)).2 := by
  refine perform_act (P := fun r => KnowsPurchase r.1 r.2) ?_ ?_ ?_ ?_ h
  · rintro s y rfl
    exact Session.act_knowsSlot hok hsaved h
  · rintro r rfl
    exact RecovererPhase.act_knowsSlot hok h
  · rintro c rfl
    exact Creditor.act_knowsTransaction h
  · rintro a y rfl
    trivial

lemma act_purchaseWritesOk {x : ProcessInput} (hok : PurchasesOk st) (hsaved : p.Saved st)
    (h : p.KnowsPurchase st) : PurchaseWritesOk st (p.act sizes x) := by
  cases p with
  | session s =>
      cases x with
      | session y => exact purchaseWritesOk_map _ (Session.act_purchaseWritesOk hsaved h)
      | _ => trivial
  | recoverer r =>
      cases x with
      | run => exact purchaseWritesOk_map _ (RecovererPhase.act_purchaseWritesOk h)
      | _ => trivial
  | creditor c =>
      cases x with
      | run => exact purchaseWritesOk_map _ (Creditor.act_purchaseWritesOk hok h)
      | _ => trivial
  | addFunds a =>
      cases x with
      | addFunds y => exact purchaseWritesOk_map _ AddFunds.act_purchaseWritesOk
      | _ => trivial

end Process

/-- Run lemma: the purchase invariant holds in every reachable state, and every process knows
what it has to. -/
lemma purchases_of_reaches {ι : Type} [DecidableEq ι] {sizes : KeySetSizes}
    {ok : Db → Process → ProcessInput → Prop} {w₀ w : System ι}
    (hstart : PurchasesStart w₀.store) (hprocesses : ∀ i, (w₀.client i).Initial)
    (hreach : Reaches (Process.act sizes) ok w₀ w) :
    PurchasesOk w.store ∧ ∀ i, (w.client i).Saved w.store ∧
      (w.client i).KnowsPurchase w.store := by
  refine hreach.threadModular (I := PurchasesOk)
    (L := fun st p => p.Saved st ∧ p.KnowsPurchase st)
    (fun _ _ _ hst _ h => ⟨h.1.mono hst, h.2.mono hst⟩) (fun st p x _ hok h => ⟨?_, ?_⟩)
    hstart.ok (fun i => ⟨(hprocesses i).saved _, (hprocesses i).knowsPurchase _⟩)
  · exact hok.perform (p.act_accountWritesOk hok.accounts h.1) (p.act_purchaseWritesOk hok h.1 h.2)
  · exact ⟨p.act_saved h.1, p.act_knowsPurchase hok h.1 h.2⟩

end Autobackup.Abc2
