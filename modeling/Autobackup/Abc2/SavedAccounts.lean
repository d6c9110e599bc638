import Autobackup.Abc2.AccountHistory

/-!
# What the programs know about accounts

Each of the five flows that rewrite an account has, from the moment it has read the account
until it has written it, the JSON and the CAS of one version of the document.  `Saved` says which
version that is and what was checked of it, phase by phase.  The facts only mention old versions
of the account, so they survive whatever other processes do, and from them follows that the next
write is a transition of the account machine from the version whose CAS it carries.

`Process.Saved` and its two lemmas put the four programs together; `saved_of_reaches` at the end
says that all this holds in every reachable state.
-/

namespace Autobackup.Abc2

/-! ## What a session knows -/

/-- `doc` is the version of `u`'s account with CAS `cas`, and it is not locked. -/
def UnlockedSaved (st : Db) (u : Username) (cas : ℕ) (doc : UserAccount) : Prop :=
  (st (.userAccount u)).docAt cas = some doc ∧ doc.profileIsLocked = false

/-- `doc` with a lock toward `slot` is the version of `u`'s account with CAS `lockCas`, written
over the unlocked version with CAS `cas`. -/
def LockedSaved (st : Db) (u : Username) (cas : ℕ) (doc : UserAccount) (slot : SlotKey)
    (slotFiller : SlotFillerKey) (lockCas : ℕ) : Prop :=
  UnlockedSaved st u cas doc ∧ lockCas = cas + 1 ∧
    (st (.userAccount u)).docAt lockCas = some (doc.lockedToward slot slotFiller)

/-- The version of `u`'s account with CAS `cas` is locked toward `slot` with `slotFiller`, and
`doc` is that version or its unlocked form. -/
def StuckSaved (st : Db) (u : Username) (slot : SlotKey) (slotFiller : SlotFillerKey)
    (doc : UserAccount) (cas : ℕ) : Prop :=
  ∃ base, (st (.userAccount u)).docAt cas = some base ∧
    base.slotToAttemptToFillAkaPurchase = some slot ∧
    base.slotToAttemptToFillAkaPurchaseItWith = some slotFiller ∧
    doc.withoutSlotLock = base.withoutSlotLock

/-- The account facts of a session. -/
def Session.Saved (st : Db) (s : Session) : Prop :=
  let m := s.members
  let user := m.currentlyLoggedInUsername
  let unlocked := UnlockedSaved st user m.userAccountUnlockedJustBeforeBuyingCas
    m.userAccountUnlockedJustBeforeBuyingJson
  let lockedAt := LockedSaved st user m.userAccountUnlockedJustBeforeBuyingCas
    m.userAccountUnlockedJustBeforeBuyingJson m.adSlotAboutToBeFilledIfLockIsSuccessful
    m.slotFillerToUseInBuy
  match s.phase with
  | .answered (.loginAttempt username _ r) =>
      ∀ cas doc, r = some (cas, doc) → (st (.userAccount username)).docAt cas = some doc
  | .answered (.verifyBalance r) =>
      ∀ cas doc, r = some (cas, doc) → (st (.userAccount user)).docAt cas = some doc
  | .issued .ensureSlotDoesntExist | .answered (.ensureSlotDoesntExist _) => unlocked
  | .issued (.lockAccountForBuying doc cas) =>
      unlocked ∧ cas = m.userAccountUnlockedJustBeforeBuyingCas ∧
        doc = m.userAccountUnlockedJustBeforeBuyingJson.lockedToward
          m.adSlotAboutToBeFilledIfLockIsSuccessful m.slotFillerToUseInBuy
  | .answered (.lockAccountForBuying r) => ∀ cas, r = .stored cas → lockedAt cas
  | .issued (.fillSlot _) | .answered (.fillSlot _) | .issued (.createTransaction _)
  | .answered .createTransaction => lockedAt m.casFromUserAccountLock
  | .issued (.unlockAccountDebitting doc cas) =>
      lockedAt cas ∧ cas = m.casFromUserAccountLock ∧
        doc = m.userAccountUnlockedJustBeforeBuyingJson.debitted
          m.priceMembers.currentPriceInSatoshisToUseForBuying
  | .issued (.doesSlotExistCheck slot) | .answered (.doesSlotExistCheck slot _) =>
      StuckSaved st user slot m.accountLockedRecoverySlotFiller m.userAccountLockedJson
        m.casFromUserAccountLockedAndStuckLocked
  | .issued (.unlockWithoutDebitting slot doc cas) =>
      ∃ base, (st (.userAccount user)).docAt cas = some base ∧
        base.slotToAttemptToFillAkaPurchase = some slot ∧ doc = base.withoutSlotLock
  | _ => True

section Mono

variable {st st' : Db} {u : Username} {cas lockCas : ℕ} {doc : UserAccount} {slot : SlotKey}
  {slotFiller : SlotFillerKey}

lemma UnlockedSaved.mono (hst : st ≤ st') (h : UnlockedSaved st u cas doc) :
    UnlockedSaved st' u cas doc :=
  ⟨Cell.docAt_mono (hst _) h.1, h.2⟩

lemma LockedSaved.mono (hst : st ≤ st') (h : LockedSaved st u cas doc slot slotFiller lockCas) :
    LockedSaved st' u cas doc slot slotFiller lockCas :=
  ⟨h.1.mono hst, h.2.1, Cell.docAt_mono (hst _) h.2.2⟩

lemma StuckSaved.mono (hst : st ≤ st') (h : StuckSaved st u slot slotFiller doc cas) :
    StuckSaved st' u slot slotFiller doc cas := by
  obtain ⟨base, hbase, hfacts⟩ := h
  exact ⟨base, Cell.docAt_mono (hst _) hbase, hfacts⟩

/-- A lock can be given back: the unlocked copy is what the locked version unlocks to. -/
lemma LockedSaved.stuck (h : LockedSaved st u cas doc slot slotFiller lockCas) :
    StuckSaved st u slot slotFiller doc lockCas :=
  ⟨_, h.2.2, rfl, rfl, rfl⟩

end Mono

lemma Session.Saved.mono {st st' : Db} {s : Session} (hst : st ≤ st') (h : s.Saved st) :
    s.Saved st' := by
  obtain ⟨m, phase⟩ := s
  cases phase with
  | idle => trivial
  | threw => trivial
  | issued request =>
      cases request with
      | ensureSlotDoesntExist => exact UnlockedSaved.mono hst h
      | lockAccountForBuying doc cas => exact ⟨UnlockedSaved.mono hst h.1, h.2⟩
      | fillSlot doc => exact LockedSaved.mono hst h
      | createTransaction doc => exact LockedSaved.mono hst h
      | unlockAccountDebitting doc cas => exact ⟨LockedSaved.mono hst h.1, h.2⟩
      | doesSlotExistCheck slot => exact StuckSaved.mono hst h
      | unlockWithoutDebitting slot doc cas =>
          obtain ⟨base, hbase, hfacts⟩ := h
          exact ⟨base, Cell.docAt_mono (hst _) hbase, hfacts⟩
      | _ => trivial
  | answered reply =>
      cases reply with
      | loginAttempt username hash r => exact fun c d hr => Cell.docAt_mono (hst _) (h c d hr)
      | verifyBalance r => exact fun c d hr => Cell.docAt_mono (hst _) (h c d hr)
      | ensureSlotDoesntExist r => exact UnlockedSaved.mono hst h
      | lockAccountForBuying r => exact fun c hr => LockedSaved.mono hst (h c hr)
      | fillSlot r => exact LockedSaved.mono hst h
      | createTransaction => exact LockedSaved.mono hst h
      | doesSlotExistCheck slot r => exact StuckSaved.mono hst h
      | _ => trivial

/-! ### The callbacks of a session -/

section Callbacks

variable {st : Db} {m : SessionMembers}

lemma verifyUserHasSufficientFunds_saved {r : Option (ℕ × UserAccount)}
    (h : Session.Saved st ⟨m, .answered (.verifyBalance r)⟩) :
    (m.verifyUserHasSufficientFunds r).Saved st := by
  unfold SessionMembers.verifyUserHasSufficientFunds
  cases r with
  | none => trivial
  | some found =>
      obtain ⟨cas, doc⟩ := found
      simp only
      split_ifs with hindex hslot hlocked hprevious
      · trivial
      · trivial
      · trivial
      · exact ⟨h cas doc rfl, Bool.eq_false_iff.2 hlocked⟩
      · split
        · trivial
        · exact ⟨h cas doc rfl, Bool.eq_false_iff.2 hlocked⟩

lemma ensureSlotDoesntExist_saved {r : Option (ℕ × SlotDoc)} {now : ℚ}
    (h : Session.Saved st ⟨m, .answered (.ensureSlotDoesntExist r)⟩) :
    (m.ensureSlotDoesntExist r now).Saved st := by
  unfold SessionMembers.ensureSlotDoesntExist
  cases r with
  | some found => trivial
  | none =>
      simp only
      split_ifs with hnegative hfunds
      · trivial
      · exact ⟨h, rfl, rfl⟩
      · trivial

lemma userAccountLockAttemptFinish_saved {r : Reply}
    (h : Session.Saved st ⟨m, .answered (.lockAccountForBuying r)⟩) :
    (m.userAccountLockAttemptFinish r).Saved st := by
  cases r with
  | stored cas => exact h cas rfl
  | keyExists => trivial
  | keyMissing => trivial

lemma slotFillAkaPurchaseAddAttemptFinished_saved {r : Reply}
    (h : Session.Saved st ⟨m, .answered (.fillSlot r)⟩) :
    (m.slotFillAkaPurchaseAddAttemptFinished r).Saved st := by
  cases r with
  | stored cas => exact h
  | keyExists => exact LockedSaved.stuck h
  | keyMissing => exact LockedSaved.stuck h

lemma transactionDocCreated_saved (h : Session.Saved st ⟨m, .answered .createTransaction⟩) :
    m.transactionDocCreated.Saved st :=
  ⟨h, rfl, rfl⟩

lemma loginIfInputHashedEqualsDbInfo_saved {username : Username} {hash : String → String}
    {r : Option (ℕ × UserAccount)}
    (h : Session.Saved st ⟨m, .answered (.loginAttempt username hash r)⟩) :
    (m.loginIfInputHashedEqualsDbInfo username hash r).Saved st := by
  unfold SessionMembers.loginIfInputHashedEqualsDbInfo
  cases r with
  | none => trivial
  | some found =>
      obtain ⟨cas, doc⟩ := found
      simp only
      split_ifs with hpassword
      · cases hslot : doc.slotToAttemptToFillAkaPurchase with
        | none => trivial
        | some slot =>
            cases hfiller : doc.slotToAttemptToFillAkaPurchaseItWith with
            | none => trivial
            | some filler => exact ⟨doc, h cas doc rfl, hslot, hfiller, rfl⟩
      · trivial

lemma continueRecoveringLockedAccount_saved {slot : SlotKey} {r : Option (ℕ × SlotDoc)}
    (h : Session.Saved st ⟨m, .answered (.doesSlotExistCheck slot r)⟩) :
    (m.continueRecoveringLockedAccount slot r).Saved st := by
  unfold SessionMembers.continueRecoveringLockedAccount
  cases r with
  | none => trivial
  | some found =>
      simp only
      split_ifs with hfiller
      · trivial
      · obtain ⟨base, hbase, hslot, -, hdoc⟩ := h
        exact ⟨base, hbase, hslot, hdoc⟩

lemma callback_saved {now : ℚ} {reply : SessionReply}
    (h : Session.Saved st ⟨m, .answered reply⟩) : (m.callback now reply).Saved st := by
  cases reply with
  | loginAttempt username hash r => exact loginIfInputHashedEqualsDbInfo_saved h
  | allSlotFillers r =>
      cases r with
      | none => trivial
      | some found =>
          simp only [SessionMembers.callback, SessionMembers.buySlotPopulateStep2]
          split <;> trivial
  | verifyBalance r => exact verifyUserHasSufficientFunds_saved h
  | ensureSlotDoesntExist r => exact ensureSlotDoesntExist_saved h
  | lockAccountForBuying r => exact userAccountLockAttemptFinish_saved h
  | fillSlot r => exact slotFillAkaPurchaseAddAttemptFinished_saved h
  | createTransaction => exact transactionDocCreated_saved h
  | unlockAccountDebitting => trivial
  | updateCampaignDoc => trivial
  | doesSlotExistCheck slot r => exact continueRecoveringLockedAccount_saved h
  | unlockWithoutDebitting r =>
      simp only [SessionMembers.callback, SessionMembers.doneAttemptingUserAccountUnlocking]
      split
      · split <;> trivial
      · trivial

end Callbacks

/-! ### The steps of a session -/

section Steps

variable {st : Db} {m : SessionMembers}

/-- Performing a request keeps what the session knows and tells it what was read or written. -/
lemma perform_saved {request : SessionRequest} (h : Session.Saved st ⟨m, .issued request⟩) :
    Session.Saved (perform st (m.perform request)).1 (perform st (m.perform request)).2 := by
  cases request with
  | loginAttempt username hash => exact fun c d hr => (Cell.get_eq_some.1 hr).1 ▸
      (Cell.get_eq_some.1 hr).2
  | campaignDocForNoJs => trivial
  | allSlotFillers => trivial
  | verifyBalance => exact fun c d hr => (Cell.get_eq_some.1 hr).1 ▸ (Cell.get_eq_some.1 hr).2
  | ensureSlotDoesntExist => exact h
  | lockAccountForBuying doc cas =>
      dsimp only [Session.Saved] at h
      obtain ⟨hunlocked, rfl, rfl⟩ := h
      refine perform_set (P := fun r => Session.Saved r.1 r.2)
        (Cell.docAt_bounds hunlocked.1).1 (fun hcas => ?_) (fun r hr => ?_)
      · rintro cas ⟨⟩
        exact ⟨hunlocked.mono (Store.le_push _ _ _ _), rfl, Store.docAt_push_next hcas _ _⟩
      · exact fun cas hcas => absurd hcas (hr cas)
  | fillSlot doc =>
      exact perform_add (P := fun r => Session.Saved r.1 r.2)
        (fun _ => LockedSaved.mono (Store.le_push _ _ _ _) h) (fun _ => h)
  | createTransaction doc =>
      exact perform_add (P := fun r => Session.Saved r.1 r.2)
        (fun _ => LockedSaved.mono (Store.le_push _ _ _ _) h) (fun _ => h)
  | unlockAccountDebitting doc cas =>
      exact perform_set (P := fun r => Session.Saved r.1 r.2) (Cell.docAt_bounds h.1.2.2).1
        (fun _ => trivial) (fun _ _ => trivial)
  | updateCampaignDoc doc cas =>
      exact perform_set_any (P := fun r => Session.Saved r.1 r.2) trivial (fun _ => trivial)
  | doesSlotExistCheck slot => exact h
  | unlockWithoutDebitting slot doc cas =>
      obtain ⟨base, hbase, -⟩ := h
      exact perform_set (P := fun r => Session.Saved r.1 r.2) (Cell.docAt_bounds hbase).1
        (fun _ => trivial) (fun _ _ => trivial)

/-- The account writes of a session are steps of the account machine. -/
lemma perform_accountWritesOk {request : SessionRequest} (hok : AccountsOk st)
    (h : Session.Saved st ⟨m, .issued request⟩) : AccountWritesOk st (m.perform request) := by
  cases request with
  | lockAccountForBuying doc cas =>
      dsimp only [Session.Saved] at h
      obtain ⟨hunlocked, rfl, rfl⟩ := h
      exact ⟨_, hunlocked.1, hunlocked.2, _, rfl⟩
  | unlockAccountDebitting doc cas =>
      dsimp only [Session.Saved] at h
      obtain ⟨⟨⟨hread, hunlocked⟩, -, hlocked⟩, rfl, rfl⟩ := h
      refine ⟨_, hlocked, rfl, ?_⟩
      -- the debit starts from the unlocked copy, which carries no slot and so no filler either
      obtain ⟨hslot, -, -⟩ := UserAccount.profileIsLocked_eq_false.1 hunlocked
      have hfiller := (hok.wellFormed _ _ _ hread).filler hslot
      change UserAccount.debitted _ _ = UserAccount.debitted (UserAccount.withoutSlotLock _) _
      rw [UserAccount.withoutSlotLock_eq_self hslot hfiller]
  | unlockWithoutDebitting slot doc cas =>
      obtain ⟨base, hbase, hslot, hdoc⟩ := h
      exact ⟨base, hbase, hslot, hdoc⟩
  | _ => trivial

lemma receiveCampaignDoc_saved {s : Session} {r : Option (ℕ × CampaignDoc)} (h : s.Saved st) :
    (s.receiveCampaignDoc r).Saved st := by
  unfold Session.receiveCampaignDoc
  split
  · exact h
  · split_ifs
    · exact h
    · obtain ⟨m, phase⟩ := s
      split
      · trivial
      · exact h
      · cases phase with
        | issued request => cases request <;> exact h
        | answered reply => cases reply <;> exact h
        | _ => exact h

lemma Session.act_saved {s : Session} {x : SessionInput} (h : s.Saved st) :
    Session.Saved (perform st (s.act x)).1 (perform st (s.act x)).2 := by
  obtain ⟨m, phase⟩ := s
  cases x with
  | campaignUpdate cas => exact receiveCampaignDoc_saved h
  | proceed now =>
      cases phase with
      | issued request => exact perform_saved h
      | answered reply => exact callback_saved h
      | idle => exact h
      | threw => exact h
  | handleLoginButtonClicked username hash =>
      cases phase with
      | idle => trivial
      | _ => exact h
  | handleLogoutButtonClicked =>
      cases phase with
      | idle =>
          simp only [Session.act, perform, SessionMembers.handleLogoutButtonClicked]
          split <;> trivial
      | _ => exact h
  | buySlotStep1ButtonClicked =>
      cases phase with
      | idle =>
          simp only [Session.act, perform, SessionMembers.buySlotStep1ButtonClicked]
          split_ifs <;> trivial
      | _ => exact h
  | buySlotStep2ButtonClicked currentIndex =>
      cases phase with
      | idle =>
          simp only [Session.act, perform, SessionMembers.buySlotStep2ButtonClicked]
          split
          · trivial
          · split_ifs <;> trivial
      | _ => exact h

lemma Session.act_accountWritesOk {s : Session} {x : SessionInput} (hok : AccountsOk st)
    (h : s.Saved st) : AccountWritesOk st (s.act x) := by
  obtain ⟨m, phase⟩ := s
  cases x with
  | campaignUpdate cas => trivial
  | proceed now =>
      cases phase with
      | issued request => exact perform_accountWritesOk hok h
      | _ => trivial
  | _ => cases phase <;> trivial

end Steps

/-! ## What a recoverer knows -/

/-- The account facts of a recoverer: the account it is about to debit is locked toward the slot
being recovered. -/
def RecovererPhase.Saved (st : Db) : RecovererPhase → Prop
  | .addTransaction x b | .debitAndUnlock x b =>
      (st (.userAccount b.usernameOfBuyer)).docAt b.userAccountCas = some b.userAccount ∧
        b.userAccount.slotToAttemptToFillAkaPurchase = some x.slot
  | _ => True

namespace RecovererPhase

variable {st st' : Db} {r : RecovererPhase}

lemma Saved.mono (hst : st ≤ st') (h : r.Saved st) : r.Saved st' := by
  cases r with
  | addTransaction x b => exact ⟨Cell.docAt_mono (hst _) h.1, h.2⟩
  | debitAndUnlock x b => exact ⟨Cell.docAt_mono (hst _) h.1, h.2⟩
  | _ => trivial

lemma afterUserAccount_saved {x : Recovery} {transactionDocExists : Bool} {u : Username} :
    (afterUserAccount x transactionDocExists u (st (.userAccount u)).get).Saved st := by
  unfold afterUserAccount
  split
  · trivial
  · next cas doc hread =>
      obtain ⟨rfl, hdoc⟩ := Cell.get_eq_some.1 hread
      simp only
      split_ifs with h₁ h₂ h₃ h₄ h₅
      · trivial
      · trivial
      · exact ⟨hdoc, by simpa using h₂⟩
      · exact ⟨hdoc, by simpa using h₄⟩
      · trivial
      · trivial

lemma act_saved (h : r.Saved st) : Saved (perform st r.act).1 (perform st r.act).2 := by
  cases r with
  | sleeping =>
      simp only [act, perform, afterCampaignDoc]
      split
      · trivial
      · split <;> trivial
  | getSlotThatShouldntExist slotIndex =>
      simp only [act, perform, afterSlot]
      split <;> trivial
  | getCampaignDocAgain slotIndex slotDoc =>
      simp only [act, perform, afterCampaignDocAgain]
      split
      · trivial
      · split
        · trivial
        · split <;> trivial
  | getTransaction x =>
      simp only [act, perform, afterTransaction]
      split <;> trivial
  | getSlotFiller x =>
      simp only [act, perform, afterSlotFiller]
      split <;> trivial
  | getUserAccount x transactionDocExists u => exact afterUserAccount_saved
  | getTransactionAgain x =>
      simp only [act, perform, afterTransactionAgain]
      split <;> trivial
  | addTransaction x b =>
      exact perform_add (P := fun r => Saved r.1 r.2)
        (fun _ => Saved.mono (r := .debitAndUnlock x b) (Store.le_push _ _ _ _) h)
        (fun _ => trivial)
  | debitAndUnlock x b =>
      exact perform_set_any (P := fun r => Saved r.1 r.2) trivial
        (fun r => by cases r <;> trivial)
  | updateCampaignDoc x =>
      exact perform_set_any (P := fun r => Saved r.1 r.2) trivial
        (fun r => by cases r <;> trivial)
  | returned => trivial

lemma act_accountWritesOk (h : r.Saved st) : AccountWritesOk st r.act := by
  cases r with
  | debitAndUnlock x b => exact ⟨b.userAccount, h.1, h.2, rfl⟩
  | _ => trivial

end RecovererPhase

/-! ## What a creditor knows -/

/-- The account facts of a creditor: the profile it is about to lock is unlocked, and the one it
is about to credit is locked toward the transaction. -/
def Creditor.Saved (st : Db) (s : Creditor) : Prop :=
  match s.phase with
  | .lockSeller x cas doc =>
      (st (.userAccount x.transactionDoc.seller)).docAt cas = some doc ∧
        doc.profileIsLocked = false
  | .setTransactionCreditted x doc lockCas | .creditAndUnlockSeller x doc lockCas =>
      (st (.userAccount x.transactionDoc.seller)).docAt lockCas = some doc ∧
        doc.lockedCredittingTransaction = some x.key
  | _ => True

namespace Creditor

variable {st st' : Db} {s : Creditor}

lemma Saved.mono (hst : st ≤ st') (h : s.Saved st) : s.Saved st' := by
  obtain ⟨rows, found, creditted, earned, phase⟩ := s
  cases phase with
  | lockSeller x cas doc => exact ⟨Cell.docAt_mono (hst _) h.1, h.2⟩
  | setTransactionCreditted x doc cas => exact ⟨Cell.docAt_mono (hst _) h.1, h.2⟩
  | creditAndUnlockSeller x doc cas => exact ⟨Cell.docAt_mono (hst _) h.1, h.2⟩
  | _ => trivial

lemma nextRow_saved : s.nextRow.Saved st := by
  unfold nextRow
  split <;> trivial

lemma act_saved (h : s.Saved st) : Saved (perform st s.act).1 (perform st s.act).2 := by
  obtain ⟨rows, found, creditted, earned, phase⟩ := s
  cases phase with
  | getTransaction key =>
      simp only [act, perform, afterTransaction]
      split
      · trivial
      · split_ifs
        · exact nextRow_saved
        · exact nextRow_saved
        · trivial
  | getSeller x =>
      simp only [act, perform, afterSeller]
      split
      · trivial
      · next cas doc hread =>
          obtain ⟨rfl, hdoc⟩ := Cell.get_eq_some.1 hread
          split_ifs with hlocked
          · exact nextRow_saved
          · exact ⟨hdoc, Bool.eq_false_iff.2 hlocked⟩
  | lockSeller x cas doc =>
      refine perform_set (P := fun r => Saved r.1 r.2) (Cell.docAt_bounds h.1).1
        (fun hcas => ⟨Store.docAt_push_next hcas _ _, rfl⟩) (fun r hr => ?_)
      cases r with
      | stored cas => exact absurd rfl (hr cas)
      | keyExists => trivial
      | keyMissing => trivial
  | getSellerAgain x =>
      simp only [act, perform, afterSellerAgain]
      split <;> trivial
  | setTransactionCreditted x doc lockCas =>
      refine perform_set_any (P := fun r => Saved r.1 r.2) ?_ (fun r => ?_)
      · exact ⟨Cell.docAt_mono (Store.le_push _ _ _ _ _) h.1, h.2⟩
      · cases r with
        | stored cas => exact h
        | keyExists => trivial
        | keyMissing => trivial
  | creditAndUnlockSeller x doc lockCas =>
      refine perform_set_any (P := fun r => Saved r.1 r.2) nextRow_saved (fun r => ?_)
      cases r with
      | stored cas => exact nextRow_saved
      | keyExists => trivial
      | keyMissing => trivial
  | finished success => trivial
  | threw => trivial

lemma act_accountWritesOk (h : s.Saved st) : AccountWritesOk st s.act := by
  obtain ⟨rows, found, creditted, earned, phase⟩ := s
  cases phase with
  | lockSeller x cas doc => exact ⟨doc, h.1, h.2, rfl⟩
  | creditAndUnlockSeller x doc lockCas => exact ⟨doc, h.1, h.2, rfl⟩
  | _ => trivial

end Creditor

/-! ## What an add-funds tab knows -/

/-- `doc` and the version of `u`'s account with CAS `cas`, which is not locked, differ at most
in their bitcoin state. -/
def KeySaved (st : Db) (u : Username) (cas : ℕ) (doc : UserAccount) : Prop :=
  ∃ base, (st (.userAccount u)).docAt cas = some base ∧ base.profileIsLocked = false ∧
    ∀ state, { doc with bitcoinState := state } = { base with bitcoinState := state }

/-- The account facts of an add-funds tab. -/
def AddFunds.Saved (st : Db) (s : AddFunds) : Prop :=
  match s.phase with
  | .idle | .threw | .determineBitcoinState | .getUserAccountForGettingKey
  | .getUserAccountForCredit => True
  | .creditConfirmedBitcoinAmount doc cas =>
      ∃ base, (st (.userAccount s.currentlyLoggedInUsername)).docAt cas = some base ∧
        base.Step (.deposit s.confirmedBitcoinBalanceInSatoshis) doc
  | _ => KeySaved st s.currentlyLoggedInUsername s.userAccountCas s.userAccountJson

lemma KeySaved.mono {st st' : Db} {u : Username} {cas : ℕ} {doc : UserAccount} (hst : st ≤ st')
    (h : KeySaved st u cas doc) : KeySaved st' u cas doc := by
  obtain ⟨base, hbase, hfacts⟩ := h
  exact ⟨base, Cell.docAt_mono (hst _) hbase, hfacts⟩

namespace AddFunds

variable {st st' : Db} {s : AddFunds} {sizes : KeySetSizes}

lemma Saved.mono (hst : st ≤ st') (h : s.Saved st) : s.Saved st' := by
  unfold Saved at h ⊢
  cases hphase : s.phase with
  | creditConfirmedBitcoinAmount doc cas =>
      rw [hphase] at h
      obtain ⟨base, hbase, hstep⟩ := h
      exact ⟨base, Cell.docAt_mono (hst _) hbase, hstep⟩
  | _ =>
      rw [hphase] at h
      first | trivial | exact KeySaved.mono hst h

/-! ### The callbacks of the key procedure -/

/-- The facts the key procedure runs on, in any of its phases. -/
abbrev HasKeySaved (st : Db) (s : AddFunds) : Prop :=
  KeySaved st s.currentlyLoggedInUsername s.userAccountCas s.userAccountJson

lemma checkNotAttemptingToFill_saved {cas : ℕ} {doc : UserAccount}
    (hread : (st (.userAccount s.currentlyLoggedInUsername)).docAt cas = some doc) :
    (s.checkNotAttemptingToFill (some (cas, doc))).Saved st := by
  unfold checkNotAttemptingToFill
  simp only
  split_ifs with hlocked
  · trivial
  · have hunlocked : doc.profileIsLocked = false := Bool.eq_false_iff.2 hlocked
    split
    · trivial
    · exact ⟨doc, hread, hunlocked, fun _ => rfl⟩
    · exact ⟨doc, hread, hunlocked, fun _ => rfl⟩

lemma determineBitcoinState_saved {cas : ℕ} {doc : UserAccount}
    (hread : (st (.userAccount s.currentlyLoggedInUsername)).docAt cas = some doc) :
    (s.determineBitcoinState (some (cas, doc))).Saved st := by
  unfold determineBitcoinState
  simp only
  split
  · trivial
  · split_ifs <;> trivial
  · split_ifs
    · trivial
    · exact checkNotAttemptingToFill_saved hread

lemma proceedToBitcoinKeySetNgetting_saved (h : s.HasKeySaved st) :
    s.proceedToBitcoinKeySetNgetting.Saved st := by
  unfold proceedToBitcoinKeySetNgetting
  split_ifs <;> exact h

lemma analyzeCurrentPageDoc_saved {r : Option (ℕ × KeySetCurrentPageDoc)}
    (h : s.HasKeySaved st) : (s.analyzeCurrentPageDoc r).Saved st := by
  unfold analyzeCurrentPageDoc
  cases r with
  | none => trivial
  | some found =>
      obtain ⟨cas, doc⟩ := found
      cases doc with
      | currentPage pageY => exact proceedToBitcoinKeySetNgetting_saved h
      | fillingNextBitcoinKeySetPage pageY uuid pageZ => exact h

lemma analyzePageY_saved {cas : ℕ} {pageY : List KeyPlace} (h : s.HasKeySaved st) :
    (s.analyzePageY sizes cas pageY).Saved st := by
  unfold analyzePageY
  split
  · exact h
  · exact h
  · exact h
  · trivial

lemma gotHugeBitcoinKeyListPage_saved {r : Option (ℕ × List KeyRange)} (h : s.HasKeySaved st) :
    (s.gotHugeBitcoinKeyListPage sizes r).Saved st := by
  unfold gotHugeBitcoinKeyListPage
  cases r with
  | none =>
      simp only
      split_ifs
      · exact h
      · trivial
  | some found =>
      simp only
      split
      · exact h
      · exact h
      · simp only [request]
        split_ifs <;> exact h
      · trivial

lemma creditAfterAnalyzingUserAccount_saved {cas : ℕ} {doc : UserAccount}
    (hread : (st (.userAccount s.currentlyLoggedInUsername)).docAt cas = some doc) :
    (s.creditAfterAnalyzingUserAccount (some (cas, doc))).Saved st := by
  unfold creditAfterAnalyzingUserAccount
  simp only
  split_ifs with hlocked hkey
  · trivial
  · trivial
  · exact ⟨doc, hread, Bool.eq_false_iff.2 hlocked, ⟨_, not_not.1 hkey⟩, rfl⟩

/-! ### The steps of a tab -/

lemma perform_saved {setN : ℕ} {uuid : GetKeyUuid} (h : s.Saved st) :
    Saved (Autobackup.perform st (s.perform sizes setN uuid)).1
      (Autobackup.perform st (s.perform sizes setN uuid)).2 := by
  unfold Saved at h
  unfold AddFunds.perform
  cases hphase : s.phase with
  | idle => simp only [Autobackup.perform, Saved, hphase]
  | threw => simp only [Autobackup.perform, Saved, hphase]
  | determineBitcoinState =>
      simp only [Autobackup.perform]
      cases hread : (st (.userAccount s.currentlyLoggedInUsername)).get with
      | none => trivial
      | some found =>
          obtain ⟨-, hdoc⟩ := Cell.get_eq_some.1 hread
          exact determineBitcoinState_saved hdoc
  | getUserAccountForGettingKey =>
      simp only [Autobackup.perform]
      cases hread : (st (.userAccount s.currentlyLoggedInUsername)).get with
      | none => trivial
      | some found =>
          obtain ⟨-, hdoc⟩ := Cell.get_eq_some.1 hread
          exact checkNotAttemptingToFill_saved hdoc
  | getUserAccountForCredit =>
      simp only [Autobackup.perform]
      cases hread : (st (.userAccount s.currentlyLoggedInUsername)).get with
      | none => trivial
      | some found =>
          obtain ⟨-, hdoc⟩ := Cell.get_eq_some.1 hread
          exact creditAfterAnalyzingUserAccount_saved hdoc
  | creditConfirmedBitcoinAmount doc cas =>
      refine perform_set_any (P := fun r => Saved r.1 r.2) trivial (fun r => ?_)
      cases r <;> trivial
  | generateSetAndUuid =>
      rw [hphase] at h
      simp only
      split_ifs
      · refine perform_add (P := fun r => Saved r.1 r.2) (fun _ => ?_) (fun _ => ?_)
        · exact KeySaved.mono (Store.le_push _ _ _ _) h
        · simpa only [Saved, setAndUuidGenerated, hphase] using h
      · simpa only [Autobackup.perform, Saved, hphase] using h
  | getCurrentPage => rw [hphase] at h; exact analyzeCurrentPageDoc_saved h
  | lockIntoGettingKey =>
      rw [hphase] at h
      obtain ⟨base, hbase, hunlocked, hsame⟩ := h
      refine perform_set (P := fun r => Saved r.1 r.2) (Cell.docAt_bounds hbase).1
        (fun hcas => ?_) (fun r hr => ?_)
      · refine ⟨_, Store.docAt_push_next hcas _ _, ?_, fun _ => rfl⟩
        have hdoc := hsame (.GettingKey s.setN s.page s.perGetBitcoinKeyUUID)
        simp only [userAccountGettingKey]
        rw [hdoc]
        exact hunlocked
      · cases r with
        | stored cas => exact absurd rfl (hr cas)
        | keyExists => trivial
        | keyMissing => trivial
  | getPageY =>
      rw [hphase] at h
      simp only [Autobackup.perform, gotPageY]
      split
      · trivial
      · exact analyzePageY_saved h
  | claimKey pageY cas =>
      rw [hphase] at h
      refine perform_set_any (P := fun r => Saved r.1 r.2)
        (KeySaved.mono (Store.le_push _ _ _ _) h) (fun r => ?_)
      cases r <;> exact h
  | unlockIntoHaveKey =>
      refine perform_set_any (P := fun r => Saved r.1 r.2) trivial (fun r => ?_)
      cases r <;> trivial
  | getNextPageY =>
      rw [hphase] at h
      simp only [Autobackup.perform, gotNextPageY]
      split
      · exact h
      · exact analyzePageY_saved h
  | getHugeBitcoinKeyListCurrentPage =>
      rw [hphase] at h
      simp only [Autobackup.perform, hugeBitcoinKeyListCurrentPageGetComplete]
      split
      · trivial
      · exact h
  | lockCurrentPage =>
      rw [hphase] at h
      refine perform_set_any (P := fun r => Saved r.1 r.2)
        (KeySaved.mono (Store.le_push _ _ _ _) h) (fun r => ?_)
      cases r with
      | stored cas => exact h
      | keyExists => trivial
      | keyMissing => trivial
  | getHugeBitcoinKeyListPage => rw [hphase] at h; exact gotHugeBitcoinKeyListPage_saved h
  | relockCurrentPage =>
      exact perform_set_any (P := fun r => Saved r.1 r.2) trivial (fun _ => trivial)
  | claimKeyRange pageZ cas =>
      rw [hphase] at h
      refine perform_set_any (P := fun r => Saved r.1 r.2)
        (KeySaved.mono (Store.le_push _ _ _ _) h) (fun r => ?_)
      cases r <;> exact h
  | changeHugeBitcoinKeyListCurrentPage =>
      rw [hphase] at h
      exact perform_set_any (P := fun r => Saved r.1 r.2)
        (KeySaved.mono (Store.le_push _ _ _ _) h) (fun _ => h)
  | createPageY =>
      rw [hphase] at h
      exact perform_add (P := fun r => Saved r.1 r.2)
        (fun _ => KeySaved.mono (Store.le_push _ _ _ _) h) (fun _ => h)
  | unlockCurrentPage =>
      rw [hphase] at h
      refine perform_set_any (P := fun r => Saved r.1 r.2)
        (proceedToBitcoinKeySetNgetting_saved (KeySaved.mono (Store.le_push _ _ _ _) h))
        (fun r => ?_)
      cases r with
      | stored cas => exact proceedToBitcoinKeySetNgetting_saved h
      | keyExists => exact h
      | keyMissing => exact h

lemma act_saved {x : AddFundsInput} (h : s.Saved st) :
    Saved (Autobackup.perform st (s.act sizes x)).1 (Autobackup.perform st (s.act sizes x)).2 := by
  cases x with
  | proceed setN uuid => exact perform_saved h
  | populateAndInitialize =>
      simp only [act]
      split_ifs
      · trivial
      · exact h
  | handleGetBitcoinKeyButtonClicked =>
      simp only [act]
      split_ifs
      · trivial
      · exact h
  | confirmedBitcoinBalance balance =>
      simp only [act]
      split_ifs with hidle
      · simp only [Autobackup.perform, Saved, hidle.1]
      · exact h
  | doneSendingBitcoinsToCurrentAddressButtonClicked =>
      simp only [act]
      split_ifs with hidle
      · simp only [Autobackup.perform, doneSendingBitcoinsToCurrentAddressButtonClicked]
        split_ifs
        · exact h
        · trivial
      · exact h

lemma act_accountWritesOk {x : AddFundsInput} (h : s.Saved st) :
    AccountWritesOk st (s.act sizes x) := by
  unfold Saved at h
  cases x with
  | proceed setN uuid =>
      simp only [act, AddFunds.perform]
      cases hphase : s.phase with
      | generateSetAndUuid =>
          simp only
          split_ifs <;> trivial
      | lockIntoGettingKey =>
          rw [hphase] at h
          obtain ⟨base, hbase, hunlocked, hsame⟩ := h
          exact ⟨base, hbase, hunlocked, _, _, _, hsame _⟩
      | unlockIntoHaveKey =>
          rw [hphase] at h
          obtain ⟨base, hbase, hunlocked, hsame⟩ := h
          exact ⟨base, hbase, hunlocked, _, hsame _⟩
      | creditConfirmedBitcoinAmount doc cas => rw [hphase] at h; exact h
      | _ => trivial
  | populateAndInitialize => simp only [act]; split_ifs <;> trivial
  | handleGetBitcoinKeyButtonClicked => simp only [act]; split_ifs <;> trivial
  | confirmedBitcoinBalance balance => simp only [act]; split_ifs <;> trivial
  | doneSendingBitcoinsToCurrentAddressButtonClicked =>
      simp only [act]; split_ifs <;> trivial

end AddFunds

/-! ## All programs together -/

lemma accountWritesOk_map {σ τ : Type} {st : Db} {a : DbAction σ} (f : σ → τ)
    (h : AccountWritesOk st a) : AccountWritesOk st (a.map f) := by
  cases a with
  | add k note doc resume => cases k <;> exact h
  | set k note doc cas resume => cases k <;> exact h
  | _ => trivial

namespace Process

/-- What a process knows about accounts. -/
def Saved (st : Db) : Process → Prop
  | session s => s.Saved st
  | recoverer r => r.Saved st
  | creditor c => c.Saved st
  | addFunds a => a.Saved st

variable {st st' : Db} {p : Process} {sizes : KeySetSizes}

lemma Saved.mono (hst : st ≤ st') (h : p.Saved st) : p.Saved st' := by
  cases p with
  | session s => exact Session.Saved.mono hst h
  | recoverer r => exact RecovererPhase.Saved.mono hst h
  | creditor c => exact Creditor.Saved.mono hst h
  | addFunds a => exact AddFunds.Saved.mono hst h

lemma Initial.saved (h : p.Initial) (st : Db) : p.Saved st := by
  cases h with
  | session ajax campaign => trivial
  | recoverer => trivial
  | creditor rows => exact Creditor.nextRow_saved
  | addFunds username => trivial

lemma act_saved {x : ProcessInput} (h : p.Saved st) :
    Saved (perform st (p.act sizes x)).1 (perform st (p.act sizes x)).2 := by
  refine perform_act (P := fun r => Saved r.1 r.2) ?_ ?_ ?_ ?_ h
  · rintro s y rfl
    exact Session.act_saved h
  · rintro r rfl
    exact RecovererPhase.act_saved h
  · rintro c rfl
    exact Creditor.act_saved h
  · rintro a y rfl
    exact AddFunds.act_saved h

lemma act_accountWritesOk {x : ProcessInput} (hok : AccountsOk st) (h : p.Saved st) :
    AccountWritesOk st (p.act sizes x) := by
  cases p with
  | session s =>
      cases x with
      | session y => exact accountWritesOk_map _ (Session.act_accountWritesOk hok h)
      | _ => trivial
  | recoverer r =>
      cases x with
      | run => exact accountWritesOk_map _ (RecovererPhase.act_accountWritesOk h)
      | _ => trivial
  | creditor c =>
      cases x with
      | run => exact accountWritesOk_map _ (Creditor.act_accountWritesOk h)
      | _ => trivial
  | addFunds a =>
      cases x with
      | addFunds y => exact accountWritesOk_map _ (AddFunds.act_accountWritesOk h)
      | _ => trivial

end Process

/-! ## Every run -/

section Runs

variable {ι : Type} [DecidableEq ι] {sizes : KeySetSizes} {ok : Db → Process → ProcessInput → Prop}
  {w₀ w : System ι}

/-- Run lemma: the accounts are runs of the account machine, and every process knows what it has
to, in every reachable state. -/
lemma saved_of_reaches (haccounts : AccountsStart w₀.store)
    (hprocesses : ∀ i, (w₀.client i).Initial)
    (hreach : Reaches (Process.act sizes) ok w₀ w) :
    AccountsOk w.store ∧ ∀ i, (w.client i).Saved w.store := by
  refine hreach.threadModular (I := AccountsOk) (L := fun st p => p.Saved st)
    (fun _ _ _ hst _ h => h.mono hst) (fun st p x _ hok h => ⟨?_, p.act_saved h⟩)
    haccounts.ok (fun i => (hprocesses i).saved _)
  exact hok.perform (p.act_accountWritesOk hok h)

end Runs

end Autobackup.Abc2
