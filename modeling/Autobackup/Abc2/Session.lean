import Autobackup.Abc2.SlotPricing

/-!
# A front end session: login, login recovery and buying a slot

One `Session` is one `AnonymousBitcoinComputingWtGUI` object showing the page of one campaign.
Its members are the member variables the login and purchase callbacks share, and its phase says
which couchbase request is outstanding.  Each callback of the source is one function here, under
the source's name (shortened), from the members and the reply to the members and the next
request.

Two things are finer than "one callback, one step".  A request is *performed* in one step and its
callback *runs* in a later one, because buy events, that is updates of the campaign document, can
reach the session between the two; `SessionInput.campaignUpdate` is that event, and it can come
at any time.  And the update may carry any version of the campaign document not older than the
one the session has, because the backend polls and caches.

One thing is coarser.  Rendering is deferred from a click until the flow it starts has ended, so
the model lets the user click only while nothing is outstanding.  What is only displayed (labels,
messages, the price shown for confirmation) is left out.
-/

namespace Autobackup.Abc2

/-! ## Texts -/

/-- `boost` splitting: cut `text` at every occurrence of `separator`.  The counter skips what is
left of a separator already recognised. -/
def splitText (separator : List Char) : ℕ → List Char → List Char → List (List Char)
  | _, piece, [] => [piece.reverse]
  | skip + 1, piece, _ :: text => splitText separator skip piece text
  | 0, piece, c :: text =>
      if separator.isPrefixOf (c :: text) then
        piece.reverse :: splitText separator (separator.length - 1) [] text
      else splitText separator 0 (c :: piece) text

/-- The nickname of an ad ends in ` -- <width>x<height>`, and these are the campaign's. -/
def dimensionsMatch (adSlotFillerNickname imageWidth imageHeight : String) : Bool :=
  let splitByDoubleDash := splitText " -- ".toList 0 [] adSlotFillerNickname.toList
  if splitByDoubleDash.length > 1 then
    let splitByX := splitText "x".toList 0 [] (splitByDoubleDash.getLastD [])
    if splitByX.length = 2 then
      splitByX.headD [] == imageWidth.toList && splitByX.getLastD [] == imageHeight.toList
    else false
  else false

/-! ## The three account documents a session writes -/

namespace UserAccount

def lockedToward (profile : UserAccount) (slot : SlotKey) (slotFiller : SlotFillerKey) :
    UserAccount :=
  { profile with
    slotToAttemptToFillAkaPurchase := some slot
    slotToAttemptToFillAkaPurchaseItWith := some slotFiller }

def withoutSlotLock (profile : UserAccount) : UserAccount :=
  { profile with
    slotToAttemptToFillAkaPurchase := none
    slotToAttemptToFillAkaPurchaseItWith := none }

def debitted (profile : UserAccount) (price : ℤ) : UserAccount :=
  { profile with balanceInSatoshis := profile.balanceInSatoshis - price }

end UserAccount

/-! ## Members and phases -/

structure SessionMembers where
  /-- `environment().ajax()` -/
  ajax : Bool
  /-- `m_CampaignOwnerForPageBeingViewed` and `m_CampaignIndexForPageBeingViewed` -/
  campaign : CampaignKey
  firstPopulate : Bool := true
  loggedIn : Bool := false
  currentlyLoggedInUsername : Username := ""
  /-- `m_HackedInD3faultCampaign0JsonDocForUpdatingLaterAfterSuccessfulPurchase` -/
  campaignJsonDoc : CampaignDoc := default
  /-- `m_HackedInD3faultCampaign0CasForSafelyUpdatingCampaignDocLaterAfterSuccessfulPurchase` -/
  campaignCas : ℕ := 0
  campaignMembers : CampaignMembers := {}
  currentAdCampaignImageWidth : String := ""
  currentAdCampaignImageHeight : String := ""
  /-- Whether `m_BuySlotFillerStep1Button` was created. -/
  buySlotFillerStep1Button : Bool := false
  /-- `m_SlotIndexImmediatelyAfterBuyStep1wasPressed_…` -/
  slotIndexImmediatelyAfterBuyStep1wasPressed : Option ℕ := none
  /-- `m_BuyStep2placeholder` with the contents of its combo box. -/
  buyStep2placeholder : Option AllSlotFillersDoc := none
  buyInProgress : Bool := false
  slotFillerToUseInBuy : SlotFillerKey := default
  userAccountUnlockedJustBeforeBuyingJson : UserAccount := default
  userAccountUnlockedJustBeforeBuyingCas : ℕ := 0
  /-- `m_AdSlotAboutToBeFilledIfLockIsSuccessful`; its index is the member
  `m_AdSlotIndexToBeFilledIfLockIsSuccessful_AndForUseInUpdateCampaignDocAfterPurchase`. -/
  adSlotAboutToBeFilledIfLockIsSuccessful : SlotKey := default
  priceMembers : PriceMembers := {}
  casFromUserAccountLock : ℕ := 0
  startTimestampUsedInNewPurchase : ℚ := 0
  /-- `m_AccountLockedRecoveryWhatTheUserWasTryingToFillTheSlotWithHack` -/
  accountLockedRecoverySlotFiller : SlotFillerKey := default
  /-- `m_UserAccountLockedJsonToMaybeUseInAccountRecoveryAtLogin` -/
  userAccountLockedJson : UserAccount := default
  /-- `m_CasFromUserAccountLockedAndStuckLockedButErrRecordedDuringRecoveryProcess…` -/
  casFromUserAccountLockedAndStuckLocked : ℕ := 0
  deriving DecidableEq, Repr, Inhabited

/-- A couchbase request of a session, with what it was given when it was issued. -/
inductive SessionRequest
  /-- `LOGINATTEMPTGET`; the function is what the typed password hashes to with each salt. -/
  | loginAttempt (username : Username) (passwordHashFromUserInput : String → String)
  /-- `NOJSNEEDSTOVERIFYCAMPAIGNDOC…`, answered from the subscription cache. -/
  | campaignDocForNoJs
  /-- `HACKEDIND3FAULTCAMPAIGN0BUYSTEP1GET` -/
  | allSlotFillers
  /-- `HACKEDIND3FAULTCAMPAIGN0BUYSTEP2aVERIFYBALANCEANDGETCASFORSWAPLOCKGET` -/
  | verifyBalance
  /-- `ENSURESLOTABOUTTOLOCKUSERACCOUNTTOWARDSATTEMPTINGTOPURCHASEDOESNTEXIST…` -/
  | ensureSlotDoesntExist
  /-- `HACKEDIND3FAULTCAMPAIGN0BUYSTEP2bLOCKACCOUNTFORBUYINGSETWITHCASSAVINGCAS` -/
  | lockAccountForBuying (doc : UserAccount) (cas : ℕ)
  /-- `BUYAKAFILLSLOTWITHSLOTFILLERSTOREWITHOUTINPUTCAS` -/
  | fillSlot (doc : SlotDoc)
  /-- `CREATETRANSACTIONDOCSTOREWITHOUTINPUTCAS` -/
  | createTransaction (doc : TransactionDoc)
  /-- `HACKEDIND3FAULTCAMPAIGN0BUYPURCHASSUCCESSFULSOUNLOCKUSERACCOUNTSAFELYUSINGCAS` -/
  | unlockAccountDebitting (doc : UserAccount) (cas : ℕ)
  /-- `HACKEDIND3FAULTCAMPAIGN0USERACCOUNTUNLOCKDONESOUPDATECAMPAIGNDOCSETWITHINPUTCAS` -/
  | updateCampaignDoc (doc : CampaignDoc) (cas : ℕ)
  /-- `ONLOGINACCOUNTLOCKEDRECOVERY_AND_SLOTPURCHASEBEATTOTHEPUNCH_DOESSLOTEXISTCHECK` -/
  | doesSlotExistCheck (slot : SlotKey)
  /-- `LOGINACCOUNTRECOVERY_AND_SLOTPURCHASEBEATTOTHEPUNCH_UNLOCKINGWITHOUTDEBITTINGUSERACCOUNT`;
  the slot is the one the lock points at. -/
  | unlockWithoutDebitting (slot : SlotKey) (doc : UserAccount) (cas : ℕ)

/-- The reply to a request whose callback has not run yet. -/
inductive SessionReply
  | loginAttempt (username : Username) (passwordHashFromUserInput : String → String)
      (r : Option (ℕ × UserAccount))
  | allSlotFillers (r : Option (ℕ × AllSlotFillersDoc))
  | verifyBalance (r : Option (ℕ × UserAccount))
  | ensureSlotDoesntExist (r : Option (ℕ × SlotDoc))
  | lockAccountForBuying (r : Reply)
  | fillSlot (r : Reply)
  | createTransaction
  | unlockAccountDebitting
  | updateCampaignDoc
  | doesSlotExistCheck (slot : SlotKey) (r : Option (ℕ × SlotDoc))
  | unlockWithoutDebitting (r : Reply)

inductive SessionPhase
  /-- Nothing is outstanding; the user may click. -/
  | idle
  /-- The request was sent to the backend. -/
  | issued (request : SessionRequest)
  /-- The backend performed the request; the callback is yet to run. -/
  | answered (reply : SessionReply)
  /-- A callback threw: Wt ends the session. -/
  | threw

structure Session where
  members : SessionMembers
  phase : SessionPhase := .idle

/-- What reaches a session from outside. -/
inductive SessionInput
  | handleLoginButtonClicked (username : Username) (passwordHashFromUserInput : String → String)
  | handleLogoutButtonClicked
  | buySlotStep1ButtonClicked
  | buySlotStep2ButtonClicked (currentIndex : ℤ)
  /-- The backend hands over the campaign document with this CAS. -/
  | campaignUpdate (cas : ℕ)
  /-- The outstanding request is performed, or its callback runs at this time of day. -/
  | proceed (currentDateTime : ℚ)

namespace Session

/-- The flow has ended. -/
def done (m : SessionMembers) : Session := { members := m, phase := .idle }

def issue (m : SessionMembers) (request : SessionRequest) : Session :=
  { members := m, phase := .issued request }

end Session

namespace SessionMembers

open Session

def rollBackToBeforeBuyStep1ifNeeded (m : SessionMembers) : SessionMembers :=
  { m with buyStep2placeholder := none }

/-! ## The campaign document arrives -/

/-- `finishShowingAdvertisingBuyAdSpaceD3faultCampaign0Widget`, also called a buy event. -/
def finishShowing (m : SessionMembers) (doc : CampaignDoc) (cas : ℕ) : SessionMembers :=
  let m := m.rollBackToBeforeBuyStep1ifNeeded
  let showDimensions := m.firstPopulate || !m.ajax
  { m with
    campaignJsonDoc := doc
    campaignCas := cas
    campaignMembers := m.campaignMembers.readCampaignDoc doc
    -- without JavaScript the page is made anew each time, and the dimensions are shown again
    firstPopulate := if m.ajax then false else m.firstPopulate
    currentAdCampaignImageWidth :=
      if showDimensions then doc.adImageWidth else m.currentAdCampaignImageWidth
    currentAdCampaignImageHeight :=
      if showDimensions then doc.adImageHeight else m.currentAdCampaignImageHeight
    buySlotFillerStep1Button := true }

/-- `ehhGetLatestValuesFromCampaignDocForNoJsUser…`: unlike `finishShowing` it keeps the old
minimum price and slot length. -/
def ehhGetLatestValues (m : SessionMembers) (doc : CampaignDoc) (cas : ℕ) : Session :=
  issue
    { m with
      campaignJsonDoc := doc
      campaignCas := cas
      campaignMembers := m.campaignMembers.readLastSlot doc.lastSlotFilledAkaPurchased }
    .allSlotFillers

/-! ## Buying -/

def buySlotStep1ButtonClicked (m : SessionMembers) : Session :=
  if !m.buySlotFillerStep1Button then done m
  else if !m.loggedIn then done m
  else
    let m := { m with
      slotIndexImmediatelyAfterBuyStep1wasPressed :=
        m.campaignMembers.lastSlotFilledAkaPurchasedSlotIndex }
    if m.ajax then issue m .allSlotFillers else issue m .campaignDocForNoJs

def buySlotPopulateStep2 (m : SessionMembers) (r : Option (ℕ × AllSlotFillersDoc)) : Session :=
  match r with
  | none => done m
  | some (_, doc) =>
      if m.slotIndexImmediatelyAfterBuyStep1wasPressed ≠
          m.campaignMembers.lastSlotFilledAkaPurchasedSlotIndex then done m
      else
        done { m with
          buyInProgress := false
          -- the combo box is filled once, and kept when step 1 is clicked again
          buyStep2placeholder := some (m.buyStep2placeholder.getD doc) }

def buySlotStep2ButtonClicked (m : SessionMembers) (currentIndex : ℤ) : Session :=
  match m.buyStep2placeholder with
  | none => done m
  | some box =>
      if m.slotIndexImmediatelyAfterBuyStep1wasPressed ≠
          m.campaignMembers.lastSlotFilledAkaPurchasedSlotIndex then
        done m.rollBackToBeforeBuyStep1ifNeeded
      else if currentIndex < 0 ∨ currentIndex ≥ box.adsCount then
        done m.rollBackToBeforeBuyStep1ifNeeded
      else if !dimensionsMatch ((box.nickname currentIndex.toNat).getD "")
          m.currentAdCampaignImageWidth m.currentAdCampaignImageHeight then
        done m.rollBackToBeforeBuyStep1ifNeeded
      -- a double click
      else if m.buyInProgress then done m
      else
        issue
          { m with
            buyInProgress := true
            slotFillerToUseInBuy := ⟨m.currentlyLoggedInUsername, currentIndex.toNat⟩ }
          .verifyBalance

/-- `verifyUserHasSufficientFundsAndThatTheirAccountIsntAlreadyLockedAndThenStartTryingToLockIt…` -/
def verifyUserHasSufficientFunds (m : SessionMembers) (r : Option (ℕ × UserAccount)) :
    Session :=
  match r with
  | none => done m.rollBackToBeforeBuyStep1ifNeeded
  | some (cas, doc) =>
      if m.slotIndexImmediatelyAfterBuyStep1wasPressed ≠
          m.campaignMembers.lastSlotFilledAkaPurchasedSlotIndex then
        done m.rollBackToBeforeBuyStep1ifNeeded
      else
        let m := { m with
          userAccountUnlockedJustBeforeBuyingJson := doc
          userAccountUnlockedJustBeforeBuyingCas := cas
          priceMembers := { m.priceMembers with lastSlotPurchasesIsExpired := true } }
        -- locked by another session of the same user, which may be alive
        if doc.slotToAttemptToFillAkaPurchase.isSome then done m
        else if doc.profileIsLocked then done m
        else if m.campaignMembers.noPreviousSlotPurchases then
          issue { m with adSlotAboutToBeFilledIfLockIsSuccessful := ⟨m.campaign, 0⟩ }
            .ensureSlotDoesntExist
        else
          match m.slotIndexImmediatelyAfterBuyStep1wasPressed with
          -- `lexical_cast<int>("")` throws
          | none => { members := m, phase := .threw }
          | some previous =>
              issue
                { m with adSlotAboutToBeFilledIfLockIsSuccessful := ⟨m.campaign, previous + 1⟩ }
                .ensureSlotDoesntExist

/-- `ensureSlotDoesntExistThenContinueWithLockingUserAccountIntoAttemptingToBuyIt…` -/
def ensureSlotDoesntExist (m : SessionMembers) (r : Option (ℕ × SlotDoc))
    (currentDateTime : ℚ) : Session :=
  match r with
  | some _ => done m
  | none =>
      let m := { m with
        priceMembers := m.priceMembers.setPrice m.campaignMembers currentDateTime }
      let price := m.priceMembers.currentPriceInSatoshisToUseForBuying
      if price < 0 then done m
      else if m.userAccountUnlockedJustBeforeBuyingJson.balanceInSatoshis ≥ price then
        issue m (.lockAccountForBuying
          (m.userAccountUnlockedJustBeforeBuyingJson.lockedToward
            m.adSlotAboutToBeFilledIfLockIsSuccessful m.slotFillerToUseInBuy)
          m.userAccountUnlockedJustBeforeBuyingCas)
      else done m

/-- `userAccountLockAttemptFinish_IfOkayDoTheActualSlotFillAdd` -/
def userAccountLockAttemptFinish (m : SessionMembers) (r : Reply) : Session :=
  match r with
  | .stored cas =>
      let m := { m with
        casFromUserAccountLock := cas
        startTimestampUsedInNewPurchase :=
          m.priceMembers.startTimestampUsedInNewPurchase m.campaignMembers }
      issue m (.fillSlot
        { purchaseTimestamp := m.priceMembers.purchaseTimestamp
          startTimestamp := m.startTimestampUsedInNewPurchase
          purchasePrice := m.priceMembers.currentPriceInSatoshisToUseForBuying
          slotFilledWith := m.slotFillerToUseInBuy })
  | _ => done m.rollBackToBeforeBuyStep1ifNeeded

/-- `unlockUserAccountWithoutDebittingIfSlotDeclaredAttemptingToPurchaseIsPurchasedBySomeoneElse` -/
def unlockUserAccountWithoutDebittingIf (m : SessionMembers) (slot : SlotKey)
    (slotFiller : SlotFillerKey) (lockedUserAccount : UserAccount) (cas : ℕ) : Session :=
  issue
    { m with
      accountLockedRecoverySlotFiller := slotFiller
      userAccountLockedJson := lockedUserAccount
      casFromUserAccountLockedAndStuckLocked := cas }
    (.doesSlotExistCheck slot)

def slotFillAkaPurchaseAddAttemptFinished (m : SessionMembers) (r : Reply) : Session :=
  match r with
  | .stored _ =>
      issue m (.createTransaction
        (createTransactionDoc m.campaign.usernameOfCampaignOwner m.currentlyLoggedInUsername
          m.priceMembers.currentPriceInSatoshisToUseForBuying))
  | _ =>
      -- beat to the punch
      (m.rollBackToBeforeBuyStep1ifNeeded).unlockUserAccountWithoutDebittingIf
        m.adSlotAboutToBeFilledIfLockIsSuccessful m.slotFillerToUseInBuy
        m.userAccountUnlockedJustBeforeBuyingJson m.casFromUserAccountLock

/-- `transactionDocCreatedSoCasSwapUnlockAcceptingFailUserAccountDebitting` -/
def transactionDocCreated (m : SessionMembers) : Session :=
  issue m (.unlockAccountDebitting
    (m.userAccountUnlockedJustBeforeBuyingJson.debitted
      m.priceMembers.currentPriceInSatoshisToUseForBuying)
    m.casFromUserAccountLock)

/-- `doneUnlockingUserAccountAfterSuccessfulPurchaseSoNowUpdateCampaignDocCasSwapAcceptingFail_…` -/
def doneUnlockingUserAccount (m : SessionMembers) : Session :=
  issue m (.updateCampaignDoc
    { m.campaignJsonDoc with
      lastSlotFilledAkaPurchased := some
        { slotIndex := m.adSlotAboutToBeFilledIfLockIsSuccessful.slotIndex
          purchaseTimestamp := m.priceMembers.purchaseTimestamp
          startTimestamp := m.startTimestampUsedInNewPurchase
          purchasePrice := m.priceMembers.currentPriceInSatoshisToUseForBuying } }
    m.campaignCas)

/-! ## Login, and unlocking without debitting -/

/-- `doLoginTasks` -/
def doLoginTasks (m : SessionMembers) : Session := done { m with loggedIn := true }

def loginIfInputHashedEqualsDbInfo (m : SessionMembers) (username : Username)
    (passwordHashFromUserInput : String → String) (r : Option (ℕ × UserAccount)) : Session :=
  match r with
  | none => done m
  | some (cas, doc) =>
      if passwordHashFromUserInput doc.passwordSalt = doc.passwordHash then
        let m := { m with currentlyLoggedInUsername := username }
        match doc.slotToAttemptToFillAkaPurchase with
        -- not locked: there is nothing to recover
        | none => m.doLoginTasks
        | some slot =>
            match doc.slotToAttemptToFillAkaPurchaseItWith with
            -- `pt.get` of a missing field throws
            | none => { members := m, phase := .threw }
            | some slotFiller => m.unlockUserAccountWithoutDebittingIf slot slotFiller doc cas
      else done m

/-- `continueRecoveringLockedAccountAtLoginAttempt_OrAnalyzingSlotBuyBeatToThePunch` -/
def continueRecoveringLockedAccount (m : SessionMembers) (slot : SlotKey)
    (r : Option (ℕ × SlotDoc)) : Session :=
  match r with
  | none => done m
  | some (_, slotDoc) =>
      -- the slot is the user's own, so only the debit is missing: that is the recoverer's work
      if slotDoc.slotFilledWith = m.accountLockedRecoverySlotFiller then done m
      else
        issue m (.unlockWithoutDebitting slot m.userAccountLockedJson.withoutSlotLock
          m.casFromUserAccountLockedAndStuckLocked)

/-- `doneAttemptingUserAccountUnlockingWithoutDebittingFor_LoginRecovery_And_SlotPurchaseBeat…` -/
def doneAttemptingUserAccountUnlocking (m : SessionMembers) (r : Reply) : Session :=
  match r with
  | .stored _ => if m.loggedIn then done m else m.doLoginTasks
  | _ => done m

def handleLogoutButtonClicked (m : SessionMembers) : Session :=
  if !m.loggedIn then done m
  else
    done { m with
      buyStep2placeholder := none
      loggedIn := false
      currentlyLoggedInUsername := "" }

/-! ## Steps -/

/-- The callback of a reply. -/
def callback (m : SessionMembers) (currentDateTime : ℚ) : SessionReply → Session
  | .loginAttempt username hash r => m.loginIfInputHashedEqualsDbInfo username hash r
  | .allSlotFillers r => m.buySlotPopulateStep2 r
  | .verifyBalance r => m.verifyUserHasSufficientFunds r
  | .ensureSlotDoesntExist r => m.ensureSlotDoesntExist r currentDateTime
  | .lockAccountForBuying r => m.userAccountLockAttemptFinish r
  | .fillSlot r => m.slotFillAkaPurchaseAddAttemptFinished r
  | .createTransaction => m.transactionDocCreated
  | .unlockAccountDebitting => m.doneUnlockingUserAccount
  | .updateCampaignDoc => done m
  | .doesSlotExistCheck slot r => m.continueRecoveringLockedAccount slot r
  | .unlockWithoutDebitting r => m.doneAttemptingUserAccountUnlocking r

/-- The store operation of a request. -/
def perform (m : SessionMembers) (request : SessionRequest) : DbAction Session :=
  let answer (reply : SessionReply) : Session := { members := m, phase := .answered reply }
  let slot := m.adSlotAboutToBeFilledIfLockIsSuccessful
  let user := Key.userAccount m.currentlyLoggedInUsername
  match request with
  | .loginAttempt username hash =>
      .get (.userAccount username) fun r => answer (.loginAttempt username hash r)
  | .campaignDocForNoJs => .pause { members := m, phase := .issued .campaignDocForNoJs }
  | .allSlotFillers =>
      .get (.adSpaceAllSlotFillers m.currentlyLoggedInUsername) fun r =>
        answer (.allSlotFillers r)
  | .verifyBalance => .get user fun r => answer (.verifyBalance r)
  | .ensureSlotDoesntExist =>
      .get (.adSpaceCampaignSlot slot) fun r => answer (.ensureSlotDoesntExist r)
  | .lockAccountForBuying doc cas =>
      .set user (.lockToward slot) doc cas fun r => answer (.lockAccountForBuying r)
  | .fillSlot doc => .add (.adSpaceCampaignSlot slot) .document doc fun r => answer (.fillSlot r)
  | .createTransaction doc =>
      .add (.transaction slot) .document doc fun _ => answer .createTransaction
  | .unlockAccountDebitting doc cas =>
      .set user (.debit slot m.priceMembers.currentPriceInSatoshisToUseForBuying) doc cas
        fun _ => answer .unlockAccountDebitting
  | .updateCampaignDoc doc cas =>
      .set (.adSpaceCampaign m.campaign) .document doc cas fun _ => answer .updateCampaignDoc
  | .doesSlotExistCheck slot =>
      .get (.adSpaceCampaignSlot slot) fun r => answer (.doesSlotExistCheck slot r)
  | .unlockWithoutDebitting slot doc cas =>
      .set user (.unlockWithoutDebit slot) doc cas fun r => answer (.unlockWithoutDebitting r)

end SessionMembers

namespace Session

open SessionMembers

/-- A campaign document reaches the session: as a buy event, or as the answer a session without
JavaScript waits for. -/
def receiveCampaignDoc (s : Session) : Option (ℕ × CampaignDoc) → Session
  | none => s
  | some (cas, doc) =>
      -- the backend never hands out a version older than the one before
      if cas < s.members.campaignCas then s
      else
        match s.phase with
        | .issued .campaignDocForNoJs => s.members.ehhGetLatestValues doc cas
        | .threw => s
        | phase => { members := s.members.finishShowing doc cas, phase := phase }

def act (s : Session) : SessionInput → DbAction Session
  | .campaignUpdate cas =>
      .feed (.adSpaceCampaign s.members.campaign) cas s.receiveCampaignDoc
  | .proceed currentDateTime =>
      match s.phase with
      | .issued request => s.members.perform request
      | .answered reply => .pause (s.members.callback currentDateTime reply)
      | .idle | .threw => .pause s
  | .handleLoginButtonClicked username hash =>
      match s.phase with
      | .idle => .pause (issue s.members (.loginAttempt username hash))
      | _ => .pause s
  | .handleLogoutButtonClicked =>
      match s.phase with
      | .idle => .pause s.members.handleLogoutButtonClicked
      | _ => .pause s
  | .buySlotStep1ButtonClicked =>
      match s.phase with
      | .idle => .pause s.members.buySlotStep1ButtonClicked
      | _ => .pause s
  | .buySlotStep2ButtonClicked currentIndex =>
      match s.phase with
      | .idle => .pause (s.members.buySlotStep2ButtonClicked currentIndex)
      | _ => .pause s

end Session

end Autobackup.Abc2
