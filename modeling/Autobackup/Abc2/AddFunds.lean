import Autobackup.Abc2.Documents
import Autobackup.Foundation.ClaimList

/-!
# The add-funds tab: getting a deposit address and crediting a deposit

One `AddFunds` is one `AddFundsAccountTabBody` of a logged in user.  The tab leads an account
through `NoKey → GettingKey → HaveKey → NoKey`.  To get a key it picks a random key set, locks
the account toward a page of the set under a fresh request uuid, and claims a place on that page
or on a later one.  When the set's last page is full it locks the set's current-page document,
claims a key range on a page of the huge key list under the fill uuid `setN_pageY`, and makes
the range into the next page.

Any of this can be left half done, and whoever comes next continues it: a session of the same
user finds the account in `GettingKey` (*recovery*) and goes on with the stored set, page and
uuid, and a session of any user that finds the current-page document locked fills the page it is
locked for.  The two meet in the member `m_BitcoinKeySetPage_aka_PageY`.

The members are those the callbacks share; an `AddFundsPhase` is the outstanding couchbase
request.  No event other than its own reply reaches the tab, so performing a request and running
its callback are one step.  Loop bounds come from `KeySetSizes`, the three `ABC_NUM_…` macros.
-/

namespace Autobackup.Abc2

/-- `ABC_NUM_BITCOINKEYSETS`, `ABC_NUM_BITCOIN_KEYS_ON_EACH_BITCOINKEYSET_PAGE` and
`ABC_NUM_BITCOIN_KEY_RANGES_ON_EACH_HUGEBITCOINLIST_PAGE`. -/
structure KeySetSizes where
  numBitcoinKeySets : ℕ
  numBitcoinKeysOnEachPage : ℕ
  numBitcoinKeyRangesOnEachPage : ℕ

/-- `ABC_MIN_ADD_FUNDS_AMOUNT_IN_SATOSHIS` -/
def minAddFundsAmountInSatoshis : ℤ := 300000

inductive AddFundsPhase
  | idle
  /-- `DETERMINEBITCOINSTATEBUTDONTLETTHEMPROCEEDIFLOCKEDATTEMPTINGTOFILLAKAPURCHASESLOT` -/
  | determineBitcoinState
  /-- `GETUSERACCOUNTFORGOINGINTOGETTINGBITCOINKEYMODE` -/
  | getUserAccountForGettingKey
  /-- The random set and the request uuid are about to be drawn. -/
  | generateSetAndUuid
  /-- `GETBITCOINKEYSETNCURRENTPAGETOSEEWHATPAGEITISONANDIFITISLOCKED` -/
  | getCurrentPage
  /-- `USERACCOUNTBITCOINLOCKEDINTOGETTINGKEYMODE` -/
  | lockIntoGettingKey
  /-- `GETBITCOINKEYSETNACTUALPAGETOSEEIFUUIDONITENOUGHROOM` -/
  | getPageY
  /-- `CLAIMBITCOINKEYONBITCOINKEYSETVIACASSWAP` -/
  | claimKey (pageY : List KeyPlace) (cas : ℕ)
  /-- `UNLOCKUSERACCOUNTFROMBITCOINGETTINGKEYTOBITCOINHAVEKEY` -/
  | unlockIntoHaveKey
  /-- `GETBITCOINKEYSETNPAGEYANDIFITEXISTSLOOPAROUND…` -/
  | getNextPageY
  /-- `GETHUGEBITCOINKEYLISTCURRENTPAGE` -/
  | getHugeBitcoinKeyListCurrentPage
  /-- `LOCKINGBITCOINKEYSETNINTOFILLINGNEXTPAGEMODE` -/
  | lockCurrentPage
  /-- `GETHUGEBITCOINKEYLISTACTUALPAGEFORANALYZINGANDMAYBECLAIMINGKEYRANGE` -/
  | getHugeBitcoinKeyListPage
  /-- `RELOCKBITCOINKEYSETN_CURRENTPAGETONONEXISTENTPAGEZASNECESSARYOPTIMIZATION` -/
  | relockCurrentPage
  /-- `HUGEBITCOINKEYLISTKEYRANGECLAIMATTEMPT` -/
  | claimKeyRange (pageZ : List KeyRange) (cas : ℕ)
  /-- `HUGEBITCOINKEYLISTPAGECHANGE` -/
  | changeHugeBitcoinKeyListCurrentPage
  /-- `BITCOINKEYSETNPAGEYCREATIONVIALCBADD` -/
  | createPageY
  /-- `SAFELYUNLOCKBITCOINKEYSETNCURRENTPAGEDOCFAILINGTOLERABLY` -/
  | unlockCurrentPage
  /-- `CREDITCONFIRMEDBITCOINAMOUNTAFTERANALYZINGUSERACCOUNT` -/
  | getUserAccountForCredit
  /-- `CREDITCONFIRMEDBITCOINBALANCEFORCURRENTPAYMENTKEYCASSWAPUSERACCOUNT` -/
  | creditConfirmedBitcoinAmount (doc : UserAccount) (cas : ℕ)
  /-- A callback threw: Wt ends the session. -/
  | threw
  deriving DecidableEq, Repr, Inhabited

structure AddFunds where
  /-- `m_AbcApp->m_CurrentlyLoggedInUsername` -/
  currentlyLoggedInUsername : Username
  /-- `m_GetBitcoinKeyPlaceholder` -/
  getBitcoinKeyPlaceholder : Bool := false
  /-- `m_HaveBitcoinKeyPlaceholder` -/
  haveBitcoinKeyPlaceholder : Bool := false
  currentBitcoinKeyForPayments : BitcoinKey := ""
  /-- `m_ConfirmedBitcoinBalanceInSatoshisToBeCredittedWhenDoneButtonClicked` -/
  confirmedBitcoinBalanceInSatoshis : ℤ := 0
  /-- `m_UserAccountJsonForLockingIntoGettingBitcoinKey` -/
  userAccountJson : UserAccount := default
  /-- `m_UserAccountCASforBitcoinGettingKeyLockingAndUnlocking` -/
  userAccountCas : ℕ := 0
  /-- `m_UserAccountBitcoinDoingGettingKeyRecoverySoAccountLocked` -/
  doingGettingKeyRecovery : Bool := false
  /-- `m_BitcoinKeySetIndex_aka_setN` -/
  setN : ℕ := 0
  /-- `m_BitcoinKeySetPage_aka_PageY`; the empty string is `none`. -/
  pageY : Option ℕ := none
  perGetBitcoinKeyUUID : GetKeyUuid := 0
  /-- `m_BitcoinKeySetCurrentPageCASForFillingNextPageWayLater` -/
  currentPageCas : ℕ := 0
  /-- `m_FillingNextBitcoinKeySetPerFillUuid_ForAfterCASswapLockSucceeds` -/
  perFillUuid : FillUuid := default
  /-- `m_FillingNextBitcoinKeySetStartingFromPageZofHugeBitcoinList` -/
  startingFromPageZ : ℕ := 0
  /-- `m_FillingNextBitcoinKeySetStartingFromPageZofHugeBitcoinList_NON_CHANGING` -/
  startingFromPageZNonChanging : ℕ := 0
  /-- `m_PageZisFromCurrentPageInDb…` -/
  pageZisFromCurrentPageInDb : Bool := false
  /-- `m_CasToUseForSafelyUpdatingHugeBitcoinKeyList_CurrentPageUsingIncrementedPageZ` -/
  hugeCurrentPageCas : ℕ := 0
  /-- `m_BitcoinKeysVectorToUseForNextPageFillOncePerFillUuidIsSeenOnHugeBitcoinKeyList` -/
  bitcoinKeysVector : List BitcoinKey := []
  /-- `m_BitcoinKeyToGiveToUserOncePerKeyRequestUuidIsOnABitcoinKeySetPage` -/
  bitcoinKeyToGiveToUser : BitcoinKey := ""
  phase : AddFundsPhase := .idle
  deriving DecidableEq, Repr, Inhabited

/-- What reaches the tab from outside. -/
inductive AddFundsInput
  /-- The tab is shown. -/
  | populateAndInitialize
  | handleGetBitcoinKeyButtonClicked
  /-- bitcoind reports this confirmed balance of the current key. -/
  | confirmedBitcoinBalance (balance : ℤ)
  | doneSendingBitcoinsToCurrentAddressButtonClicked
  /-- The outstanding request is performed and answered; the numbers are what the random
  generators yield, where they are used. -/
  | proceed (setN : ℕ) (uuid : GetKeyUuid)

namespace KeyPlace

def claimedUuid (p : KeyPlace) : Option GetKeyUuid := p.claimed.map Prod.fst

def claimFor (uuid : GetKeyUuid) (username : Username) (p : KeyPlace) : KeyPlace :=
  { p with claimed := some (uuid, username) }

end KeyPlace

def KeyRange.claimFor (uuid : FillUuid) (r : KeyRange) : KeyRange :=
  { r with claimedUuid := some uuid }

namespace AddFunds

/-- `m_BitcoinKeySetPage_aka_PageY` as a number, once it is no longer the empty string. -/
def page (s : AddFunds) : ℕ := s.pageY.getD 0

def done (s : AddFunds) : AddFunds := { s with phase := .idle }

def request (s : AddFunds) (phase : AddFundsPhase) : AddFunds := { s with phase := phase }

/-! ## Entering the procedure -/

def changeToGetBitcoinKeyMode (s : AddFunds) : AddFunds :=
  { s with haveBitcoinKeyPlaceholder := false, getBitcoinKeyPlaceholder := true }

def changeToHaveBitcoinKeyMode (s : AddFunds) (bitcoinKey : BitcoinKey) : AddFunds :=
  if s.haveBitcoinKeyPlaceholder then { s with getBitcoinKeyPlaceholder := false }
  else
    { s with
      getBitcoinKeyPlaceholder := false
      haveBitcoinKeyPlaceholder := true
      currentBitcoinKeyForPayments := bitcoinKey }

/-- `checkNotAttemptingToFillAkaPurchaseSlotThenTransitionIntoGettingBitcoinKeyState` -/
def checkNotAttemptingToFill (s : AddFunds) : Option (ℕ × UserAccount) → AddFunds
  | none => s.done
  | some (cas, doc) =>
      let s := { s with userAccountJson := doc, userAccountCas := cas }
      if doc.profileIsLocked then s.done
      else
        match doc.bitcoinState with
        | .HaveKey _ => s.done
        | .GettingKey setN pageY uuid =>
            { s with
              doingGettingKeyRecovery := true
              setN := setN
              pageY := some pageY
              perGetBitcoinKeyUUID := uuid }.request .getCurrentPage
        | .NoKey => { s with doingGettingKeyRecovery := false }.request .generateSetAndUuid

/-- `determineBitcoinStateButDontLetThemProceedForwardIfLockedAttemptingToFillAkaPurchaseSlot` -/
def determineBitcoinState (s : AddFunds) : Option (ℕ × UserAccount) → AddFunds
  | none => s.done
  | some (cas, doc) =>
      match doc.bitcoinState with
      | .HaveKey key => (s.changeToHaveBitcoinKeyMode key).done
      | .NoKey =>
          if doc.profileIsLocked then s.done else s.changeToGetBitcoinKeyMode.done
      | .GettingKey .. =>
          if doc.profileIsLocked then s.done else s.checkNotAttemptingToFill (some (cas, doc))

/-- The drawn set and uuid are taken over, and `PageY` is emptied: the page is the set's
current one. -/
def setAndUuidGenerated (s : AddFunds) (setN : ℕ) (uuid : GetKeyUuid) : Reply → AddFunds
  | .stored _ =>
      { s with setN := setN, perGetBitcoinKeyUUID := uuid, pageY := none }.request
        .getCurrentPage
  | _ => s

/-! ## The page of the set -/

/-- `proceedToBitcoinKeySetNgettingAfterLockingUserAccountInto…UnlessUserAccountAlreadyLocked` -/
def proceedToBitcoinKeySetNgetting (s : AddFunds) : AddFunds :=
  if s.doingGettingKeyRecovery then s.request .getPageY else s.request .lockIntoGettingKey

/-- `analyzeBitcoinKeySetN_CurrentPageDocToSeeWhatPageItIsOnAndIfItIsLocked`.  A locked document
replaces `PageY`, whatever it was. -/
def analyzeCurrentPageDoc (s : AddFunds) : Option (ℕ × KeySetCurrentPageDoc) → AddFunds
  | none => s.done
  | some (cas, doc) =>
      let s := { s with currentPageCas := cas }
      match doc with
      | .fillingNextBitcoinKeySetPage pageY uuidPerFill pageZ =>
          { s with
            pageY := some pageY
            perFillUuid := uuidPerFill
            startingFromPageZ := pageZ
            startingFromPageZNonChanging := pageZ
            pageZisFromCurrentPageInDb := false }.request .getHugeBitcoinKeyListPage
      | .currentPage pageY =>
          -- in a recovery the page is that of the account, which may be an earlier one
          { s with pageY := some (s.pageY.getD pageY) }.proceedToBitcoinKeySetNgetting

/-- The account locked into `GettingKey`. -/
def userAccountGettingKey (s : AddFunds) : UserAccount :=
  { s.userAccountJson with bitcoinState := .GettingKey s.setN s.page s.perGetBitcoinKeyUUID }

/-- `userAccountBitcoinLockedIntoGettingKeyAttemptComplete` -/
def lockedIntoGettingKeyComplete (s : AddFunds) : Reply → AddFunds
  | .stored cas => { s with userAccountCas := cas }.request .getPageY
  | _ => s.done

/-- The walk over a page of the set. -/
def analyzePlaces (s : AddFunds) (sizes : KeySetSizes) (pageY : List KeyPlace) :
    Claim KeyPlace :=
  claim KeyPlace.claimedUuid
    (KeyPlace.claimFor s.perGetBitcoinKeyUUID s.currentlyLoggedInUsername)
    s.perGetBitcoinKeyUUID sizes.numBitcoinKeysOnEachPage pageY

/-- `gotBitcoinKeySetNpageYSoAnalyzeItForUUIDandEnoughRoomEtc`, for a page that exists -/
def analyzePageY (s : AddFunds) (sizes : KeySetSizes) (cas : ℕ) (pageY : List KeyPlace) :
    AddFunds :=
  match s.analyzePlaces sizes pageY with
  | .found place => { s with bitcoinKeyToGiveToUser := place.key }.request .unlockIntoHaveKey
  | .took place pageY =>
      { s with bitcoinKeyToGiveToUser := place.key }.request (.claimKey pageY cas)
  | .full => { s with pageY := some (s.page + 1) }.request .getNextPageY
  | .short => s.request .threw

def gotPageY (s : AddFunds) (sizes : KeySetSizes) : Option (ℕ × List KeyPlace) → AddFunds
  | none => s.done
  | some (cas, pageY) => s.analyzePageY sizes cas pageY

/-- `doneAttemptingToUpdateBitcoinKeySetViaCASswapAkaClaimingAKey` -/
def claimKeyComplete (s : AddFunds) : Reply → AddFunds
  | .stored _ => s.request .unlockIntoHaveKey
  | _ => s.request .getPageY

/-- The account with its key. -/
def userAccountHaveKey (s : AddFunds) : UserAccount :=
  { s.userAccountJson with bitcoinState := .HaveKey s.bitcoinKeyToGiveToUser }

/-- `doneAttemptingToUnlockUserAccountFromBitcoinGettingKeyToBitcoinHaveKey` -/
def unlockIntoHaveKeyComplete (s : AddFunds) : Reply → AddFunds
  | .stored _ => (s.changeToHaveBitcoinKeyMode s.bitcoinKeyToGiveToUser).done
  | _ => s.done

/-! ## The next page of the set -/

/-- `getBitcoinKeySetNPageYAttemptFinishedSoCheckItIfItExistsAndMakeItIfItDont` -/
def gotNextPageY (s : AddFunds) (sizes : KeySetSizes) : Option (ℕ × List KeyPlace) → AddFunds
  | none => s.request .getHugeBitcoinKeyListCurrentPage
  | some (cas, pageY) => s.analyzePageY sizes cas pageY

def hugeBitcoinKeyListCurrentPageGetComplete (s : AddFunds) : Option (ℕ × ℕ) → AddFunds
  | none => s.done
  | some (cas, pageZ) =>
      { s with
        pageZisFromCurrentPageInDb := true
        hugeCurrentPageCas := cas
        perFillUuid := ⟨s.setN, s.page⟩
        startingFromPageZ := pageZ
        startingFromPageZNonChanging := pageZ }.request .lockCurrentPage

/-- The current-page document locked for filling `PageY` from `PageZ`. -/
def lockedCurrentPageDoc (s : AddFunds) : KeySetCurrentPageDoc :=
  .fillingNextBitcoinKeySetPage s.page s.perFillUuid s.startingFromPageZ

/-- `attemptToLockBitcoinKeySetNintoFillingNextPageModeComplete` -/
def lockCurrentPageComplete (s : AddFunds) : Reply → AddFunds
  | .stored cas => { s with currentPageCas := cas }.request .getHugeBitcoinKeyListPage
  | _ => s.done

/-- The walk over a page of the huge key list. -/
def analyzeRanges (s : AddFunds) (sizes : KeySetSizes) (pageZ : List KeyRange) :
    Claim KeyRange :=
  claim KeyRange.claimedUuid (KeyRange.claimFor s.perFillUuid) s.perFillUuid
    sizes.numBitcoinKeyRangesOnEachPage pageZ

/-- `getHugeBitcoinKeyListActualPageAttemptCompleted` -/
def gotHugeBitcoinKeyListPage (s : AddFunds) (sizes : KeySetSizes) :
    Option (ℕ × List KeyRange) → AddFunds
  | none =>
      -- out of keys: lock the set toward the page at which the next search is to begin
      if s.startingFromPageZNonChanging ≠ s.startingFromPageZ then s.request .relockCurrentPage
      else s.done
  | some (cas, pageZ) =>
      match s.analyzeRanges sizes pageZ with
      | .found range => { s with bitcoinKeysVector := range.keys }.request .createPageY
      | .took range pageZ =>
          { s with bitcoinKeysVector := range.keys }.request (.claimKeyRange pageZ cas)
      | .full =>
          { s with startingFromPageZ := s.startingFromPageZ + 1 }.request
            -- only the tab that went by the current page moves it on
            (if s.pageZisFromCurrentPageInDb then .changeHugeBitcoinKeyListCurrentPage
             else .getHugeBitcoinKeyListPage)
      | .short => s.request .threw

/-- `doneAttemptingHugeBitcoinKeyListKeyRangeClaim` -/
def claimKeyRangeComplete (s : AddFunds) : Reply → AddFunds
  | .stored _ => s.request .createPageY
  | _ => s.request .getHugeBitcoinKeyListPage

/-- The page made of a key range. -/
def newPageY (s : AddFunds) : List KeyPlace :=
  s.bitcoinKeysVector.map fun key => { key := key }

/-- `doneAttemptingToUnlockBitcoinKeySetN_CurrentPage` -/
def unlockCurrentPageComplete (s : AddFunds) : Reply → AddFunds
  | .stored _ => s.proceedToBitcoinKeySetNgetting
  | _ => s.request .getCurrentPage

/-! ## Crediting a deposit -/

def doneSendingBitcoinsToCurrentAddressButtonClicked (s : AddFunds) : AddFunds :=
  if s.confirmedBitcoinBalanceInSatoshis < minAddFundsAmountInSatoshis then s
  else s.request .getUserAccountForCredit

/-- `creditConfirmedBitcoinAmountAfterAnalyzingUserAccount` -/
def creditAfterAnalyzingUserAccount (s : AddFunds) : Option (ℕ × UserAccount) → AddFunds
  | none => s.done
  | some (cas, doc) =>
      if doc.profileIsLocked then s.done
      -- another tab of the user has credited this key
      else if doc.bitcoinState ≠ .HaveKey s.currentBitcoinKeyForPayments then s.done
      else
        s.request (.creditConfirmedBitcoinAmount
          { doc with
            balanceInSatoshis := doc.balanceInSatoshis + s.confirmedBitcoinBalanceInSatoshis
            bitcoinState := .NoKey } cas)

/-- `doneAttemptingCredittingConfirmedBitcoinBalanceForCurrentPaymentKeyCasSwapUserAccount` -/
def creditComplete (s : AddFunds) : Reply → AddFunds
  | .stored _ =>
      { s with
        confirmedBitcoinBalanceInSatoshis := 0
        currentBitcoinKeyForPayments := "" }.changeToGetBitcoinKeyMode.done
  | _ => s.done

/-! ## Steps -/

/-- The store operation of the outstanding request, and its callback. -/
def perform (s : AddFunds) (sizes : KeySetSizes) (setN : ℕ) (uuid : GetKeyUuid) :
    DbAction AddFunds :=
  let user := Key.userAccount s.currentlyLoggedInUsername
  match s.phase with
  | .idle | .threw => .pause s
  | .determineBitcoinState => .get user s.determineBitcoinState
  | .getUserAccountForGettingKey => .get user s.checkNotAttemptingToFill
  | .generateSetAndUuid =>
      -- the generator yields no other set
      if setN < sizes.numBitcoinKeySets then
        .add (.uuidPerKeyRequest uuid) .document ⟨s.currentlyLoggedInUsername, setN⟩
          (s.setAndUuidGenerated setN uuid)
      else .pause s
  | .getCurrentPage => .get (.bitcoinKeySetCurrentPage s.setN) s.analyzeCurrentPageDoc
  | .lockIntoGettingKey =>
      .set user .gettingKey s.userAccountGettingKey s.userAccountCas
        s.lockedIntoGettingKeyComplete
  | .getPageY => .get (.bitcoinKeySetPage s.setN s.page) (s.gotPageY sizes)
  | .claimKey pageY cas =>
      .set (.bitcoinKeySetPage s.setN s.page) .document pageY cas s.claimKeyComplete
  | .unlockIntoHaveKey =>
      .set user .haveKey s.userAccountHaveKey s.userAccountCas s.unlockIntoHaveKeyComplete
  | .getNextPageY => .get (.bitcoinKeySetPage s.setN s.page) (s.gotNextPageY sizes)
  | .getHugeBitcoinKeyListCurrentPage =>
      .get .hugeBitcoinKeyListCurrentPage s.hugeBitcoinKeyListCurrentPageGetComplete
  | .lockCurrentPage =>
      .set (.bitcoinKeySetCurrentPage s.setN) .document s.lockedCurrentPageDoc s.currentPageCas
        s.lockCurrentPageComplete
  | .getHugeBitcoinKeyListPage =>
      .get (.hugeBitcoinKeyListPage s.startingFromPageZ) (s.gotHugeBitcoinKeyListPage sizes)
  | .relockCurrentPage =>
      .set (.bitcoinKeySetCurrentPage s.setN) .document s.lockedCurrentPageDoc s.currentPageCas
        fun _ => s.done
  | .claimKeyRange pageZ cas =>
      .set (.hugeBitcoinKeyListPage s.startingFromPageZ) .document pageZ cas
        s.claimKeyRangeComplete
  | .changeHugeBitcoinKeyListCurrentPage =>
      .set .hugeBitcoinKeyListCurrentPage .document s.startingFromPageZ s.hugeCurrentPageCas
        fun _ => s.request .getHugeBitcoinKeyListPage
  | .createPageY =>
      .add (.bitcoinKeySetPage s.setN s.page) .document s.newPageY fun _ =>
        { s with bitcoinKeysVector := [] }.request .unlockCurrentPage
  | .unlockCurrentPage =>
      .set (.bitcoinKeySetCurrentPage s.setN) .document (.currentPage s.page) s.currentPageCas
        s.unlockCurrentPageComplete
  | .getUserAccountForCredit => .get user s.creditAfterAnalyzingUserAccount
  | .creditConfirmedBitcoinAmount doc cas =>
      .set user (.deposit s.confirmedBitcoinBalanceInSatoshis) doc cas s.creditComplete

/-- What the tab does next with an input: a callback of the source that ends in a request is one
step with it, and an input that does not fit the phase changes nothing. -/
def act (sizes : KeySetSizes) (s : AddFunds) : AddFundsInput → DbAction AddFunds
  | .proceed setN uuid => s.perform sizes setN uuid
  | .populateAndInitialize =>
      if s.phase = .idle then .pause (s.request .determineBitcoinState) else .pause s
  | .handleGetBitcoinKeyButtonClicked =>
      if s.phase = .idle ∧ s.getBitcoinKeyPlaceholder then
        .pause (s.request .getUserAccountForGettingKey)
      else .pause s
  | .confirmedBitcoinBalance balance =>
      -- bitcoind is asked for nothing but the key that is shown
      if s.phase = .idle ∧ s.haveBitcoinKeyPlaceholder ∧ balance > 0 then
        .pause { s with confirmedBitcoinBalanceInSatoshis := balance }
      else .pause s
  | .doneSendingBitcoinsToCurrentAddressButtonClicked =>
      if s.phase = .idle ∧ s.haveBitcoinKeyPlaceholder then
        .pause s.doneSendingBitcoinsToCurrentAddressButtonClicked
      else .pause s

end AddFunds

end Autobackup.Abc2
