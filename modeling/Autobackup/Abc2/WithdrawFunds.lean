import Autobackup.Abc2.WithdrawRequestProcessor

/-!
# The tab a user requests withdrawals in

A request is a document under the next free index of the user.  Which index that is, is a guess made
from a document that only caches it, so the tab walks up the indexes until an `add` is accepted.
Then it stores the successor in the cache, and does not care whether that is accepted.

The amount and the fee are doubles, of which every product and every sum is rounded (`Binary64`).
They are compared with what the tab computes of the balance in the same way, but a request has whole
satoshis, and whether the two agree is a question of how those roundings add up.

The requests are processed by `WithdrawRequestProcessor`, at the same time.  Everybody else is one
`otherPrograms` that writes any profile at any moment.  Indexes are numbers here and their decimal
strings in the source; what the line edits hold cannot change while a click is being handled, since
rendering is deferred.
-/

namespace Autobackup.Abc2

open Binary64

/-- The documents that the processor deals with, and
`withdrawFundsRequestsNextAvailableIndexKey(username)`. -/
inductive WithdrawalsKey
  | withdraw (k : WithdrawKey)
  | withdrawFundsRequestsNextAvailableIndex (username : Username)
  deriving DecidableEq, Repr

namespace WithdrawalsKey

abbrev withdrawFundsRequest (username : Username) (index : ℕ) : WithdrawalsKey :=
  .withdraw (.withdrawFundsRequest ⟨username, index⟩)

abbrev userAccount (username : Username) : WithdrawalsKey := .withdraw (.userAccount username)

end WithdrawalsKey

@[reducible] def WithdrawalsDoc : WithdrawalsKey → Type
  | .withdraw k => WithdrawDoc k
  | .withdrawFundsRequestsNextAvailableIndex _ => ℕ

abbrev WithdrawalsDb := Store WithdrawNote WithdrawalsDoc

abbrev WithdrawalsAction (σ : Type) := Action WithdrawNote WithdrawalsDoc σ

/-- What the processor does, in the larger database. -/
def WithdrawAction.lift {σ : Type} : WithdrawAction σ → WithdrawalsAction σ
  | .pause next => .pause next
  | .get k resume => .get (.withdraw k) resume
  | .feed k c resume => .feed (.withdraw k) c resume
  | .add k n d resume => .add (.withdraw k) n d resume
  | .set k n d c resume => .set (.withdraw k) n d c resume

/-! ## The tab -/

/-- `INT_MAX` -/
def maxInt : ℕ := 2147483647

/-- `ABC2_MIN_WITHDRAW_AMOUNT` -/
def minWithdrawAmount : ℚ := roundToDouble (3 / 100)

/-- What was put into the line edits. -/
structure WithdrawForm where
  /-- The number that the text is of, with all its decimals. -/
  desiredAmountText : ℚ
  bitcoinPayoutKey : BitcoinKey
  deriving DecidableEq, Repr, Inhabited

namespace WithdrawForm

/-- `boost::lexical_cast<double>` of the text. -/
def desiredAmountToWithdraw (form : WithdrawForm) : ℚ := roundToDouble form.desiredAmountText

/-- The validators of the two line edits. -/
def Valid (form : WithdrawForm) : Prop :=
  (minWithdrawAmount ≤ form.desiredAmountToWithdraw ∧ form.desiredAmountToWithdraw ≤ 21000000) ∧
    form.bitcoinPayoutKey.toList.all Char.isAlphanum ∧
    1 ≤ form.bitcoinPayoutKey.length ∧ form.bitcoinPayoutKey.length ≤ 35

instance (form : WithdrawForm) : Decidable form.Valid := by
  unfold Valid
  infer_instance

/-- `totalAmountInSatoshisToWithdrawAfterFeeApplied` -/
def totalAmountInSatoshis (form : WithdrawForm) : ℤ :=
  jsonDoubleToSatoshiIntIncludingRounding roundToDouble
    (roundToDouble (form.desiredAmountToWithdraw +
      withdrawalFeeForWithdrawalAmount roundToDouble form.desiredAmountToWithdraw))

/-- The request that is stored. -/
def request (form : WithdrawForm) : WithdrawFundsRequest where
  desiredWithdrawAmountInSatoshis :=
    jsonDoubleToSatoshiIntIncludingRounding roundToDouble form.desiredAmountToWithdraw
  bitcoinKeyToWithdrawTo := form.bitcoinPayoutKey
  state := .unprocessed

end WithdrawForm

/-- The request that is outstanding. -/
inductive WithdrawFundsPhase
  | idle
  | getProfile
  | getNextAvailableIndex
  | addRequest (withdrawRequestIndexToTryLcbAddingAt : ℕ)
  | storeNextAvailableIndex (nextAvailableIndex : ℕ)
  /-- The answer to an `add` of the index document is expected in multi campaign owner mode only:
  otherwise rendering is never resumed. -/
  | renderingNotResumed
  deriving DecidableEq, Repr, Inhabited

structure WithdrawFundsTab where
  /-- `m_AbcApp->m_CurrentlyLoggedInUsername` -/
  currentlyLoggedInUsername : Username
  form : WithdrawForm := default
  /-- `m_CasOfWithdrawRequestIndexDoc_OrZeroIfDocDoesNotExist` -/
  casOfWithdrawRequestIndexDoc_OrZeroIfDocDoesNotExist : ℕ := 0
  /-- `m_WithdrawRequestDocBeingCreated` -/
  withdrawRequestDocBeingCreated : WithdrawFundsRequest := default
  phase : WithdrawFundsPhase := .idle
  /-- Every "Withdrawal request #i has been scheduled", with the form it was for. -/
  scheduled : List (ℕ × WithdrawForm) := []
  deriving DecidableEq, Repr, Inhabited

/-- What reaches a client from outside. -/
inductive WithdrawalsInput
  | handleRequestWithdrawalButtonClicked (form : WithdrawForm)
  /-- The outstanding request is performed and answered; a database error may be reported all the
  same. -/
  | proceed (dbError : Bool)
  /-- The outstanding request is not performed: a database error. -/
  | fail
  /-- A run of the processor starts, with the result of its view query. -/
  | processWithdrawalRequests (viewQueryResults : List WithdrawFundsRequestKey)
      (uninitializedCas : ℕ)
  /-- The user has looked at what the calculate pass has found. -/
  | proceedOntoExecutionIteration
  | writeProfile (username : Username) (profile : UserAccount)
  deriving Repr

namespace WithdrawFundsTab

/-- `m_AbcApp->resumeRendering()` -/
def resumeRendering (s : WithdrawFundsTab) : WithdrawFundsTab := { s with phase := .idle }

def handleRequestWithdrawalButtonClicked (s : WithdrawFundsTab) (form : WithdrawForm) :
    WithdrawFundsTab :=
  match s.phase with
  | .idle => if form.Valid then { s with form := form, phase := .getProfile } else s
  | _ => s

def attemptToLcbAddWithdrawRequest (s : WithdrawFundsTab) (index : ℕ) : WithdrawFundsTab :=
  if index = maxInt then s.resumeRendering else { s with phase := .addRequest index }

/-- `verifyBalanceIsGreaterThanOrEqualToTheirRequestedWithdrawAmount…` -/
def verifyBalance (s : WithdrawFundsTab) : Option (ℕ × UserAccount) → WithdrawFundsTab
  | none => s.resumeRendering
  | some (_, userProfile) =>
      if userProfile.balanceInSatoshis < s.form.totalAmountInSatoshis then s.resumeRendering
      else { s with phase := .getNextAvailableIndex }

def useNextAvailableWithdrawRequestIndexToScheduleTheWithdrawRequest (s : WithdrawFundsTab) :
    Option (ℕ × ℕ) → WithdrawFundsTab
  | none =>
      { s with
        casOfWithdrawRequestIndexDoc_OrZeroIfDocDoesNotExist := 0
        withdrawRequestDocBeingCreated := s.form.request }.attemptToLcbAddWithdrawRequest 0
  | some (cas, nextAvailableIndex) =>
      { s with
        casOfWithdrawRequestIndexDoc_OrZeroIfDocDoesNotExist := cas
        withdrawRequestDocBeingCreated := s.form.request
        }.attemptToLcbAddWithdrawRequest nextAvailableIndex

def handleAttemptToAddWithdrawRequestAtIndexFinished (s : WithdrawFundsTab) (index : ℕ) :
    Reply → WithdrawFundsTab
  | .stored _ =>
      { s with
        phase := .storeNextAvailableIndex (index + 1)
        scheduled := s.scheduled ++ [(index, s.form)] }
  -- the index is taken: another tab was faster, or the cached index is out of date
  | _ => s.attemptToLcbAddWithdrawRequest (index + 1)

/-- What follows the answer to the store of the next available index, whatever it says. -/
def ignoringResponse (s : WithdrawFundsTab) : WithdrawFundsTab :=
  if s.casOfWithdrawRequestIndexDoc_OrZeroIfDocDoesNotExist = 0 then
    { s with phase := .renderingNotResumed }
  else s.resumeRendering

/-- The outstanding request is performed. -/
def proceed (s : WithdrawFundsTab) (dbError : Bool) : WithdrawalsAction WithdrawFundsTab :=
  match s.phase with
  | .idle | .renderingNotResumed => .pause s
  | .getProfile =>
      .get (.userAccount s.currentlyLoggedInUsername) fun r =>
        if dbError then s.resumeRendering else s.verifyBalance r
  | .getNextAvailableIndex =>
      .get (.withdrawFundsRequestsNextAvailableIndex s.currentlyLoggedInUsername) fun r =>
        if dbError then s.resumeRendering
        else s.useNextAvailableWithdrawRequestIndexToScheduleTheWithdrawRequest r
  | .addRequest index =>
      .add (.withdrawFundsRequest s.currentlyLoggedInUsername index) .other
        s.withdrawRequestDocBeingCreated fun r =>
        if dbError then s.resumeRendering
        else s.handleAttemptToAddWithdrawRequestAtIndexFinished index r
  | .storeNextAvailableIndex nextAvailableIndex =>
      -- nobody has asked for a withdrawal before, so the cache is created
      if s.casOfWithdrawRequestIndexDoc_OrZeroIfDocDoesNotExist = 0 then
        .add (.withdrawFundsRequestsNextAvailableIndex s.currentlyLoggedInUsername) .other
          nextAvailableIndex fun _ => s.ignoringResponse
      else
        .set (.withdrawFundsRequestsNextAvailableIndex s.currentlyLoggedInUsername) .other
          nextAvailableIndex s.casOfWithdrawRequestIndexDoc_OrZeroIfDocDoesNotExist fun _ =>
          s.ignoringResponse

/-- It is not. -/
def fail (s : WithdrawFundsTab) : WithdrawFundsTab :=
  match s.phase with
  | .storeNextAvailableIndex _ => s.ignoringResponse
  | .renderingNotResumed => s
  | _ => s.resumeRendering

def act (s : WithdrawFundsTab) : WithdrawalsInput → WithdrawalsAction WithdrawFundsTab
  | .handleRequestWithdrawalButtonClicked form =>
      .pause (s.handleRequestWithdrawalButtonClicked form)
  | .proceed dbError => s.proceed dbError
  | .fail => .pause s.fail
  | _ => .pause s

end WithdrawFundsTab

/-! ## Tabs, processors and other programs -/

inductive WithdrawalsClient
  | tab (s : WithdrawFundsTab)
  | processor (s : WithdrawRequestProcessor)
  | otherPrograms

/-- One run after another, whatever became of the one before. -/
def WithdrawRequestProcessor.actOn (s : WithdrawRequestProcessor) :
    WithdrawalsInput → WithdrawalsAction WithdrawRequestProcessor
  | .processWithdrawalRequests viewQueryResults uninitializedCas =>
      .pause { processWithdrawalRequests viewQueryResults uninitializedCas with
        happened := s.happened }
  | .proceedOntoExecutionIteration =>
      match s.phase with
      | .calculationIterationComplete => .pause s.proceedOntoExecutionIteration
      | _ => .pause s
  | .proceed _ => WithdrawAction.lift (s.act withdrawalFeeInSatoshis)
  | .fail => .pause (s.finish false)
  | _ => .pause s

def WithdrawalsClient.act :
    WithdrawalsClient → WithdrawalsInput → WithdrawalsAction WithdrawalsClient
  | .tab s, x => (s.act x).map .tab
  | .processor s, x => (s.actOn x).map .processor
  | .otherPrograms, .writeProfile username profile =>
      .set (.userAccount username) .other profile 0 fun _ => .otherPrograms
  | .otherPrograms, _ => .pause .otherPrograms

/-- Any number of tabs and processors. -/
abbrev Withdrawals (ι : Type) := World WithdrawNote WithdrawalsDoc WithdrawalsClient ι

end Autobackup.Abc2
