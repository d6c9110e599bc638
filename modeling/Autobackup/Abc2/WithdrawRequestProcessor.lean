import Autobackup.Abc2.Documents

/-!
# The withdraw request processor

`Abc2WithdrawRequestProcessor` pays withdrawals out.  It takes a list of request keys from a view
query, which may be stale, and goes through it twice: a first time in calculate mode, which adds
up what is to be paid, and a second time in execute mode.

`WithdrawRequestProcessor` is one run.  Its phase is the couchbase or bitcoind operation about to
be made for the current request, with the locals and members that are still needed.  A request
that an earlier run has left in an intermediate state is taken up where that run has stopped: this
is meant to depend on whether the profile is still locked toward it, but the comparison is the
wrong way round (`continueFromProcessedButProfileNeedsDeductingAndUnlocking`).
-/

namespace Autobackup.Abc2

open Binary64

inductive WithdrawFundsRequestState
  | unprocessed
  | insufficientFunds_Done
  | processing
  | bitcoindCommandReturnedError_Done
  | processedButProfileNeedsDeductingAndUnlocking
  | processed_Done
  deriving DecidableEq, Repr, Inhabited

/-- Whether its name ends in `_Done`. -/
def WithdrawFundsRequestState.isDone : WithdrawFundsRequestState → Bool
  | .insufficientFunds_Done | .bitcoindCommandReturnedError_Done | .processed_Done => true
  | _ => false

structure WithdrawFundsRequest where
  desiredWithdrawAmountInSatoshis : ℤ
  bitcoinKeyToWithdrawTo : BitcoinKey
  state : WithdrawFundsRequestState
  deriving DecidableEq, Repr, Inhabited

/-- The documents that the processor deals with. -/
inductive WithdrawKey
  | withdrawFundsRequest (k : WithdrawFundsRequestKey)
  | userAccount (username : Username)
  deriving DecidableEq, Repr

@[reducible] def WithdrawDoc : WithdrawKey → Type
  | .withdrawFundsRequest _ => WithdrawFundsRequest
  | .userAccount _ => UserAccount

/-- What a write is for. -/
inductive WithdrawNote
  /-- The profile was locked toward the request. -/
  | lockWithdrawing (k : WithdrawFundsRequestKey)
  /-- The amount was taken from the balance and the lock removed. -/
  | debit (k : WithdrawFundsRequestKey) (amount : ℤ)
  | other
  deriving DecidableEq, Repr

abbrev WithdrawDb := Store WithdrawNote WithdrawDoc

abbrev WithdrawAction (σ : Type) := Action WithdrawNote WithdrawDoc σ

inductive ProcessorMode
  | CalculateMode
  | ExecuteMode
  deriving DecidableEq, Repr

/-- The current request, as it is now. -/
structure WithdrawRow where
  /-- `m_CurrentKeyToNotDoneWithdrawalRequest` -/
  key : WithdrawFundsRequestKey
  request : WithdrawFundsRequest
  deriving DecidableEq, Repr

namespace WithdrawRow

/-- `m_CurrentWithdrawRequestDesiredAmountToWithdrawInSatoshis` -/
def amount (x : WithdrawRow) : ℤ := x.request.desiredWithdrawAmountInSatoshis

/-- `m_CurrentUserRequestingWithdrawal` -/
def user (x : WithdrawRow) : Username := x.key.username

def inState (x : WithdrawRow) (state : WithdrawFundsRequestState) : WithdrawRow :=
  { x with request := { x.request with state := state } }

end WithdrawRow

inductive ProcessorPhase
  | getWithdrawalRequest (key : WithdrawFundsRequestKey)
  | getUserProfile (x : WithdrawRow) (withdrawalRequestCas : ℕ)
  | setInsufficientFunds (x : WithdrawRow) (withdrawalRequestCas : ℕ)
  | lockUserProfile (x : WithdrawRow) (withdrawalRequestCas userProfileCas : ℕ)
      (userProfile : UserAccount)
  | setProcessing (x : WithdrawRow) (withdrawalRequestCas : ℕ) (userProfile : UserAccount)
  | sendToAddress (x : WithdrawRow) (inProcessingStateCas : ℕ) (userProfile : UserAccount)
  /-- bitcoind has answered without an error. -/
  | setProcessedButProfileNeedsDeductingAndUnlocking (x : WithdrawRow)
      (inProcessingStateCas : ℕ) (userProfile : UserAccount)
  | deductAmountAndUnlock (x : WithdrawRow)
      (inProcessedButProfileNeedsDeductingAndUnlockingCas : ℕ) (userProfile : UserAccount)
  | setProcessedAndDone (x : WithdrawRow)
      (inProcessedButProfileNeedsDeductingAndUnlockingCas : ℕ)
  /-- It waits for the user after the calculate pass. -/
  | calculationIterationComplete
  /-- `withdrawalRequestProcessingFinished(success)` -/
  | finished (success : Bool)
  deriving DecidableEq, Repr

/-- What is not in the database, the last one first. -/
inductive WithdrawHappening
  /-- `sendtoaddress` was issued. -/
  | sendToAddress (k : WithdrawFundsRequestKey) (amount : ℤ)
  /-- A request in state `processedButProfileNeedsDeductingAndUnlocking` was taken up: where the
  profile was locked to, and whether it went on by debiting. -/
  | resumed (k : WithdrawFundsRequestKey) (lockedTo : Option WithdrawFundsRequestKey)
      (atDeductAndUnlock : Bool)
  deriving DecidableEq, Repr

/-- The request and the amount of a `sendtoaddress`. -/
def WithdrawHappening.sent : WithdrawHappening → Option (WithdrawFundsRequestKey × ℤ)
  | .sendToAddress k amount => some (k, amount)
  | .resumed _ _ _ => none

structure WithdrawRequestProcessor where
  mode : ProcessorMode
  /-- `m_ViewQueryResultsAsStringListBecauseEasierForMeToIterate` -/
  viewQueryResults : List WithdrawFundsRequestKey
  /-- Those that are still to come. -/
  rest : List WithdrawFundsRequestKey
  usersWithProfilesFoundLocked : List Username
  runningTotalOfAllWithdrawalRequests : ℤ
  /-- The requests that the running total is of. -/
  counted : List WithdrawFundsRequestKey
  userBalancesDuringCalculationMode : Username → Option ℤ
  /-- Not initialized by the constructor. -/
  currentUserProfileInLockedWithdrawingStateCas : ℕ
  phase : ProcessorPhase
  happened : List WithdrawHappening

/-- The withdrawal fee of the source, in satoshis, computed in doubles. -/
def withdrawalFeeInSatoshis (desiredWithdrawAmount : ℤ) : ℤ :=
  jsonDoubleToSatoshiIntIncludingRounding roundToDouble
    (withdrawalFeeForWithdrawalAmount roundToDouble
      (satoshiIntToJsonDouble roundToDouble desiredWithdrawAmount))

-- 47367 satoshis exactly
example : withdrawalFeeInSatoshis 3157800 = 47368 := by decide +kernel

/-- The profile with the lock toward `key`. -/
def UserAccount.lockedToWithdraw (profile : UserAccount) (key : WithdrawFundsRequestKey) :
    UserAccount :=
  { profile with lockedWithdrawingFunds := some key }

/-- The profile without the amount and without the lock. -/
def UserAccount.withdrawnAndUnlocked (profile : UserAccount) (amount : ℤ) : UserAccount :=
  { profile with
    balanceInSatoshis := profile.balanceInSatoshis - amount
    lockedWithdrawingFunds := none }

namespace WithdrawRequestProcessor

variable (fee : ℤ → ℤ)

/-- `m_CurrentWithdrawRequestTotalAmountToWithdrawIncludingWithdrawalFeeInSatoshis` -/
def totalAmount (request : WithdrawFundsRequest) : ℤ :=
  request.desiredWithdrawAmountInSatoshis + fee request.desiredWithdrawAmountInSatoshis

def finish (s : WithdrawRequestProcessor) (success : Bool) : WithdrawRequestProcessor :=
  { s with phase := .finished success }

def processNextWithdrawalRequestOrEmitFinishedIfNoMore (s : WithdrawRequestProcessor) :
    WithdrawRequestProcessor :=
  match s.rest with
  | key :: rest => { s with rest := rest, phase := .getWithdrawalRequest key }
  | [] =>
      match s.mode with
      | .CalculateMode => { s with phase := .calculationIterationComplete }
      | .ExecuteMode => s.finish true

/-- `processWithdrawalRequests`, after the view query. -/
def processWithdrawalRequests (viewQueryResults : List WithdrawFundsRequestKey)
    (uninitializedCas : ℕ) : WithdrawRequestProcessor :=
  processNextWithdrawalRequestOrEmitFinishedIfNoMore
    { mode := .CalculateMode
      viewQueryResults := viewQueryResults
      rest := viewQueryResults
      usersWithProfilesFoundLocked := []
      runningTotalOfAllWithdrawalRequests := 0
      counted := []
      userBalancesDuringCalculationMode := fun _ => none
      currentUserProfileInLockedWithdrawingStateCas := uninitializedCas
      phase := .finished false
      happened := [] }

def proceedOntoExecutionIteration (s : WithdrawRequestProcessor) : WithdrawRequestProcessor :=
  processNextWithdrawalRequestOrEmitFinishedIfNoMore
    { s with mode := .ExecuteMode, rest := s.viewQueryResults }

/-- The user's balance less the amount, as calculated so far; `none` if it is not enough. -/
def debitFromUsersCalculatedRollingBalance (s : WithdrawRequestProcessor) (x : WithdrawRow)
    (userBalance : ℤ) : Option WithdrawRequestProcessor :=
  let rollingUserBalance := (s.userBalancesDuringCalculationMode x.user).getD userBalance -
    totalAmount fee x.request
  if rollingUserBalance < 0 then none
  else some
    { s with
      userBalancesDuringCalculationMode :=
        Function.update s.userBalancesDuringCalculationMode x.user (some rollingUserBalance) }

def afterWithdrawalRequest (s : WithdrawRequestProcessor) (key : WithdrawFundsRequestKey) :
    Option (ℕ × WithdrawFundsRequest) → WithdrawRequestProcessor
  | none => s.finish false
  | some (cas, request) =>
      if request.state.isDone then s.processNextWithdrawalRequestOrEmitFinishedIfNoMore
      -- one request of a locked profile is enough to leave the others of its user alone
      else if key.username ∈ s.usersWithProfilesFoundLocked then
        s.processNextWithdrawalRequestOrEmitFinishedIfNoMore
      else { s with phase := .getUserProfile ⟨key, request⟩ cas }

/-- `continueAt_deductAmountFromCurrentUserProfileBalanceAndCasSwapUnlockIt...` -/
def continueAtDeduct (s : WithdrawRequestProcessor) (x : WithdrawRow) (withdrawalRequestCas : ℕ)
    (userProfile : UserAccount) : WithdrawRequestProcessor :=
  match s.mode with
  | .CalculateMode =>
      match s.debitFromUsersCalculatedRollingBalance fee x userProfile.balanceInSatoshis with
      | none => s.finish false
      | some s => { s with phase := .deductAmountAndUnlock x withdrawalRequestCas userProfile }
  | .ExecuteMode =>
      { s with phase := .deductAmountAndUnlock x withdrawalRequestCas userProfile }

/-- Error recovery from state `processedButProfileNeedsDeductingAndUnlocking`. -/
def continueFromProcessedButProfileNeedsDeductingAndUnlocking (s : WithdrawRequestProcessor)
    (x : WithdrawRow) (withdrawalRequestCas : ℕ) (userProfile : UserAccount) :
    WithdrawRequestProcessor :=
  -- the comparison of the source, which is the wrong way round
  if userProfile.lockedWithdrawingFunds ≠ some x.key then
    { s with happened := .resumed x.key userProfile.lockedWithdrawingFunds true :: s.happened
      }.continueAtDeduct fee x withdrawalRequestCas userProfile
  else
    { s with
      happened := .resumed x.key userProfile.lockedWithdrawingFunds false :: s.happened
      phase := .setProcessedAndDone x withdrawalRequestCas }

/-- The profile is not locked, and the request is not processed. -/
def processUnprocessed (s : WithdrawRequestProcessor) (x : WithdrawRow)
    (withdrawalRequestCas userProfileCas : ℕ) (userProfile : UserAccount) :
    WithdrawRequestProcessor :=
  match s.mode with
  | .ExecuteMode =>
      if userProfile.balanceInSatoshis < totalAmount fee x.request then
        { s with phase := .setInsufficientFunds x withdrawalRequestCas }
      else { s with phase := .lockUserProfile x withdrawalRequestCas userProfileCas userProfile }
  | .CalculateMode =>
      match s.debitFromUsersCalculatedRollingBalance fee x userProfile.balanceInSatoshis with
      -- the rolling balance does not cover it, so the execute pass will not pay it either
      | none => s.processNextWithdrawalRequestOrEmitFinishedIfNoMore
      | some s =>
          { s with
            runningTotalOfAllWithdrawalRequests := s.runningTotalOfAllWithdrawalRequests +
              x.request.desiredWithdrawAmountInSatoshis
            counted := s.counted ++ [x.key] }.processNextWithdrawalRequestOrEmitFinishedIfNoMore

def afterUserProfile (s : WithdrawRequestProcessor) (x : WithdrawRow)
    (withdrawalRequestCas : ℕ) : Option (ℕ × UserAccount) → WithdrawRequestProcessor
  | none => s.finish false
  | some (userProfileCas, userProfile) =>
      -- total system failure: in state 'processing', and not locked toward the request
      if x.request.state = .processing ∧ userProfile.lockedWithdrawingFunds ≠ some x.key then
        s.finish false
      else if x.request.state = .processedButProfileNeedsDeductingAndUnlocking then
        s.continueFromProcessedButProfileNeedsDeductingAndUnlocking fee x withdrawalRequestCas
          userProfile
      else if userProfile.profileIsLocked then
        { s with usersWithProfilesFoundLocked := x.user :: s.usersWithProfilesFoundLocked
          }.processNextWithdrawalRequestOrEmitFinishedIfNoMore
      else s.processUnprocessed fee x withdrawalRequestCas userProfileCas userProfile

def afterInsufficientFunds (s : WithdrawRequestProcessor) : Reply → WithdrawRequestProcessor
  | .stored _ => s.processNextWithdrawalRequestOrEmitFinishedIfNoMore
  | _ => s.finish false

def afterLock (s : WithdrawRequestProcessor) (x : WithdrawRow) (withdrawalRequestCas : ℕ)
    (userProfile : UserAccount) : Reply → WithdrawRequestProcessor
  | .stored cas =>
      { s with
        currentUserProfileInLockedWithdrawingStateCas := cas
        phase := .setProcessing x withdrawalRequestCas userProfile }
  -- somebody has written the profile since it was read
  | .keyExists =>
      { s with usersWithProfilesFoundLocked := x.user :: s.usersWithProfilesFoundLocked
        }.processNextWithdrawalRequestOrEmitFinishedIfNoMore
  | .keyMissing => s.finish false

def afterProcessing (s : WithdrawRequestProcessor) (x : WithdrawRow)
    (userProfile : UserAccount) : Reply → WithdrawRequestProcessor
  | .stored cas => { s with phase := .sendToAddress x cas userProfile }
  | _ => s.finish false

def afterSendToAddress (s : WithdrawRequestProcessor) (x : WithdrawRow)
    (inProcessingStateCas : ℕ) (userProfile : UserAccount) : WithdrawRequestProcessor :=
  { s with
    happened := .sendToAddress x.key x.request.desiredWithdrawAmountInSatoshis :: s.happened
    phase := .setProcessedButProfileNeedsDeductingAndUnlocking x inProcessingStateCas
      userProfile }

/-- It goes on to debit, which is in execute mode here. -/
def afterProcessedButProfileNeedsDeductingAndUnlocking (s : WithdrawRequestProcessor)
    (x : WithdrawRow) (userProfile : UserAccount) : Reply → WithdrawRequestProcessor
  | .stored cas => s.continueAtDeduct fee x cas userProfile
  | _ => s.finish false

def afterDeduct (s : WithdrawRequestProcessor) (x : WithdrawRow) (withdrawalRequestCas : ℕ) :
    Reply → WithdrawRequestProcessor
  | .stored _ => { s with phase := .setProcessedAndDone x withdrawalRequestCas }
  | _ => s.finish false

def afterProcessedAndDone (s : WithdrawRequestProcessor) : Reply → WithdrawRequestProcessor
  | .stored _ => s.processNextWithdrawalRequestOrEmitFinishedIfNoMore
  | _ => s.finish false

/-- The next operation. -/
def act (s : WithdrawRequestProcessor) : WithdrawAction WithdrawRequestProcessor :=
  match s.phase with
  | .getWithdrawalRequest key => .get (.withdrawFundsRequest key) (s.afterWithdrawalRequest key)
  | .getUserProfile x cas => .get (.userAccount x.user) (s.afterUserProfile fee x cas)
  | .setInsufficientFunds x cas =>
      .set (.withdrawFundsRequest x.key) .other (x.inState .insufficientFunds_Done).request cas
        s.afterInsufficientFunds
  | .lockUserProfile x cas userProfileCas userProfile =>
      .set (.userAccount x.user) (.lockWithdrawing x.key) (userProfile.lockedToWithdraw x.key)
        userProfileCas (s.afterLock x cas (userProfile.lockedToWithdraw x.key))
  | .setProcessing x cas userProfile =>
      .set (.withdrawFundsRequest x.key) .other (x.inState .processing).request cas
        (s.afterProcessing (x.inState .processing) userProfile)
  | .sendToAddress x cas userProfile => .pause (s.afterSendToAddress x cas userProfile)
  | .setProcessedButProfileNeedsDeductingAndUnlocking x cas userProfile =>
      .set (.withdrawFundsRequest x.key) .other
        (x.inState .processedButProfileNeedsDeductingAndUnlocking).request cas
        (s.afterProcessedButProfileNeedsDeductingAndUnlocking fee
          (x.inState .processedButProfileNeedsDeductingAndUnlocking) userProfile)
  | .deductAmountAndUnlock x cas userProfile =>
      .set (.userAccount x.user) (.debit x.key (totalAmount fee x.request))
        (userProfile.withdrawnAndUnlocked (totalAmount fee x.request))
        s.currentUserProfileInLockedWithdrawingStateCas (s.afterDeduct x cas)
  | .setProcessedAndDone x cas =>
      .set (.withdrawFundsRequest x.key) .other (x.inState .processed_Done).request cas
        s.afterProcessedAndDone
  | .calculationIterationComplete | .finished _ => .pause s

/-- What was sent, in this order. -/
def sent (s : WithdrawRequestProcessor) : List (WithdrawFundsRequestKey × ℤ) :=
  (s.happened.filterMap WithdrawHappening.sent).reverse

/-! ## In execute mode -/

variable {fee : ℤ → ℤ} {s : WithdrawRequestProcessor}

/-- In execute mode it goes by the balance that was read. -/
lemma processUnprocessed_execute {x : WithdrawRow} {userProfile : UserAccount}
    (hmode : s.mode = .ExecuteMode) (cas userProfileCas : ℕ) :
    s.processUnprocessed fee x cas userProfileCas userProfile =
      if userProfile.balanceInSatoshis < totalAmount fee x.request then
        { s with phase := .setInsufficientFunds x cas }
      else { s with phase := .lockUserProfile x cas userProfileCas userProfile } := by
  unfold processUnprocessed
  simp only [hmode]

lemma continueAtDeduct_execute (hmode : s.mode = .ExecuteMode) (x : WithdrawRow) (cas : ℕ)
    (userProfile : UserAccount) :
    s.continueAtDeduct fee x cas userProfile =
      { s with phase := .deductAmountAndUnlock x cas userProfile } := by
  unfold continueAtDeduct
  rw [hmode]

end WithdrawRequestProcessor

/-- The two documents of a request. -/
lemma WithdrawKey.request_ne_account (k : WithdrawFundsRequestKey) (u : Username) :
    WithdrawKey.withdrawFundsRequest k ≠ .userAccount u := nofun

/-- The database and a run of the processor. -/
structure WithdrawWorld where
  store : WithdrawDb
  processor : WithdrawRequestProcessor

/-- The next operation is made. -/
def WithdrawWorld.operate (fee : ℤ → ℤ) (w : WithdrawWorld) : WithdrawWorld :=
  let r := perform w.store (w.processor.act fee)
  ⟨r.1, r.2⟩

end Autobackup.Abc2
