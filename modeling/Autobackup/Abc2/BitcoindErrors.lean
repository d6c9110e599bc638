import Autobackup.Abc2.WithdrawRequestProcessor

/-!
# When bitcoind does not answer, or answers with an error

Then the processor asks what to do.  As is wished, the request is set back to unprocessed, or to
`bitcoindCommandReturnedError_Done`.  After that the profile is unlocked without a debit, and the
processor goes on or stops.  An error may have come after the payout was made.

A `PayoutRun` is a processor with these branches.  It may be stopped at any moment, and another run
started in its place.  `sentVersions` and `unlockedVersions` are history variables, as `happened`
is.  The text of the error that is stored with the request is left out.
-/

namespace Autobackup.Abc2

open WithdrawRequestProcessor

inductive WayToHandleBitcoindCommunicationsError
  | RevertWithdrawalRequestStateToUnprocessedAndContinueProcessingWithdrawalRequests
  | RevertWithdrawalRequestStateToUnprocessedAndStopProcessingWithdrawalRequests
  | SetWithdrawalRequestStateToBitcoindReturnedErrorAndContinueProcessingWithdrawalRequests
  | SetWithdrawalRequestStateToBitcoindReturnedErrorAndStopProcessingWithdrawalRequests
  deriving DecidableEq, Repr

namespace WayToHandleBitcoindCommunicationsError

/-- The state that the request is set to. -/
def state : WayToHandleBitcoindCommunicationsError → WithdrawFundsRequestState
  | RevertWithdrawalRequestStateToUnprocessedAndContinueProcessingWithdrawalRequests
  | RevertWithdrawalRequestStateToUnprocessedAndStopProcessingWithdrawalRequests => .unprocessed
  | SetWithdrawalRequestStateToBitcoindReturnedErrorAndContinueProcessingWithdrawalRequests
  | SetWithdrawalRequestStateToBitcoindReturnedErrorAndStopProcessingWithdrawalRequests =>
      .bitcoindCommandReturnedError_Done

def continues : WayToHandleBitcoindCommunicationsError → Bool
  | RevertWithdrawalRequestStateToUnprocessedAndContinueProcessingWithdrawalRequests
  | SetWithdrawalRequestStateToBitcoindReturnedErrorAndContinueProcessingWithdrawalRequests => true
  | RevertWithdrawalRequestStateToUnprocessedAndStopProcessingWithdrawalRequests
  | SetWithdrawalRequestStateToBitcoindReturnedErrorAndStopProcessingWithdrawalRequests => false

end WayToHandleBitcoindCommunicationsError

inductive BitcoindErrorPhase
  /-- `bitcoindCommunicationsErrorDetectedSoWeNeedToAskTheUserHowToProceed` -/
  | askTheUser
  | setWithdrawalRequestState (way : WayToHandleBitcoindCommunicationsError)
  | unlockUserProfileWithoutDebitting (way : WayToHandleBitcoindCommunicationsError)
  deriving DecidableEq, Repr

/-- An error that is being handled. -/
structure BitcoindError where
  /-- In state `processing`, to begin with. -/
  row : WithdrawRow
  inProcessingStateCas : ℕ
  userProfile : UserAccount
  phase : BitcoindErrorPhase
  deriving DecidableEq, Repr

/-- The profile without the lock. -/
def UserAccount.unlockedWithoutDebitting (profile : UserAccount) : UserAccount :=
  { profile with lockedWithdrawingFunds := none }

inductive PayoutInput
  | processWithdrawalRequests (viewQueryResults : List WithdrawFundsRequestKey)
      (uninitializedCas : ℕ)
  | proceedOntoExecutionIteration
  /-- The next operation; bitcoind answers without an error, if it is that. -/
  | proceed (bitcoindAnswers : Bool)
  | userWantsUsToHandleTheBitcoindCommunicationsErrorThisWay
      (way : WayToHandleBitcoindCommunicationsError)
  /-- A database error, or the run is stopped. -/
  | fail
  /-- A request is filed. -/
  | newRequest (k : WithdrawFundsRequestKey) (desiredWithdrawAmountInSatoshis : ℤ)
      (bitcoinKeyToWithdrawTo : BitcoinKey)
  | writeProfile (username : Username) (profile : UserAccount)
  deriving Repr

structure PayoutRun where
  processor : WithdrawRequestProcessor
  error : Option BitcoindError := none
  /-- Every request that `sendtoaddress` was issued for, with the CAS it had then. -/
  sentVersions : List (WithdrawFundsRequestKey × ℕ) := []
  /-- Every profile that was unlocked without a debit, with the CAS it had while it was locked. -/
  unlockedVersions : List (Username × ℕ) := []

namespace PayoutRun

variable (fee : ℤ → ℤ) (s : PayoutRun)

def finish (success : Bool) : PayoutRun :=
  { s with processor := s.processor.finish success, error := none }

/-- `handleNetworkReplyFinished`, after `sendtoaddress` was issued. -/
def sendToAddress (x : WithdrawRow) (inProcessingStateCas : ℕ) (userProfile : UserAccount)
    (bitcoindAnswers : Bool) : PayoutRun :=
  { s with
    processor := s.processor.afterSendToAddress x inProcessingStateCas userProfile
    error :=
      if bitcoindAnswers then none else some ⟨x, inProcessingStateCas, userProfile, .askTheUser⟩
    -- also when there is no answer: bitcoind may have sent all the same
    sentVersions := s.sentVersions ++ [(x.key, inProcessingStateCas)] }

/-- The first switch of `userWantsUsToHandleTheBitcoindCommunicationsErrorThisWay`. -/
def afterWithdrawalRequestState (e : BitcoindError) (way : WayToHandleBitcoindCommunicationsError) :
    Reply → PayoutRun
  | .stored _ =>
      { s with
        error := some
          { e with
            row := e.row.inState way.state
            phase := .unlockUserProfileWithoutDebitting way } }
  | _ => s.finish false

/-- The second one. -/
def afterUnlock (e : BitcoindError) (way : WayToHandleBitcoindCommunicationsError) :
    Reply → PayoutRun
  | .stored _ =>
      { s with
        processor :=
          if way.continues then s.processor.processNextWithdrawalRequestOrEmitFinishedIfNoMore
          else s.processor.finish true
        error := none
        unlockedVersions := s.unlockedVersions ++
          [(e.row.user, s.processor.currentUserProfileInLockedWithdrawingStateCas)] }
  | _ => s.finish false

def handleError (e : BitcoindError) : WithdrawAction PayoutRun :=
  match e.phase with
  | .askTheUser => .pause s
  | .setWithdrawalRequestState way =>
      .set (.withdrawFundsRequest e.row.key) .other (e.row.inState way.state).request
        e.inProcessingStateCas (s.afterWithdrawalRequestState e way)
  | .unlockUserProfileWithoutDebitting way =>
      .set (.userAccount e.row.user) .other e.userProfile.unlockedWithoutDebitting
        s.processor.currentUserProfileInLockedWithdrawingStateCas (s.afterUnlock e way)

def userWants (way : WayToHandleBitcoindCommunicationsError) : PayoutRun :=
  match s.error with
  | some ⟨row, cas, userProfile, .askTheUser⟩ =>
      { s with error := some ⟨row, cas, userProfile, .setWithdrawalRequestState way⟩ }
  | _ => s

def proceed (bitcoindAnswers : Bool) : WithdrawAction PayoutRun :=
  match s.error with
  | some e => s.handleError e
  | none =>
      match s.processor.phase with
      | .sendToAddress x cas userProfile =>
          .pause (s.sendToAddress x cas userProfile bitcoindAnswers)
      | _ => (s.processor.act fee).map fun processor => { s with processor := processor }

def act : PayoutInput → WithdrawAction PayoutRun
  | .processWithdrawalRequests viewQueryResults uninitializedCas =>
      .pause
        { s with
          processor := processWithdrawalRequests viewQueryResults uninitializedCas
          error := none }
  | .proceedOntoExecutionIteration =>
      match s.error, s.processor.phase with
      | none, .calculationIterationComplete =>
          .pause { s with processor := s.processor.proceedOntoExecutionIteration }
      | _, _ => .pause s
  | .proceed bitcoindAnswers => s.proceed fee bitcoindAnswers
  | .userWantsUsToHandleTheBitcoindCommunicationsErrorThisWay way => .pause (s.userWants way)
  | .fail => .pause (s.finish false)
  | .newRequest _ _ _ | .writeProfile _ _ => .pause s

end PayoutRun

/-! ## Runs and other programs -/

inductive PayoutClient
  | run (s : PayoutRun)
  | otherPrograms

def PayoutClient.act (fee : ℤ → ℤ) : PayoutClient → PayoutInput → WithdrawAction PayoutClient
  -- whatever others do, they do to documents, so a run and the others share the inputs
  | .run s, x => (s.act fee x).map .run
  | .otherPrograms, .newRequest k amount bitcoinKey =>
      .add (.withdrawFundsRequest k) .other ⟨amount, bitcoinKey, .unprocessed⟩ fun _ =>
        .otherPrograms
  | .otherPrograms, .writeProfile username profile =>
      .set (.userAccount username) .other profile 0 fun _ => .otherPrograms
  | .otherPrograms, _ => .pause .otherPrograms

/-- Any number of runs and other programs at a time. -/
abbrev Payouts (ι : Type) := World WithdrawNote WithdrawDoc PayoutClient ι

end Autobackup.Abc2
