import Autobackup.Abc2.WithdrawRequestProcessor
import Autobackup.Foundation.Machine

/-!
# Execute-mode runs that stop and are started again

A run of the processor may stop between any two operations.  Meanwhile requests are filed, and other
programs write profiles that are not locked for a withdrawal.  `WithdrawalsOk` is what the processor
is to guarantee: nothing is sent twice, what is done was debitted once, and an intermediate request
is resumed at the debit exactly when its profile is still locked toward it.

It does guarantee this as long as no run takes up a request in state
`processedButProfileNeedsDeductingAndUnlocking` (`withdrawalsOk_iff`).  Such a request is always
resumed at the wrong place: the profile is debitted again when it was debitted already, and the
state is bumped without a debit when the profile is still locked.

The machine has one database and one run at a time, and a run may be started again at any point,
which stops the one before.  Runs at the same time, errors of bitcoind and the user's choices are in
`Autobackup.Abc2.PayoutSteps`.  Left out are the view query, whose rows are an input, and the
waiting times between retries.
-/

namespace Autobackup.Abc2

open WithdrawRequestProcessor

/-! ## Events -/

inductive WithdrawalEvent
  /-- The processor makes its next operation. -/
  | operation
  /-- The run stops, and an execute-mode run is started. -/
  | restart (viewQueryResults : List WithdrawFundsRequestKey)
      (usersWithProfilesFoundLocked : List Username) (uninitializedCas : ℕ)
  /-- Another program writes a profile. -/
  | otherWriter (username : Username) (profile : UserAccount)
  /-- A request is filed. -/
  | newRequest (k : WithdrawFundsRequestKey) (desiredWithdrawAmountInSatoshis : ℤ)
      (bitcoinKeyToWithdrawTo : BitcoinKey)

/-- Others do not touch a profile that is locked for a withdrawal, and do not lock one. -/
def OthersMayWrite (st : WithdrawDb) (username : Username) (profile : UserAccount) : Prop :=
  profile.lockedWithdrawingFunds = none ∧
    ∀ before ∈ (st (.userAccount username)).current, before.lockedWithdrawingFunds = none

instance (st : WithdrawDb) (username : Username) (profile : UserAccount) :
    Decidable (OthersMayWrite st username profile) :=
  inferInstanceAs (Decidable (_ ∧ _))

namespace WithdrawWorld

def restart (w : WithdrawWorld) (viewQueryResults : List WithdrawFundsRequestKey)
    (usersWithProfilesFoundLocked : List Username) (uninitializedCas : ℕ) : WithdrawWorld :=
  { w with
    processor := processNextWithdrawalRequestOrEmitFinishedIfNoMore
      { w.processor with
        mode := .ExecuteMode
        viewQueryResults := viewQueryResults
        rest := viewQueryResults
        usersWithProfilesFoundLocked := usersWithProfilesFoundLocked
        currentUserProfileInLockedWithdrawingStateCas := uninitializedCas } }

/-- One event, whoever it comes from.  Profiles that others may not write, and requests that are
there already, are left as they are. -/
def step (fee : ℤ → ℤ) (w : WithdrawWorld) : WithdrawalEvent → WithdrawWorld
  | .operation => w.operate fee
  | .restart viewQueryResults usersWithProfilesFoundLocked uninitializedCas =>
      w.restart viewQueryResults usersWithProfilesFoundLocked uninitializedCas
  | .otherWriter username profile =>
      if OthersMayWrite w.store username profile then
        { w with store := w.store.push (.userAccount username) .other profile }
      else w
  | .newRequest k amount bitcoinKey =>
      if (w.store (.withdrawFundsRequest k)).cas = 0 then
        { w with
          store :=
            w.store.push (.withdrawFundsRequest k) .other ⟨amount, bitcoinKey, .unprocessed⟩ }
      else w

/-- Nothing is there, and no run is going on. -/
def empty : WithdrawWorld where
  store := fun _ => Cell.absent
  processor :=
    { mode := .ExecuteMode
      viewQueryResults := []
      rest := []
      usersWithProfilesFoundLocked := []
      runningTotalOfAllWithdrawalRequests := 0
      counted := []
      userBalancesDuringCalculationMode := fun _ => none
      currentUserProfileInLockedWithdrawingStateCas := 0
      phase := .finished true
      happened := [] }

end WithdrawWorld

/-! ## What is to hold -/

/-- How often `sendtoaddress` was issued for the request. -/
def WithdrawRequestProcessor.sends (s : WithdrawRequestProcessor) (k : WithdrawFundsRequestKey) :
    ℕ :=
  (s.sent.map Prod.fst).count k

lemma sends_afterSendToAddress (s : WithdrawRequestProcessor) (x : WithdrawRow) (cas : ℕ)
    (userProfile : UserAccount) (k : WithdrawFundsRequestKey) :
    (s.afterSendToAddress x cas userProfile).sends k =
      s.sends k + if x.key = k then 1 else 0 := by
  have hsent : (s.afterSendToAddress x cas userProfile).sent = s.sent ++ [(x.key, x.amount)] := by
    unfold WithdrawRequestProcessor.sent
    exact List.reverse_cons
  unfold WithdrawRequestProcessor.sends
  rw [hsent, List.map_append, List.count_append, List.map_singleton, List.count_singleton]
  simp only [beq_iff_eq]

/-- What a write took for the request. -/
def WithdrawNote.debitFor (k : WithdrawFundsRequestKey) : WithdrawNote → Option ℤ
  | .debit k' amount => if k' = k then some amount else none
  | _ => none

@[simp] lemma WithdrawNote.debitFor_self (k : WithdrawFundsRequestKey) (amount : ℤ) :
    (WithdrawNote.debit k amount).debitFor k = some amount :=
  if_pos rfl

lemma WithdrawNote.debitFor_of_ne {k k' : WithdrawFundsRequestKey} (h : k' ≠ k) (amount : ℤ) :
    (WithdrawNote.debit k' amount).debitFor k = none :=
  if_neg h

/-- Everything that was taken from the user for the request, one amount for each write. -/
def withdrawalDebits (st : WithdrawDb) (k : WithdrawFundsRequestKey) : List ℤ :=
  (st (.userAccount k.username)).notes.filterMap (WithdrawNote.debitFor k)

/-- A lock leaves the balance as it is, and a debit takes its amount from it. -/
def AccountWrite (before : UserAccount) (note : WithdrawNote) (after : UserAccount) : Prop :=
  match note with
  | .lockWithdrawing _ => after.balanceInSatoshis = before.balanceInSatoshis
  | .debit _ amount => after.balanceInSatoshis = before.balanceInSatoshis - amount
  | .other => True

/-- **Withdrawals survive crashes.**

It is about one state and the history that led to it: how often a request was sent, how often its
profile was debitted, and where it would be resumed now. -/
structure WithdrawalsOk (fee : ℤ → ℤ) (w : WithdrawWorld) : Prop where
  sentOnce : ∀ k, w.processor.sends k ≤ 1
  debitedOnce : ∀ k request, (w.store (.withdrawFundsRequest k)).current = some request →
    request.state = .processed_Done → withdrawalDebits w.store k = [totalAmount fee request]
  unlocked : ∀ k request profile, (w.store (.withdrawFundsRequest k)).current = some request →
    request.state = .processed_Done →
    (w.store (.userAccount k.username)).current = some profile →
    profile.lockedWithdrawingFunds ≠ some k
  accounts : ∀ u, (w.store (.userAccount u)).Chain AccountWrite
  resumed : ∀ k lockedTo atDeductAndUnlock,
    .resumed k lockedTo atDeductAndUnlock ∈ w.processor.happened →
    (atDeductAndUnlock = true ↔ lockedTo = some k)

/-- A request in state `processedButProfileNeedsDeductingAndUnlocking` is about to be taken up. -/
def WithdrawWorld.TakesUp (w : WithdrawWorld) : Prop :=
  ∃ x withdrawalRequestCas userProfileCas userProfile,
    w.processor.phase = .getUserProfile x withdrawalRequestCas ∧
    (w.store (.userAccount x.user)).get = some (userProfileCas, userProfile) ∧
    x.request.state = .processedButProfileNeedsDeductingAndUnlocking

/-- The step takes up no such request.  It looks at the phase of the processor and at the state of
the request in its hands, and so at nothing that the step computes. -/
def WithdrawWorld.LeavesProcessed (w : WithdrawWorld) : WithdrawalEvent → Prop
  | .operation => ¬ w.TakesUp
  | _ => True

/-! ## The invariant -/

/-- What was sent and debitted for a request, by its state. -/
def RequestOk (fee : ℤ → ℤ) (request : WithdrawFundsRequest) (sends : ℕ) (debits : List ℤ) : Prop :=
  match request.state with
  | .unprocessed | .insufficientFunds_Done => sends = 0 ∧ debits = []
  | .processing => sends ≤ 1 ∧ debits = []
  | .processedButProfileNeedsDeductingAndUnlocking =>
      sends ≤ 1 ∧ (debits = [] ∨ debits = [totalAmount fee request])
  | .processed_Done => sends ≤ 1 ∧ debits = [totalAmount fee request]
  | .bitcoindCommandReturnedError_Done => False

/-- The documents, with the number of times that something was sent for a request. -/
structure WithdrawDbOk (fee : ℤ → ℤ) (st : WithdrawDb) (sends : WithdrawFundsRequestKey → ℕ) :
    Prop where
  absent : ∀ k, (st (.withdrawFundsRequest k)).cas = 0 → sends k = 0 ∧ withdrawalDebits st k = []
  request : ∀ k request, (st (.withdrawFundsRequest k)).current = some request →
    RequestOk fee request (sends k) (withdrawalDebits st k)
  unlocked : ∀ k request profile, (st (.withdrawFundsRequest k)).current = some request →
    request.state = .processed_Done → (st (.userAccount k.username)).current = some profile →
    profile.lockedWithdrawingFunds ≠ some k
  accounts : ∀ u, (st (.userAccount u)).Chain AccountWrite

/-- The current request is what the database has. -/
structure IsCurrent (st : WithdrawDb) (x : WithdrawRow) (withdrawalRequestCas : ℕ) : Prop where
  cas : withdrawalRequestCas = (st (.withdrawFundsRequest x.key)).cas
  current : (st (.withdrawFundsRequest x.key)).current = some x.request

/-- The run holds the lock of the profile. -/
structure HoldsLock (st : WithdrawDb) (x : WithdrawRow) (lockCas : ℕ) (userProfile : UserAccount) :
    Prop where
  cas : lockCas = (st (.userAccount x.user)).cas
  current : (st (.userAccount x.user)).current = some userProfile
  locked : userProfile.lockedWithdrawingFunds = some x.key

/-- What is known where a run is. -/
def PhaseOk (fee : ℤ → ℤ) (st : WithdrawDb) (sends : WithdrawFundsRequestKey → ℕ) (lockCas : ℕ) :
    ProcessorPhase → Prop
  | .getWithdrawalRequest _ | .calculationIterationComplete | .finished _ => True
  | .getUserProfile x cas => IsCurrent st x cas ∧ x.request.state.isDone = false
  | .setInsufficientFunds x cas => IsCurrent st x cas ∧ x.request.state = .unprocessed
  | .lockUserProfile x cas userProfileCas userProfile =>
      IsCurrent st x cas ∧ x.request.state = .unprocessed ∧
        (st (.userAccount x.user)).docAt userProfileCas = some userProfile ∧
        userProfile.profileIsLocked = false
  | .setProcessing x cas userProfile =>
      IsCurrent st x cas ∧ x.request.state = .unprocessed ∧ HoldsLock st x lockCas userProfile
  | .sendToAddress x cas userProfile =>
      IsCurrent st x cas ∧ x.request.state = .processing ∧ HoldsLock st x lockCas userProfile ∧
        sends x.key = 0
  | .setProcessedButProfileNeedsDeductingAndUnlocking x cas userProfile =>
      IsCurrent st x cas ∧ x.request.state = .processing ∧ HoldsLock st x lockCas userProfile
  | .deductAmountAndUnlock x cas userProfile =>
      IsCurrent st x cas ∧ x.request.state = .processedButProfileNeedsDeductingAndUnlocking ∧
        HoldsLock st x lockCas userProfile ∧ withdrawalDebits st x.key = []
  | .setProcessedAndDone x cas =>
      IsCurrent st x cas ∧ x.request.state = .processedButProfileNeedsDeductingAndUnlocking ∧
        withdrawalDebits st x.key = [totalAmount fee x.request] ∧
        ∀ profile ∈ (st (.userAccount x.user)).current, profile.lockedWithdrawingFunds ≠ some x.key

/-- What holds of a run wherever it is. -/
structure RunOk (fee : ℤ → ℤ) (st : WithdrawDb) (s : WithdrawRequestProcessor) : Prop where
  mode : s.mode = .ExecuteMode
  db : WithdrawDbOk fee st s.sends
  notResumed : ∀ k lockedTo atDeductAndUnlock,
    .resumed k lockedTo atDeductAndUnlock ∉ s.happened

/-- **The invariant** of runs that take up no intermediate request. -/
structure WithdrawWorld.Inv (fee : ℤ → ℤ) (w : WithdrawWorld) : Prop where
  run : RunOk fee w.store w.processor
  phase : PhaseOk fee w.store w.processor.sends
    w.processor.currentUserProfileInLockedWithdrawingStateCas w.processor.phase

variable {fee : ℤ → ℤ} {st : WithdrawDb} {sends : WithdrawFundsRequestKey → ℕ}
  {s : WithdrawRequestProcessor} {x : WithdrawRow} {cas : ℕ} {userProfile : UserAccount}

/-! ## Writes -/

lemma withdrawalDebits_push_request (st : WithdrawDb) (k : WithdrawFundsRequestKey)
    (note : WithdrawNote) (request : WithdrawFundsRequest) (k' : WithdrawFundsRequestKey) :
    withdrawalDebits (st.push (.withdrawFundsRequest k) note request) k' =
      withdrawalDebits st k' := by
  unfold withdrawalDebits
  rw [Store.push_of_ne st (WithdrawKey.request_ne_account k k'.username).symm]

lemma withdrawalDebits_push_account (st : WithdrawDb) (u : Username) (note : WithdrawNote)
    (profile : UserAccount) (k : WithdrawFundsRequestKey) :
    withdrawalDebits (st.push (.userAccount u) note profile) k =
      withdrawalDebits st k ++ if u = k.username then (note.debitFor k).toList else [] := by
  unfold withdrawalDebits
  by_cases hu : u = k.username
  · subst hu
    rw [if_pos rfl, Store.push_self, Cell.notes_push, List.filterMap_append]
    cases hnote : note.debitFor k <;> simp [hnote]
  · rw [if_neg hu, List.append_nil,
      Store.push_of_ne st fun heq => hu (WithdrawKey.userAccount.inj heq).symm]

lemma withdrawalDebits_push_of_none {note : WithdrawNote} {k : WithdrawFundsRequestKey}
    (hnote : note.debitFor k = none) (st : WithdrawDb) (u : Username) (profile : UserAccount) :
    withdrawalDebits (st.push (.userAccount u) note profile) k = withdrawalDebits st k := by
  rw [withdrawalDebits_push_account, hnote]
  simp

lemma IsCurrent.cas_ne_zero (h : IsCurrent st x cas) :
    (st (.withdrawFundsRequest x.key)).cas ≠ 0 := by
  have hbounds := Cell.docAt_bounds h.current
  exact Nat.pos_iff_ne_zero.1 hbounds.1

/-- After the state of the current request was written. -/
lemma IsCurrent.push (h : IsCurrent st x cas) (note : WithdrawNote)
    (state : WithdrawFundsRequestState) :
    IsCurrent (st.push (.withdrawFundsRequest x.key) note (x.inState state).request)
      (x.inState state) (cas + 1) where
  cas := by
    show cas + 1 = (Store.push st (.withdrawFundsRequest x.key) _ _
      (.withdrawFundsRequest x.key)).cas
    rw [Store.push_self, Cell.cas_push, h.cas]
  current := by
    show (Store.push st (.withdrawFundsRequest x.key) _ _
      (.withdrawFundsRequest x.key)).current = _
    rw [Store.push_self, Cell.current_push]

lemma IsCurrent.push_account (h : IsCurrent st x cas) (u : Username) (note : WithdrawNote)
    (profile : UserAccount) : IsCurrent (st.push (.userAccount u) note profile) x cas := by
  have hsame := Store.push_of_ne st (WithdrawKey.request_ne_account x.key u) note profile
  refine ⟨?_, ?_⟩
  · rw [hsame]
    exact h.cas
  · rw [hsame]
    exact h.current

lemma HoldsLock.push_request (h : HoldsLock st x cas userProfile) (k : WithdrawFundsRequestKey)
    (note : WithdrawNote) (request : WithdrawFundsRequest)
    (state : WithdrawFundsRequestState) :
    HoldsLock (st.push (.withdrawFundsRequest k) note request) (x.inState state) cas
      userProfile := by
  have hsame := Store.push_of_ne st (WithdrawKey.request_ne_account k x.user).symm note request
  refine ⟨?_, ?_, h.locked⟩
  · show cas = (Store.push st _ _ _ (.userAccount x.user)).cas
    rw [hsame]
    exact h.cas
  · show (Store.push st _ _ _ (.userAccount x.user)).current = _
    rw [hsame]
    exact h.current

namespace WithdrawDbOk

/-- A request is written, in a state that says what has happened. -/
lemma push_request (h : WithdrawDbOk fee st sends) (k : WithdrawFundsRequestKey)
    (note : WithdrawNote) (request : WithdrawFundsRequest)
    (hrequest : RequestOk fee request (sends k) (withdrawalDebits st k))
    (hdone : request.state = .processed_Done →
      ∀ profile ∈ (st (.userAccount k.username)).current,
        profile.lockedWithdrawingFunds ≠ some k) :
    WithdrawDbOk fee (st.push (.withdrawFundsRequest k) note request) sends := by
  have haccount : ∀ u, st.push (.withdrawFundsRequest k) note request (.userAccount u) =
      st (.userAccount u) := fun u =>
    Store.push_of_ne st (WithdrawKey.request_ne_account k u).symm note request
  have hother : ∀ k', k' ≠ k → st.push (.withdrawFundsRequest k) note request
      (.withdrawFundsRequest k') = st (.withdrawFundsRequest k') := fun k' hne =>
    Store.push_of_ne st (fun heq => hne (WithdrawKey.withdrawFundsRequest.inj heq)) note request
  refine ⟨fun k' hcas => ?_, fun k' request' hcurrent => ?_,
    fun k' request' profile hcurrent hstate hprofile => ?_, fun u => ?_⟩
  · rw [withdrawalDebits_push_request]
    by_cases hk : k' = k
    · subst hk
      rw [Store.push_self, Cell.cas_push] at hcas
      exact absurd hcas (Nat.succ_ne_zero _)
    · rw [hother k' hk] at hcas
      exact h.absent k' hcas
  · rw [withdrawalDebits_push_request]
    by_cases hk : k' = k
    · subst hk
      rw [Store.push_self, Cell.current_push] at hcurrent
      obtain rfl := Option.some.inj hcurrent
      exact hrequest
    · rw [hother k' hk] at hcurrent
      exact h.request k' request' hcurrent
  · rw [haccount] at hprofile
    by_cases hk : k' = k
    · subst hk
      rw [Store.push_self, Cell.current_push] at hcurrent
      obtain rfl := Option.some.inj hcurrent
      exact hdone hstate profile hprofile
    · rw [hother k' hk] at hcurrent
      exact h.unlocked k' request' profile hcurrent hstate hprofile
  · rw [haccount]
    exact h.accounts u

/-- A profile is written. -/
lemma push_account (h : WithdrawDbOk fee st sends) {u : Username} {note : WithdrawNote}
    {profile : UserAccount}
    (hwrite : ∀ before, (st (.userAccount u)).current = some before →
      AccountWrite before note profile)
    (hlocked : ∀ k request, profile.lockedWithdrawingFunds = some k →
      (st (.withdrawFundsRequest k)).current = some request → request.state ≠ .processed_Done)
    (hrequest : ∀ k request, (st (.withdrawFundsRequest k)).current = some request →
      RequestOk fee request (sends k)
        (withdrawalDebits (st.push (.userAccount u) note profile) k))
    (habsent : ∀ k, (st (.withdrawFundsRequest k)).cas = 0 →
      withdrawalDebits (st.push (.userAccount u) note profile) k = withdrawalDebits st k) :
    WithdrawDbOk fee (st.push (.userAccount u) note profile) sends := by
  have hsame : ∀ k, st.push (.userAccount u) note profile (.withdrawFundsRequest k) =
      st (.withdrawFundsRequest k) := fun k =>
    Store.push_of_ne st (WithdrawKey.request_ne_account k u) note profile
  refine ⟨fun k hcas => ?_, fun k request hcurrent => ?_,
    fun k request profile' hcurrent hstate hprofile => ?_, fun u' => ?_⟩
  · rw [hsame] at hcas
    rw [habsent k hcas]
    exact h.absent k hcas
  · rw [hsame] at hcurrent
    exact hrequest k request hcurrent
  · rw [hsame] at hcurrent
    by_cases hu : k.username = u
    · rw [hu, Store.push_self, Cell.current_push] at hprofile
      obtain rfl := Option.some.inj hprofile
      exact fun hlock => hlocked k request hlock hcurrent hstate
    · rw [Store.push_of_ne st fun heq => hu (WithdrawKey.userAccount.inj heq)] at hprofile
      exact h.unlocked k request profile' hcurrent hstate hprofile
  · by_cases hu : u' = u
    · subst hu
      rw [Store.push_self]
      exact (h.accounts u').push hwrite
    · rw [Store.push_of_ne st fun heq => hu (WithdrawKey.userAccount.inj heq)]
      exact h.accounts u'

/-- A profile is written, and nothing is debitted. -/
lemma push_undebitted (h : WithdrawDbOk fee st sends) {u : Username} {note : WithdrawNote}
    {profile : UserAccount} (hnote : ∀ k, note.debitFor k = none)
    (hwrite : ∀ before, (st (.userAccount u)).current = some before →
      AccountWrite before note profile)
    (hlocked : ∀ k request, profile.lockedWithdrawingFunds = some k →
      (st (.withdrawFundsRequest k)).current = some request →
      request.state ≠ .processed_Done) :
    WithdrawDbOk fee (st.push (.userAccount u) note profile) sends := by
  refine h.push_account hwrite hlocked (fun k request hcurrent => ?_) fun k _ => ?_
  · rw [withdrawalDebits_push_of_none (hnote k)]
    exact h.request k request hcurrent
  · exact withdrawalDebits_push_of_none (hnote k) st u profile

/-- The current request is debitted. -/
lemma push_debit (h : WithdrawDbOk fee st sends) {lockCas : ℕ} (hcurrent : IsCurrent st x cas)
    (hstate : x.request.state = .processedButProfileNeedsDeductingAndUnlocking)
    (hholds : HoldsLock st x lockCas userProfile) (hnone : withdrawalDebits st x.key = []) :
    WithdrawDbOk fee
        (st.push (.userAccount x.user) (.debit x.key (totalAmount fee x.request))
          (userProfile.withdrawnAndUnlocked (totalAmount fee x.request))) sends ∧
      withdrawalDebits
        (st.push (.userAccount x.user) (.debit x.key (totalAmount fee x.request))
          (userProfile.withdrawnAndUnlocked (totalAmount fee x.request))) x.key =
        [totalAmount fee x.request] := by
  set profile := userProfile.withdrawnAndUnlocked (totalAmount fee x.request)
  have hdebits : withdrawalDebits (st.push (.userAccount x.user)
      (.debit x.key (totalAmount fee x.request)) profile) x.key =
      [totalAmount fee x.request] := by
    rw [withdrawalDebits_push_account, hnone, WithdrawNote.debitFor_self]
    exact if_pos rfl
  have hothers : ∀ k, k ≠ x.key → withdrawalDebits (st.push (.userAccount x.user)
      (.debit x.key (totalAmount fee x.request)) profile) k = withdrawalDebits st k := by
    intro k hne
    exact withdrawalDebits_push_of_none (WithdrawNote.debitFor_of_ne hne.symm _) st x.user profile
  refine ⟨h.push_account (fun before hbefore => ?_) (fun k request hlock => ?_)
    (fun k request hrequest => ?_) fun k habsent => ?_, hdebits⟩
  · obtain rfl := Option.some.inj (hholds.current.symm.trans hbefore)
    exact rfl
  · exact absurd hlock nofun
  · by_cases hk : k = x.key
    · subst hk
      obtain rfl := Option.some.inj (hcurrent.current.symm.trans hrequest)
      have hbefore := h.request x.key x.request hrequest
      unfold RequestOk at hbefore ⊢
      rw [hstate] at hbefore ⊢
      rw [hdebits]
      exact ⟨hbefore.1, .inr rfl⟩
    · rw [hothers k hk]
      exact h.request k request hrequest
  · refine hothers k fun hk => ?_
    subst hk
    exact hcurrent.cas_ne_zero habsent

/-- The amount of the current request is sent. -/
lemma send (h : WithdrawDbOk fee st sends) (sends' : WithdrawFundsRequestKey → ℕ)
    (hcurrent : IsCurrent st x cas) (hstate : x.request.state = .processing)
    (hothers : ∀ k, k ≠ x.key → sends' k = sends k) (hone : sends' x.key ≤ 1) :
    WithdrawDbOk fee st sends' where
  absent k habsent := by
    rw [hothers k fun hk => hcurrent.cas_ne_zero (hk ▸ habsent)]
    exact h.absent k habsent
  request k request hrequest := by
    by_cases hk : k = x.key
    · subst hk
      obtain rfl := Option.some.inj (hcurrent.current.symm.trans hrequest)
      have hbefore := h.request x.key x.request hrequest
      unfold RequestOk at hbefore ⊢
      rw [hstate] at hbefore ⊢
      exact ⟨hone, hbefore.2⟩
    · rw [hothers k hk]
      exact h.request k request hrequest
  unlocked := h.unlocked
  accounts := h.accounts

end WithdrawDbOk

/-! ## What one operation does -/

namespace RunOk

lemma next (h : RunOk fee st s) :
    WithdrawWorld.Inv fee ⟨st, s.processNextWithdrawalRequestOrEmitFinishedIfNoMore⟩ := by
  unfold processNextWithdrawalRequestOrEmitFinishedIfNoMore
  cases hrest : s.rest with
  | cons key rest => exact ⟨⟨h.mode, h.db, h.notResumed⟩, trivial⟩
  | nil =>
      have hmode := h.mode
      simp only [hmode]
      exact ⟨⟨hmode, h.db, h.notResumed⟩, trivial⟩

lemma finish (h : RunOk fee st s) (success : Bool) :
    WithdrawWorld.Inv fee ⟨st, s.finish success⟩ :=
  ⟨⟨h.mode, h.db, h.notResumed⟩, trivial⟩

lemma afterWithdrawalRequest (h : RunOk fee st s) (key : WithdrawFundsRequestKey) :
    WithdrawWorld.Inv fee
      ⟨st, s.afterWithdrawalRequest key (st (.withdrawFundsRequest key)).get⟩ := by
  cases hget : (st (.withdrawFundsRequest key)).get with
  | none => exact h.finish false
  | some found =>
      obtain ⟨cas, request⟩ := found
      obtain ⟨rfl, hcurrent⟩ := Cell.get_eq_some.1 hget
      show WithdrawWorld.Inv fee ⟨st, if _ then _ else if _ then _ else _⟩
      by_cases hdone : request.state.isDone = true
      · rw [if_pos hdone]
        exact h.next
      · rw [if_neg hdone]
        by_cases hfound : key.username ∈ s.usersWithProfilesFoundLocked
        · rw [if_pos hfound]
          exact h.next
        · rw [if_neg hfound]
          exact ⟨⟨h.mode, h.db, h.notResumed⟩, ⟨rfl, hcurrent⟩, Bool.eq_false_iff.2 hdone⟩

/-- The profile of an unprocessed request was read. -/
lemma afterUserProfile (h : RunOk fee st s) (hcurrent : IsCurrent st x cas)
    (hdone : x.request.state.isDone = false)
    (hprocessed : ∀ found, (st (.userAccount x.user)).get = some found →
      x.request.state ≠ .processedButProfileNeedsDeductingAndUnlocking) :
    WithdrawWorld.Inv fee
      ⟨st, s.afterUserProfile fee x cas (st (.userAccount x.user)).get⟩ := by
  cases hget : (st (.userAccount x.user)).get with
  | none => exact h.finish false
  | some found =>
      have hprocessed := hprocessed found hget
      obtain ⟨userProfileCas, userProfile⟩ := found
      obtain ⟨rfl, hprofile⟩ := Cell.get_eq_some.1 hget
      unfold WithdrawRequestProcessor.afterUserProfile
      by_cases hprocessing : x.request.state = .processing ∧
          userProfile.lockedWithdrawingFunds ≠ some x.key
      · simp only [if_pos hprocessing]
        exact h.finish false
      · simp only [if_neg hprocessing, if_neg hprocessed]
        cases hlocked : userProfile.profileIsLocked with
        | true =>
            rw [if_pos rfl]
            exact RunOk.next ⟨h.mode, h.db, h.notResumed⟩
        | false =>
            rw [if_neg Bool.false_ne_true, processUnprocessed_execute h.mode]
            have hunprocessed : x.request.state = .unprocessed := by
              have hnotLocked := (UserAccount.profileIsLocked_eq_false.1 hlocked).2.1
              have hnot : x.request.state ≠ .processing := by
                intro hstate
                refine hprocessing ⟨hstate, ?_⟩
                rw [hnotLocked]
                exact nofun
              revert hdone hprocessed hnot
              cases x.request.state <;> simp [WithdrawFundsRequestState.isDone]
            split_ifs
            · exact ⟨⟨h.mode, h.db, h.notResumed⟩, hcurrent, hunprocessed⟩
            · exact ⟨⟨h.mode, h.db, h.notResumed⟩, hcurrent, hunprocessed, hprofile, hlocked⟩

/-- **The lock is accepted.** -/
lemma locked (h : RunOk fee st s) (hcurrent : IsCurrent st x cas)
    (hunprocessed : x.request.state = .unprocessed)
    (hprofile : (st (.userAccount x.user)).current = some userProfile) :
    WithdrawWorld.Inv fee
      ⟨st.push (.userAccount x.user) (.lockWithdrawing x.key) (userProfile.lockedToWithdraw x.key),
        s.afterLock x cas (userProfile.lockedToWithdraw x.key)
          (.stored ((st (.userAccount x.user)).cas + 1))⟩ := by
  have hdb : WithdrawDbOk fee (st.push (.userAccount x.user) (.lockWithdrawing x.key)
      (userProfile.lockedToWithdraw x.key)) s.sends := by
    refine h.db.push_undebitted (fun k => rfl) (fun before hbefore => ?_)
      fun k request hlock hrequest hdone => ?_
    · obtain rfl := Option.some.inj (hprofile.symm.trans hbefore)
      exact rfl
    · obtain rfl := Option.some.inj hlock
      obtain rfl := Option.some.inj (hcurrent.current.symm.trans hrequest)
      exact absurd (hunprocessed.symm.trans hdone) nofun
  refine ⟨⟨h.mode, hdb, h.notResumed⟩, hcurrent.push_account _ _ _, hunprocessed, ?_⟩
  refine ⟨?_, ?_, rfl⟩
  · show _ = (Store.push st _ _ _ (.userAccount x.user)).cas
    rw [Store.push_self, Cell.cas_push]
    rfl
  · show (Store.push st _ _ _ (.userAccount x.user)).current = _
    rw [Store.push_self, Cell.current_push]

/-- What was sent and debitted for the current request. -/
lemma requestOk (h : RunOk fee st s) (hcurrent : IsCurrent st x cas) :
    RequestOk fee x.request (s.sends x.key) (withdrawalDebits st x.key) :=
  h.db.request x.key x.request hcurrent.current

lemma insufficientFunds (h : RunOk fee st s) (hcurrent : IsCurrent st x cas)
    (hunprocessed : x.request.state = .unprocessed) (reply : ℕ) :
    WithdrawWorld.Inv fee
      ⟨st.push (.withdrawFundsRequest x.key) .other (x.inState .insufficientFunds_Done).request,
        s.afterInsufficientFunds (.stored reply)⟩ := by
  have hrequest := h.requestOk hcurrent
  unfold RequestOk at hrequest
  rw [hunprocessed] at hrequest
  exact RunOk.next ⟨h.mode, h.db.push_request _ _ _ hrequest nofun, h.notResumed⟩

lemma processing (h : RunOk fee st s) (hcurrent : IsCurrent st x cas)
    (hunprocessed : x.request.state = .unprocessed)
    (hholds : HoldsLock st x s.currentUserProfileInLockedWithdrawingStateCas userProfile) :
    WithdrawWorld.Inv fee
      ⟨st.push (.withdrawFundsRequest x.key) .other (x.inState .processing).request,
        s.afterProcessing (x.inState .processing) userProfile (.stored (cas + 1))⟩ := by
  have hrequest := h.requestOk hcurrent
  unfold RequestOk at hrequest
  rw [hunprocessed] at hrequest
  have hdb := h.db.push_request x.key .other (x.inState .processing).request
    ⟨hrequest.1.le.trans (Nat.zero_le 1), hrequest.2⟩ nofun
  exact ⟨⟨h.mode, hdb, h.notResumed⟩, hcurrent.push _ _, rfl, hholds.push_request _ _ _ _,
    hrequest.1⟩

/-- **The amount is sent**, for the first time. -/
lemma sent (h : RunOk fee st s) (hcurrent : IsCurrent st x cas)
    (hprocessing : x.request.state = .processing)
    (hholds : HoldsLock st x s.currentUserProfileInLockedWithdrawingStateCas userProfile)
    (hnone : s.sends x.key = 0) :
    WithdrawWorld.Inv fee ⟨st, s.afterSendToAddress x cas userProfile⟩ := by
  have hsends := sends_afterSendToAddress s x cas userProfile
  have hdb := h.db.send (s.afterSendToAddress x cas userProfile).sends hcurrent hprocessing
    (fun k hne => ?_) ?_
  · refine ⟨⟨h.mode, hdb, fun k lockedTo atDeduct hmem => ?_⟩, hcurrent, hprocessing, hholds⟩
    exact (List.mem_cons.1 hmem).elim nofun (h.notResumed k lockedTo atDeduct)
  · rw [hsends, if_neg hne.symm]
    rfl
  · rw [hsends, if_pos rfl, hnone]

lemma processed (h : RunOk fee st s) (hcurrent : IsCurrent st x cas)
    (hprocessing : x.request.state = .processing)
    (hholds : HoldsLock st x s.currentUserProfileInLockedWithdrawingStateCas userProfile) :
    WithdrawWorld.Inv fee
      ⟨st.push (.withdrawFundsRequest x.key) .other
          (x.inState .processedButProfileNeedsDeductingAndUnlocking).request,
        s.afterProcessedButProfileNeedsDeductingAndUnlocking fee
          (x.inState .processedButProfileNeedsDeductingAndUnlocking) userProfile
          (.stored (cas + 1))⟩ := by
  have hrequest := h.requestOk hcurrent
  unfold RequestOk at hrequest
  rw [hprocessing] at hrequest
  have hdb := h.db.push_request x.key .other
    (x.inState .processedButProfileNeedsDeductingAndUnlocking).request
    ⟨hrequest.1, .inl hrequest.2⟩ nofun
  show WithdrawWorld.Inv fee ⟨_, s.continueAtDeduct fee
    (x.inState .processedButProfileNeedsDeductingAndUnlocking) (cas + 1) userProfile⟩
  rw [continueAtDeduct_execute h.mode]
  refine ⟨⟨h.mode, hdb, h.notResumed⟩, hcurrent.push _ _, rfl, hholds.push_request _ _ _ _, ?_⟩
  exact (withdrawalDebits_push_request st x.key _ _ x.key).trans hrequest.2

/-- **The profile is debitted**, for the first time. -/
lemma debitted (h : RunOk fee st s) (hcurrent : IsCurrent st x cas)
    (hprocessed : x.request.state = .processedButProfileNeedsDeductingAndUnlocking)
    (hholds : HoldsLock st x s.currentUserProfileInLockedWithdrawingStateCas userProfile)
    (hnone : withdrawalDebits st x.key = []) (reply : ℕ) :
    WithdrawWorld.Inv fee
      ⟨st.push (.userAccount x.user) (.debit x.key (totalAmount fee x.request))
          (userProfile.withdrawnAndUnlocked (totalAmount fee x.request)),
        s.afterDeduct x cas (.stored reply)⟩ := by
  obtain ⟨hdb, hdebits⟩ := h.db.push_debit hcurrent hprocessed hholds hnone
  refine ⟨⟨h.mode, hdb, h.notResumed⟩, hcurrent.push_account _ _ _, hprocessed, hdebits,
    fun profile hprofile => ?_⟩
  change profile ∈ (Store.push st _ _ _ (.userAccount x.user)).current at hprofile
  rw [Store.push_self, Cell.current_push] at hprofile
  obtain rfl := Option.some.inj hprofile
  exact nofun

lemma done (h : RunOk fee st s) (hcurrent : IsCurrent st x cas)
    (hprocessed : x.request.state = .processedButProfileNeedsDeductingAndUnlocking)
    (hdebits : withdrawalDebits st x.key = [totalAmount fee x.request])
    (hunlocked : ∀ profile ∈ (st (.userAccount x.user)).current,
      profile.lockedWithdrawingFunds ≠ some x.key) (reply : ℕ) :
    WithdrawWorld.Inv fee
      ⟨st.push (.withdrawFundsRequest x.key) .other (x.inState .processed_Done).request,
        s.afterProcessedAndDone (.stored reply)⟩ := by
  have hrequest := h.requestOk hcurrent
  unfold RequestOk at hrequest
  rw [hprocessed] at hrequest
  have hdb := h.db.push_request x.key .other (x.inState .processed_Done).request
    ⟨hrequest.1, hdebits⟩ fun _ => hunlocked
  exact RunOk.next ⟨h.mode, hdb, h.notResumed⟩

end RunOk

namespace WithdrawWorld

variable {w : WithdrawWorld}

/-- **One operation keeps the invariant**, unless it takes up an intermediate request. -/
lemma Inv.operate (h : w.Inv fee) (hok : ¬ w.TakesUp) : (w.operate fee).Inv fee := by
  have hrun := h.run
  have hphase := h.phase
  unfold WithdrawWorld.operate act
  cases hcase : w.processor.phase with
  | getWithdrawalRequest key => exact hrun.afterWithdrawalRequest key
  | getUserProfile x cas =>
      rw [hcase] at hphase
      obtain ⟨hcurrent, hdone⟩ := hphase
      refine hrun.afterUserProfile hcurrent hdone fun found hget hprocessed => hok ?_
      exact ⟨x, cas, found.1, found.2, hcase, hget, hprocessed⟩
  | setInsufficientFunds x cas =>
      rw [hcase] at hphase
      obtain ⟨hcurrent, hunprocessed⟩ := hphase
      simp only [perform_set_current hcurrent.cas]
      exact hrun.insufficientFunds hcurrent hunprocessed (cas + 1)
  | lockUserProfile x cas userProfileCas userProfile =>
      rw [hcase] at hphase
      obtain ⟨hcurrent, hunprocessed, hprofile, -⟩ := hphase
      refine perform_set (P := fun r => Inv fee ⟨r.1, r.2⟩) (Cell.docAt_bounds hprofile).1
        (fun hcas => ?_) fun reply hreply => ?_
      · subst hcas
        exact hrun.locked hcurrent hunprocessed hprofile
      · cases reply with
        | stored e => exact absurd rfl (hreply e)
        | keyExists => exact RunOk.next ⟨hrun.mode, hrun.db, hrun.notResumed⟩
        | keyMissing => exact hrun.finish false
  | setProcessing x cas userProfile =>
      rw [hcase] at hphase
      obtain ⟨hcurrent, hunprocessed, hholds⟩ := hphase
      simp only [perform_set_current hcurrent.cas]
      exact hrun.processing hcurrent hunprocessed hholds
  | sendToAddress x cas userProfile =>
      rw [hcase] at hphase
      obtain ⟨hcurrent, hprocessing, hholds, hnone⟩ := hphase
      exact hrun.sent hcurrent hprocessing hholds hnone
  | setProcessedButProfileNeedsDeductingAndUnlocking x cas userProfile =>
      rw [hcase] at hphase
      obtain ⟨hcurrent, hprocessing, hholds⟩ := hphase
      simp only [perform_set_current hcurrent.cas]
      exact hrun.processed hcurrent hprocessing hholds
  | deductAmountAndUnlock x cas userProfile =>
      rw [hcase] at hphase
      obtain ⟨hcurrent, hprocessed, hholds, hnone⟩ := hphase
      simp only [perform_set_current hholds.cas]
      exact hrun.debitted hcurrent hprocessed hholds hnone _
  | setProcessedAndDone x cas =>
      rw [hcase] at hphase
      obtain ⟨hcurrent, hprocessed, hdebits, hunlocked⟩ := hphase
      simp only [perform_set_current hcurrent.cas]
      exact hrun.done hcurrent hprocessed hdebits hunlocked _
  | calculationIterationComplete => exact h
  | finished success => exact h

end WithdrawWorld

/-! ## What others do -/

/-- What does a run no harm: requests that are there stay as they are, and so do profiles that are
locked for a withdrawal, nothing is debitted and nothing is locked. -/
structure Undisturbed (st st' : WithdrawDb) : Prop where
  le : st ≤ st'
  request : ∀ k, (st (.withdrawFundsRequest k)).cas ≠ 0 →
    st' (.withdrawFundsRequest k) = st (.withdrawFundsRequest k)
  locked : ∀ u profile, (st (.userAccount u)).current = some profile →
    profile.lockedWithdrawingFunds ≠ none → st' (.userAccount u) = st (.userAccount u)
  notLocked : ∀ u profile, (st' (.userAccount u)).current = some profile →
    profile.lockedWithdrawingFunds ≠ none → (st (.userAccount u)).current = some profile
  debits : ∀ k, withdrawalDebits st' k = withdrawalDebits st k

lemma OthersMayWrite.undisturbed {u : Username} {profile : UserAccount}
    (h : OthersMayWrite st u profile) :
    Undisturbed st (st.push (.userAccount u) .other profile) := by
  refine ⟨Store.le_push _ _ _ _, fun k _ => ?_, fun u' before hbefore hlock => ?_,
    fun u' after hafter hlock => ?_, fun k => ?_⟩
  · exact Store.push_of_ne st (WithdrawKey.request_ne_account k u) _ _
  · refine Store.push_of_ne st (fun heq => ?_) _ _
    obtain rfl := WithdrawKey.userAccount.inj heq
    exact hlock (h.2 before hbefore)
  · by_cases hu : u' = u
    · subst hu
      rw [Store.push_self, Cell.current_push] at hafter
      obtain rfl := Option.some.inj hafter
      exact absurd h.1 hlock
    · rwa [Store.push_of_ne st fun heq => hu (WithdrawKey.userAccount.inj heq)] at hafter
  · exact withdrawalDebits_push_of_none rfl st u profile

lemma undisturbed_newRequest {k : WithdrawFundsRequestKey}
    (habsent : (st (.withdrawFundsRequest k)).cas = 0) (request : WithdrawFundsRequest) :
    Undisturbed st (st.push (.withdrawFundsRequest k) .other request) := by
  have haccount : ∀ u, st.push (.withdrawFundsRequest k) .other request (.userAccount u) =
      st (.userAccount u) := fun u =>
    Store.push_of_ne st (WithdrawKey.request_ne_account k u).symm _ _
  refine ⟨Store.le_push _ _ _ _, fun k' hcas => ?_, fun u _ _ _ => haccount u,
    fun u profile hprofile _ => ?_, fun k' => withdrawalDebits_push_request st k _ request k'⟩
  · refine Store.push_of_ne st (fun heq => hcas ?_) _ _
    rw [WithdrawKey.withdrawFundsRequest.inj heq]
    exact habsent
  · rwa [haccount] at hprofile

namespace Undisturbed

variable {st' : WithdrawDb} {lockCas : ℕ}

lemma isCurrent (h : Undisturbed st st') (hcurrent : IsCurrent st x cas) :
    IsCurrent st' x cas := by
  have hsame := h.request x.key hcurrent.cas_ne_zero
  refine ⟨?_, ?_⟩
  · rw [hsame]
    exact hcurrent.cas
  · rw [hsame]
    exact hcurrent.current

lemma holdsLock (h : Undisturbed st st') (hholds : HoldsLock st x lockCas userProfile) :
    HoldsLock st' x lockCas userProfile := by
  have hsame := h.locked x.user userProfile hholds.current (by rw [hholds.locked]; exact nofun)
  refine ⟨?_, ?_, hholds.locked⟩
  · rw [hsame]
    exact hholds.cas
  · rw [hsame]
    exact hholds.current

lemma phaseOk (h : Undisturbed st st') {phase : ProcessorPhase}
    (hphase : PhaseOk fee st sends lockCas phase) : PhaseOk fee st' sends lockCas phase := by
  cases phase with
  | getWithdrawalRequest key => exact trivial
  | getUserProfile x cas => exact ⟨h.isCurrent hphase.1, hphase.2⟩
  | setInsufficientFunds x cas => exact ⟨h.isCurrent hphase.1, hphase.2⟩
  | lockUserProfile x cas userProfileCas userProfile =>
      obtain ⟨hcurrent, hstate, hprofile, hlocked⟩ := hphase
      exact ⟨h.isCurrent hcurrent, hstate, Cell.docAt_mono (h.le _) hprofile, hlocked⟩
  | setProcessing x cas userProfile =>
      exact ⟨h.isCurrent hphase.1, hphase.2.1, h.holdsLock hphase.2.2⟩
  | sendToAddress x cas userProfile =>
      exact ⟨h.isCurrent hphase.1, hphase.2.1, h.holdsLock hphase.2.2.1, hphase.2.2.2⟩
  | setProcessedButProfileNeedsDeductingAndUnlocking x cas userProfile =>
      exact ⟨h.isCurrent hphase.1, hphase.2.1, h.holdsLock hphase.2.2⟩
  | deductAmountAndUnlock x cas userProfile =>
      exact ⟨h.isCurrent hphase.1, hphase.2.1, h.holdsLock hphase.2.2.1,
        (h.debits x.key).trans hphase.2.2.2⟩
  | setProcessedAndDone x cas =>
      obtain ⟨hcurrent, hstate, hdebits, hunlocked⟩ := hphase
      refine ⟨h.isCurrent hcurrent, hstate, (h.debits x.key).trans hdebits,
        fun profile hprofile hlock => ?_⟩
      exact hunlocked profile (h.notLocked x.user profile hprofile (by rw [hlock]; exact nofun))
        hlock
  | calculationIterationComplete => exact trivial
  | finished success => exact trivial

end Undisturbed

/-! ## Every run -/

namespace WithdrawWorld

variable {w : WithdrawWorld}

lemma inv_empty (fee : ℤ → ℤ) : Inv fee empty := by
  refine ⟨⟨rfl, ⟨fun k _ => ⟨rfl, rfl⟩, fun k request hcurrent => ?_,
    fun k request profile hcurrent => ?_, fun u c d v hd => ?_⟩, fun _ _ _ => List.not_mem_nil⟩,
    trivial⟩
  · exact absurd hcurrent nofun
  · exact absurd hcurrent nofun
  · exact absurd hd (by simp [empty])

/-- **The step lemma.** -/
lemma Inv.step (h : w.Inv fee) {event : WithdrawalEvent} (hok : w.LeavesProcessed event) :
    (w.step fee event).Inv fee := by
  have hrun := h.run
  cases event with
  | operation => exact h.operate hok
  | restart viewQueryResults usersWithProfilesFoundLocked uninitializedCas =>
      exact RunOk.next ⟨rfl, hrun.db, hrun.notResumed⟩
  | otherWriter username profile =>
      show Inv fee (if OthersMayWrite w.store username profile then _ else w)
      by_cases hmay : OthersMayWrite w.store username profile
      · rw [if_pos hmay]
        have hdb : WithdrawDbOk fee (w.store.push (.userAccount username) .other profile)
            w.processor.sends :=
          hrun.db.push_undebitted (fun _ => rfl) (fun _ _ => trivial)
            fun k request hlock => absurd (hmay.1.symm.trans hlock) nofun
        exact ⟨⟨hrun.mode, hdb, hrun.notResumed⟩, hmay.undisturbed.phaseOk h.phase⟩
      · rw [if_neg hmay]
        exact h
  | newRequest k amount bitcoinKey =>
      show Inv fee (if (w.store (.withdrawFundsRequest k)).cas = 0 then _ else w)
      by_cases habsent : (w.store (.withdrawFundsRequest k)).cas = 0
      · rw [if_pos habsent]
        have hdb := hrun.db.push_request k .other ⟨amount, bitcoinKey, .unprocessed⟩
          (hrun.db.absent k habsent) nofun
        exact ⟨⟨hrun.mode, hdb, hrun.notResumed⟩,
          (undisturbed_newRequest habsent _).phaseOk h.phase⟩
      · rw [if_neg habsent]
        exact h

lemma Inv.withdrawalsOk (h : w.Inv fee) : WithdrawalsOk fee w where
  sentOnce k := by
    by_cases habsent : (w.store (.withdrawFundsRequest k)).cas = 0
    · rw [(h.run.db.absent k habsent).1]
      exact Nat.zero_le 1
    · obtain ⟨request, hcurrent⟩ := Cell.exists_docAt (Nat.pos_of_ne_zero habsent) (Nat.le_refl _)
      have hrequest := h.run.db.request k request hcurrent
      unfold RequestOk at hrequest
      revert hrequest
      cases request.state <;> simp +contextual
  debitedOnce k request hcurrent hdone := by
    have hrequest := h.run.db.request k request hcurrent
    unfold RequestOk at hrequest
    rw [hdone] at hrequest
    exact hrequest.2
  unlocked := h.run.db.unlocked
  accounts := h.run.db.accounts
  resumed k lockedTo atDeductAndUnlock hmem :=
    absurd hmem (h.run.notResumed k lockedTo atDeductAndUnlock)

/-- **An intermediate request is always resumed at the wrong place.** -/
lemma TakesUp.not_withdrawalsOk (h : w.TakesUp) (hmode : w.processor.mode = .ExecuteMode) :
    ¬ WithdrawalsOk fee (w.operate fee) := by
  obtain ⟨x, cas, userProfileCas, userProfile, hphase, hget, hstate⟩ := h
  have hprocessing : ¬ (x.request.state = .processing ∧
      userProfile.lockedWithdrawingFunds ≠ some x.key) := by
    rintro ⟨hprocessing, -⟩
    exact absurd (hstate.symm.trans hprocessing) nofun
  have hoperate : (w.operate fee).processor =
      w.processor.continueFromProcessedButProfileNeedsDeductingAndUnlocking fee x cas
        userProfile := by
    unfold operate act
    simp only [hphase]
    show w.processor.afterUserProfile fee x cas (w.store (.userAccount x.user)).get = _
    rw [hget]
    exact (if_neg hprocessing).trans (if_pos hstate)
  intro hok
  have hresumed := hok.resumed x.key userProfile.lockedWithdrawingFunds
  rw [hoperate] at hresumed
  unfold continueFromProcessedButProfileNeedsDeductingAndUnlocking at hresumed
  by_cases hlock : userProfile.lockedWithdrawingFunds = some x.key
  · rw [if_neg (not_not.2 hlock)] at hresumed
    have hwrong := hresumed false List.mem_cons_self
    exact absurd (hwrong.2 hlock) Bool.false_ne_true
  · rw [if_pos hlock] at hresumed
    rw [continueAtDeduct_execute (by exact hmode)] at hresumed
    exact hlock ((hresumed true List.mem_cons_self).1 rfl)

end WithdrawWorld

/-- **Withdrawals survive crashes if and only if** no run takes up a request in state
`processedButProfileNeedsDeductingAndUnlocking`.

The fee may be any function of the amount.  That the condition is necessary is seen at the run that
leaves it: the comparison in the recovery is the wrong way round, so either the debit is made twice
or it is not made at all, and both show in the database. -/
theorem withdrawalsOk_iff (fee : ℤ → ℤ) (events : List WithdrawalEvent) :
    Machine.HoldsThroughout (WithdrawWorld.step fee) (WithdrawalsOk fee) WithdrawWorld.empty
        events ↔
      Machine.StaysWithin (WithdrawWorld.step fee) WithdrawWorld.LeavesProcessed
        WithdrawWorld.empty events := by
  refine Machine.holdsThroughout_iff_staysWithin (I := WithdrawWorld.Inv fee) (fun _ => True)
    (fun w event _ hinv _ hok => hinv.step hok) (fun w event _ hinv _ => ⟨fun hholds => ?_,
    fun hok => (hinv.step hok).withdrawalsOk⟩) (fun _ _ => trivial) (WithdrawWorld.inv_empty fee)
    (WithdrawWorld.inv_empty fee).withdrawalsOk
  cases event with
  | operation => exact fun htakes => htakes.not_withdrawalsOk hinv.run.mode hholds
  | restart => exact trivial
  | otherWriter => exact trivial
  | newRequest => exact trivial

/-- A run that stops after the money was sent and the state was set, the profile still being locked,
and a run that takes the request up. -/
def stoppedBeforeDebit : List WithdrawalEvent :=
  [.otherWriter "alice" { balanceInSatoshis := 5000000 },
   .newRequest ⟨"alice", 0⟩ 3000000 "1BoatSLRHtKNngkdXEeobR76b53LETtpyT",
   .restart [⟨"alice", 0⟩] [] 0,
   .operation, .operation, .operation, .operation, .operation, .operation,
   .restart [⟨"alice", 0⟩] [] 0,
   .operation, .operation, .operation]

/-- The request is done, and nothing was debitted. -/
theorem not_withdrawalsOk_stoppedBeforeDebit :
    ¬ ∀ fee events, Machine.HoldsThroughout (WithdrawWorld.step fee) (WithdrawalsOk fee)
      WithdrawWorld.empty events := by
  intro h
  have hend := (h (fun _ => 45000) stoppedBeforeDebit).run
  set w := Machine.run (WithdrawWorld.step fun _ => 45000) WithdrawWorld.empty stoppedBeforeDebit
  have hcurrent : (w.store (.withdrawFundsRequest ⟨"alice", 0⟩)).current =
      some ⟨3000000, "1BoatSLRHtKNngkdXEeobR76b53LETtpyT", .processed_Done⟩ := by
    decide +kernel
  have hdebits : withdrawalDebits w.store ⟨"alice", 0⟩ = [] := by decide +kernel
  exact absurd ((hend.debitedOnce _ _ hcurrent rfl).symm.trans hdebits) nofun

end Autobackup.Abc2
