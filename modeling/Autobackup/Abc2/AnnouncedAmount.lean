import Autobackup.Abc2.CalculatePass
import Mathlib.Algebra.BigOperators.Group.List.Basic

/-!
# The announced amount is the amount paid

The calculate pass adds up what the execute pass is going to pay.  The one debits a hash of balances
in memory, the other the profiles in the database, and both leave out a user whose profile is locked
and an amount that the balance does not cover.  `paidOut` is what both of them amount to: one walk
over the requests with a balance for every user.  Of a list of unprocessed requests the calculate
pass counts `paidOut` (`Awaiting.calculates`), and the execute pass sends it (`Awaiting.executes`).

Both passes take the requests in the order of the view, so the walk is the same walk, and the proof
is an induction over the rows that are left.  It is about a pair of passes without anything between
them: what other programs do to the profiles meanwhile is outside of what was announced.  The fee is
any function of the amount, as nothing here depends on how it is rounded.
-/

namespace Autobackup.Abc2

open WithdrawRequestProcessor

/-- The world after some operations of the execute pass that follows.  It begins with the database
and the members that the calculate pass has left. -/
def executePass (fee : ℤ → ℤ) (w : WithdrawWorld) (n : ℕ) : WithdrawWorld :=
  (WithdrawWorld.operate fee)^[n] ⟨w.store, w.processor.proceedOntoExecutionIteration⟩

/-- The requests are unprocessed, each one is in the list only once, and their users have a
profile. -/
structure UnprocessedRequests (db : WithdrawDb) (viewQueryResults : List WithdrawFundsRequestKey) :
    Prop where
  nodup : viewQueryResults.Nodup
  request : ∀ k ∈ viewQueryResults, ∃ request,
    (db (.withdrawFundsRequest k)).current = some request ∧ request.state = .unprocessed
  userProfile : ∀ k ∈ viewQueryResults, ∃ userProfile,
    (db (.userAccount k.username)).current = some userProfile

/-! ## What is paid out -/

variable {fee : ℤ → ℤ} {locked : Username → Bool}

/-- One walk over the requests: a request is paid unless the profile is locked or the balance does
not cover it. -/
def paidOut (fee : ℤ → ℤ) (locked : Username → Bool) :
    (Username → ℤ) → List WithdrawRow → List WithdrawRow
  | _, [] => []
  | balances, x :: rest =>
      if locked x.user = true ∨ balances x.user < totalAmount fee x.request then
        paidOut fee locked balances rest
      else
        x :: paidOut fee locked
          (Function.update balances x.user (balances x.user - totalAmount fee x.request)) rest

lemma paidOut_skip {balances : Username → ℤ} {x : WithdrawRow} {rest : List WithdrawRow}
    (h : locked x.user = true ∨ balances x.user < totalAmount fee x.request) :
    paidOut fee locked balances (x :: rest) = paidOut fee locked balances rest :=
  if_pos h

lemma paidOut_pay {balances : Username → ℤ} {x : WithdrawRow} {rest : List WithdrawRow}
    (hlocked : locked x.user = false) (h : totalAmount fee x.request ≤ balances x.user) :
    paidOut fee locked balances (x :: rest) =
      x :: paidOut fee locked
        (Function.update balances x.user (balances x.user - totalAmount fee x.request)) rest := by
  refine if_neg ?_
  rintro (hlocked' | hlow)
  · exact Bool.noConfusion (hlocked.symm.trans hlocked')
  · exact absurd h (not_le.2 hlow)

/-! ## Operations one after the other -/

/-- The second world comes some operations after the first. -/
def RunsTo (fee : ℤ → ℤ) (w w' : WithdrawWorld) : Prop :=
  ∃ n, (WithdrawWorld.operate fee)^[n] w = w'

lemma RunsTo.refl (w : WithdrawWorld) : RunsTo fee w w := ⟨0, rfl⟩

lemma RunsTo.trans {w w' w'' : WithdrawWorld} (h : RunsTo fee w w') (h' : RunsTo fee w' w'') :
    RunsTo fee w w'' := by
  obtain ⟨n, rfl⟩ := h
  obtain ⟨m, rfl⟩ := h'
  exact ⟨m + n, Function.iterate_add_apply _ m n w⟩

/-- A read. -/
lemma RunsTo.get {st : WithdrawDb} {s : WithdrawRequestProcessor} {k : WithdrawKey}
    {resume : Option (ℕ × WithdrawDoc k) → WithdrawRequestProcessor} {d : WithdrawDoc k}
    (hact : s.act fee = .get k resume) (hd : (st k).current = some d) :
    RunsTo fee ⟨st, s⟩ ⟨st, resume (some ((st k).cas, d))⟩ := by
  have hget : (st k).get = some ((st k).cas, d) := Cell.get_eq_some.2 ⟨rfl, hd⟩
  refine ⟨1, ?_⟩
  show (⟨(perform st (s.act fee)).1, (perform st (s.act fee)).2⟩ : WithdrawWorld) = _
  rw [hact]
  show (⟨st, resume (st k).get⟩ : WithdrawWorld) = _
  rw [hget]

/-- A write with the CAS of the current version. -/
lemma RunsTo.set (st : WithdrawDb) (s : WithdrawRequestProcessor) {k : WithdrawKey}
    {note : WithdrawNote} {d : WithdrawDoc k} {cas : ℕ} (resume : Reply → WithdrawRequestProcessor)
    (hact : s.act fee = .set k note d cas resume) (hcas : cas = (st k).cas) :
    RunsTo fee ⟨st, s⟩ ⟨st.push k note d, resume (.stored (cas + 1))⟩ := by
  refine ⟨1, ?_⟩
  show (⟨(perform st (s.act fee)).1, (perform st (s.act fee)).2⟩ : WithdrawWorld) = _
  rw [hact, perform_set_current hcas]

/-- A step that the database has no part in. -/
lemma RunsTo.pause {st : WithdrawDb} {s next : WithdrawRequestProcessor}
    (hact : s.act fee = .pause next) : RunsTo fee ⟨st, s⟩ ⟨st, next⟩ := by
  refine ⟨1, ?_⟩
  show (⟨(perform st (s.act fee)).1, (perform st (s.act fee)).2⟩ : WithdrawWorld) = _
  rw [hact]
  rfl

/-! ## Up to the profile -/

/-- The requests that are still to come, where `balance` is what the pass takes for the balance of
a user with this profile. -/
structure Awaiting (locked : Username → Bool) (st : WithdrawDb)
    (balance : Username → UserAccount → ℤ) (balances : Username → ℤ) (rest : List WithdrawRow) :
    Prop where
  nodup : (rest.map WithdrawRow.key).Nodup
  request : ∀ x ∈ rest, (st (.withdrawFundsRequest x.key)).current = some x.request
  unprocessed : ∀ x ∈ rest, x.request.state = .unprocessed
  userProfile : ∀ x ∈ rest, ∃ userProfile, (st (.userAccount x.user)).current = some userProfile ∧
    userProfile.profileIsLocked = locked x.user ∧
    (locked x.user = false → balance x.user userProfile = balances x.user)

/-- What the calculate pass takes for the balance. -/
def rollingBalance (s : WithdrawRequestProcessor) (username : Username)
    (userProfile : UserAccount) : ℤ :=
  (s.userBalancesDuringCalculationMode username).getD userProfile.balanceInSatoshis

/-- The request is counted, and the user is left with this balance. -/
def WithdrawRequestProcessor.count (s : WithdrawRequestProcessor) (x : WithdrawRow)
    (rollingUserBalance : ℤ) : WithdrawRequestProcessor :=
  { s with
    userBalancesDuringCalculationMode :=
      Function.update s.userBalancesDuringCalculationMode x.user (some rollingUserBalance)
    runningTotalOfAllWithdrawalRequests := s.runningTotalOfAllWithdrawalRequests + x.amount
    counted := s.counted ++ [x.key] }

/-- The run has gone on from `s` to `s'`, and nothing was paid or counted. -/
structure GoneOn (s s' : WithdrawRequestProcessor) : Prop where
  mode : s'.mode = s.mode
  viewQueryResults : s'.viewQueryResults = s.viewQueryResults
  runningTotal :
    s'.runningTotalOfAllWithdrawalRequests = s.runningTotalOfAllWithdrawalRequests
  counted : s'.counted = s.counted
  userBalances : s'.userBalancesDuringCalculationMode = s.userBalancesDuringCalculationMode
  happened : s'.happened = s.happened

lemma GoneOn.sent {s s' : WithdrawRequestProcessor} (h : GoneOn s s') : s'.sent = s.sent := by
  unfold WithdrawRequestProcessor.sent
  rw [h.happened]

/-- Only users with a locked profile were found locked. -/
def FoundLocked (locked : Username → Bool) (s : WithdrawRequestProcessor) : Prop :=
  ∀ u ∈ s.usersWithProfilesFoundLocked, locked u = true

namespace Awaiting

variable {st : WithdrawDb} {balance : Username → UserAccount → ℤ} {balances : Username → ℤ}
  {x : WithdrawRow} {rest : List WithdrawRow} {s : WithdrawRequestProcessor}

lemma tail (h : Awaiting locked st balance balances (x :: rest)) :
    Awaiting locked st balance balances rest where
  nodup := (List.nodup_cons.1 h.nodup).2
  request y hy := h.request y (List.mem_cons_of_mem x hy)
  unprocessed y hy := h.unprocessed y (List.mem_cons_of_mem x hy)
  userProfile y hy := h.userProfile y (List.mem_cons_of_mem x hy)

/-- **What both passes do with a request at first**: they go on to the next one if the profile is
locked, and look at the balance if it is not. -/
lemma reaches_userProfile (h : Awaiting locked st balance balances (x :: rest))
    (hrest : s.rest = (x :: rest).map WithdrawRow.key) (hfound : FoundLocked locked s) :
    (locked x.user = true ∧ ∃ s', s'.rest = rest.map WithdrawRow.key ∧ GoneOn s s' ∧
        FoundLocked locked s' ∧
        RunsTo fee ⟨st, s.processNextWithdrawalRequestOrEmitFinishedIfNoMore⟩
          ⟨st, s'.processNextWithdrawalRequestOrEmitFinishedIfNoMore⟩) ∨
      (locked x.user = false ∧ ∃ s' userProfile, s'.rest = rest.map WithdrawRow.key ∧
        GoneOn s s' ∧ FoundLocked locked s' ∧
        (st (.userAccount x.user)).current = some userProfile ∧
        userProfile.profileIsLocked = false ∧ balance x.user userProfile = balances x.user ∧
        RunsTo fee ⟨st, s.processNextWithdrawalRequestOrEmitFinishedIfNoMore⟩
          ⟨st, s'.processUnprocessed fee x (st (.withdrawFundsRequest x.key)).cas
            (st (.userAccount x.user)).cas userProfile⟩) := by
  set cas := (st (.withdrawFundsRequest x.key)).cas
  have hrequest := h.request x List.mem_cons_self
  have hstate := h.unprocessed x List.mem_cons_self
  obtain ⟨userProfile, hprofile, hlocked, hbalance⟩ := h.userProfile x List.mem_cons_self
  have hfirst : s.processNextWithdrawalRequestOrEmitFinishedIfNoMore =
      { s with rest := rest.map WithdrawRow.key, phase := .getWithdrawalRequest x.key } := by
    unfold processNextWithdrawalRequestOrEmitFinishedIfNoMore
    rw [hrest]
    rfl
  set s₁ : WithdrawRequestProcessor :=
    { s with rest := rest.map WithdrawRow.key, phase := .getWithdrawalRequest x.key }
  have hget : RunsTo fee ⟨st, s₁⟩ ⟨st, s₁.afterWithdrawalRequest x.key (some (cas, x.request))⟩ :=
    RunsTo.get rfl hrequest
  have hdone : ¬ x.request.state.isDone = true := by rw [hstate]; exact Bool.false_ne_true
  rw [hfirst]
  by_cases hmem : x.user ∈ s.usersWithProfilesFoundLocked
  · refine .inl ⟨hfound x.user hmem, s₁, rfl, ⟨rfl, rfl, rfl, rfl, rfl, rfl⟩, hfound, ?_⟩
    have hskip : s₁.afterWithdrawalRequest x.key (some (cas, x.request)) =
        s₁.processNextWithdrawalRequestOrEmitFinishedIfNoMore :=
      (if_neg hdone).trans (if_pos hmem)
    rwa [hskip] at hget
  · have hgo : s₁.afterWithdrawalRequest x.key (some (cas, x.request)) =
        { s₁ with phase := .getUserProfile x cas } :=
      (if_neg hdone).trans (if_neg hmem)
    rw [hgo] at hget
    set s₂ : WithdrawRequestProcessor := { s₁ with phase := .getUserProfile x cas }
    have hgets := hget.trans (RunsTo.get (s := s₂) rfl hprofile)
    have hprocessing : ¬ (x.request.state = .processing ∧
        userProfile.lockedWithdrawingFunds ≠ some x.key) := by
      rintro ⟨hprocessing, -⟩
      exact absurd (hstate.symm.trans hprocessing) nofun
    have hprocessed : ¬ x.request.state = .processedButProfileNeedsDeductingAndUnlocking := by
      intro hprocessed
      exact absurd (hstate.symm.trans hprocessed) nofun
    cases hlock : locked x.user with
    | true =>
        have hskip : s₂.afterUserProfile fee x cas
              (some ((st (.userAccount x.user)).cas, userProfile)) =
            { s₂ with
              usersWithProfilesFoundLocked := x.user :: s₂.usersWithProfilesFoundLocked
              }.processNextWithdrawalRequestOrEmitFinishedIfNoMore :=
          (if_neg hprocessing).trans
            ((if_neg hprocessed).trans (if_pos (hlocked.trans hlock)))
        rw [hskip] at hgets
        refine .inl ⟨rfl, _, ?_, ?_, ?_, hgets⟩
        · exact rfl
        · exact ⟨rfl, rfl, rfl, rfl, rfl, rfl⟩
        · intro u hu
          rcases List.mem_cons.1 hu with rfl | hu
          · exact hlock
          · exact hfound u hu
    | false =>
        have hunlocked : userProfile.profileIsLocked = false := hlocked.trans hlock
        have hgo : s₂.afterUserProfile fee x cas
              (some ((st (.userAccount x.user)).cas, userProfile)) =
            s₂.processUnprocessed fee x cas (st (.userAccount x.user)).cas userProfile := by
          refine (if_neg hprocessing).trans ((if_neg hprocessed).trans (if_neg ?_))
          rw [hunlocked]
          exact Bool.false_ne_true
        rw [hgo] at hgets
        exact .inr ⟨rfl, s₂, userProfile, rfl, ⟨rfl, rfl, rfl, rfl, rfl, rfl⟩, hfound, hprofile,
          hunlocked, hbalance hlock, hgets⟩

/-! ## The calculate pass -/

/-- The amount is debited from the rolling balance. -/
lemma calculate_pay (h : Awaiting locked st (rollingBalance s) balances (x :: rest))
    {s' : WithdrawRequestProcessor} (hgone : GoneOn s s') (total : ℤ) :
    Awaiting locked st (rollingBalance (s'.count x (balances x.user - total)))
      (Function.update balances x.user (balances x.user - total)) rest where
  nodup := h.tail.nodup
  request := h.tail.request
  unprocessed := h.tail.unprocessed
  userProfile y hy := by
    obtain ⟨userProfile, hprofile, hlocked, hbalance⟩ := h.tail.userProfile y hy
    refine ⟨userProfile, hprofile, hlocked, fun hunlocked => ?_⟩
    show (Function.update s'.userBalancesDuringCalculationMode x.user
      (some (balances x.user - total)) y.user).getD userProfile.balanceInSatoshis = _
    by_cases huser : y.user = x.user
    · rw [huser, Function.update_self, Function.update_self]
      rfl
    · rw [Function.update_of_ne huser, Function.update_of_ne huser, hgone.userBalances]
      exact hbalance hunlocked

/-- Nothing was debited. -/
lemma calculate_skip (h : Awaiting locked st (rollingBalance s) balances (x :: rest))
    {s' : WithdrawRequestProcessor} (hgone : GoneOn s s') :
    Awaiting locked st (rollingBalance s') balances rest := by
  have hrolling : rollingBalance s' = rollingBalance s := by
    unfold rollingBalance
    rw [hgone.userBalances]
  rw [hrolling]
  exact h.tail

end Awaiting

/-- The calculate pass has come from `s` to its end at `s'`. -/
structure Counted (fee : ℤ → ℤ) (locked : Username → Bool) (balances : Username → ℤ)
    (rest : List WithdrawRow) (s s' : WithdrawRequestProcessor) : Prop where
  phase : s'.phase = .calculationIterationComplete
  counted : s'.counted = s.counted ++ (paidOut fee locked balances rest).map WithdrawRow.key
  runningTotal : s'.runningTotalOfAllWithdrawalRequests = s.runningTotalOfAllWithdrawalRequests +
    ((paidOut fee locked balances rest).map WithdrawRow.amount).sum
  happened : s'.happened = s.happened
  viewQueryResults : s'.viewQueryResults = s.viewQueryResults
  found : FoundLocked locked s'

lemma Counted.skip {balances : Username → ℤ} {x : WithdrawRow} {rest : List WithdrawRow}
    {s s' s'' : WithdrawRequestProcessor} (h : Counted fee locked balances rest s' s'')
    (hgone : GoneOn s s')
    (hskip : locked x.user = true ∨ balances x.user < totalAmount fee x.request) :
    Counted fee locked balances (x :: rest) s s'' where
  phase := h.phase
  counted := by rw [h.counted, hgone.counted, paidOut_skip hskip]
  runningTotal := by rw [h.runningTotal, hgone.runningTotal, paidOut_skip hskip]
  happened := h.happened.trans hgone.happened
  viewQueryResults := h.viewQueryResults.trans hgone.viewQueryResults
  found := h.found

lemma Counted.pay {balances : Username → ℤ} {x : WithdrawRow} {rest : List WithdrawRow}
    {s s' s'' : WithdrawRequestProcessor}
    (h : Counted fee locked
      (Function.update balances x.user (balances x.user - totalAmount fee x.request)) rest
      (s'.count x (balances x.user - totalAmount fee x.request)) s'')
    (hgone : GoneOn s s') (hlocked : locked x.user = false)
    (hcover : totalAmount fee x.request ≤ balances x.user) :
    Counted fee locked balances (x :: rest) s s'' where
  phase := h.phase
  counted := by
    rw [paidOut_pay hlocked hcover, List.map_cons, ← hgone.counted, List.append_cons]
    exact h.counted
  runningTotal := by
    rw [paidOut_pay hlocked hcover, List.map_cons, List.sum_cons, ← hgone.runningTotal,
      ← add_assoc]
    exact h.runningTotal
  happened := h.happened.trans hgone.happened
  viewQueryResults := h.viewQueryResults.trans hgone.viewQueryResults
  found := h.found

/-- In calculate mode the amount is only counted. -/
lemma WithdrawRequestProcessor.processUnprocessed_calculate {s : WithdrawRequestProcessor}
    {x : WithdrawRow} {userProfile : UserAccount} {balance : ℤ} (hmode : s.mode = .CalculateMode)
    (hbalance : rollingBalance s x.user userProfile = balance) (cas userProfileCas : ℕ) :
    s.processUnprocessed fee x cas userProfileCas userProfile =
      if balance < totalAmount fee x.request then
        s.processNextWithdrawalRequestOrEmitFinishedIfNoMore
      else
        (s.count x (balance - totalAmount fee x.request)
          ).processNextWithdrawalRequestOrEmitFinishedIfNoMore := by
  have hrolling : (s.userBalancesDuringCalculationMode x.user).getD
      userProfile.balanceInSatoshis = balance := hbalance
  unfold processUnprocessed debitFromUsersCalculatedRollingBalance
  simp only [hmode, hrolling]
  by_cases hlow : balance < totalAmount fee x.request
  · rw [if_pos hlow, if_pos (sub_neg.2 hlow)]
  · rw [if_neg hlow, if_neg (not_lt.2 (sub_nonneg.2 (not_lt.1 hlow)))]
    unfold count
    rw [hmode]
    rfl

/-- **What the calculate pass counts.** -/
theorem Awaiting.calculates (fee : ℤ → ℤ) {st : WithdrawDb} {balances : Username → ℤ}
    {rest : List WithdrawRow} {s : WithdrawRequestProcessor}
    (h : Awaiting locked st (rollingBalance s) balances rest)
    (hmode : s.mode = .CalculateMode) (hrest : s.rest = rest.map WithdrawRow.key)
    (hfound : FoundLocked locked s) :
    ∃ s', RunsTo fee ⟨st, s.processNextWithdrawalRequestOrEmitFinishedIfNoMore⟩ ⟨st, s'⟩ ∧
      Counted fee locked balances rest s s' := by
  induction rest generalizing s balances with
  | nil =>
      refine ⟨_, RunsTo.refl _, ?_⟩
      unfold processNextWithdrawalRequestOrEmitFinishedIfNoMore
      rw [hrest]
      simp only [hmode]
      exact ⟨rfl, (List.append_nil _).symm, (add_zero _).symm, rfl, rfl, hfound⟩
  | cons x rest ih =>
      rcases h.reaches_userProfile hrest hfound with
        ⟨hlocked, s', hrest', hgone, hfound', hruns⟩ |
        ⟨hlocked, s', userProfile, hrest', hgone, hfound', hprofile, -, hbalance, hruns⟩
      · obtain ⟨s'', hruns', hcounted⟩ :=
          ih (h.calculate_skip hgone) (hgone.mode.trans hmode) hrest' hfound'
        exact ⟨s'', hruns.trans hruns', hcounted.skip hgone (.inl hlocked)⟩
      · have hmode' : s'.mode = .CalculateMode := hgone.mode.trans hmode
        have hrolling : rollingBalance s' x.user userProfile = balances x.user := by
          unfold rollingBalance
          rw [hgone.userBalances]
          exact hbalance
        rw [processUnprocessed_calculate hmode' hrolling] at hruns
        by_cases hlow : balances x.user < totalAmount fee x.request
        · rw [if_pos hlow] at hruns
          obtain ⟨s'', hruns', hcounted⟩ := ih (h.calculate_skip hgone) hmode' hrest' hfound'
          exact ⟨s'', hruns.trans hruns', hcounted.skip hgone (.inr hlow)⟩
        · rw [if_neg hlow] at hruns
          obtain ⟨s'', hruns', hcounted⟩ :=
            ih (h.calculate_pay hgone (totalAmount fee x.request)) hmode' hrest' hfound'
          exact ⟨s'', hruns.trans hruns', hcounted.pay hgone hlocked (not_lt.1 hlow)⟩

/-! ## The execute pass -/

/-- What the operations for one request lead to in execute mode, where `happened` is added to what
has happened and `userProfile` is left in the database. -/
structure Executed (x : WithdrawRow) (happened : List WithdrawHappening) (userProfile : UserAccount)
    (st st' : WithdrawDb) (s s' : WithdrawRequestProcessor) : Prop where
  mode : s'.mode = s.mode
  rest : s'.rest = s.rest
  found : s'.usersWithProfilesFoundLocked = s.usersWithProfilesFoundLocked
  happened : s'.happened = happened ++ s.happened
  userProfile : (st' (.userAccount x.user)).current = some userProfile
  others : ∀ k, k ≠ .withdrawFundsRequest x.key → k ≠ .userAccount x.user → st' k = st k

namespace Executed

variable {x : WithdrawRow} {happened : List WithdrawHappening} {userProfile : UserAccount}
  {st st' : WithdrawDb} {s s' : WithdrawRequestProcessor}

lemma foundLocked (h : Executed x happened userProfile st st' s s')
    (hfound : FoundLocked locked s) : FoundLocked locked s' := by
  unfold FoundLocked
  rw [h.found]
  exact hfound

lemma sent (h : Executed x happened userProfile st st' s s') :
    s'.sent = s.sent ++ (happened.filterMap WithdrawHappening.sent).reverse := by
  unfold WithdrawRequestProcessor.sent
  rw [h.happened, List.filterMap_append, List.reverse_append]

end Executed

/-- The lock is gone again after the debit. -/
lemma profileIsLocked_withdrawn {userProfile : UserAccount}
    (h : userProfile.profileIsLocked = false) (key : WithdrawFundsRequestKey) (total : ℤ) :
    ((userProfile.lockedToWithdraw key).withdrawnAndUnlocked total).profileIsLocked = false := by
  obtain ⟨hslot, -, hcredit⟩ := UserAccount.profileIsLocked_eq_false.1 h
  exact UserAccount.profileIsLocked_eq_false.2 ⟨hslot, rfl, hcredit⟩

section Operations

variable {st : WithdrawDb} {s : WithdrawRequestProcessor} {x : WithdrawRow}
  {userProfile : UserAccount}

lemma runsTo_insufficientFunds (fee : ℤ → ℤ) (s : WithdrawRequestProcessor)
    (hprofile : (st (.userAccount x.user)).current = some userProfile) :
    ∃ st' s', Executed x [] userProfile st st' s s' ∧
      RunsTo fee
        ⟨st, { s with
          phase := .setInsufficientFunds x (st (.withdrawFundsRequest x.key)).cas }⟩
        ⟨st', s'.processNextWithdrawalRequestOrEmitFinishedIfNoMore⟩ := by
  set s₁ : WithdrawRequestProcessor :=
    { s with phase := .setInsufficientFunds x (st (.withdrawFundsRequest x.key)).cas }
  refine ⟨_, s₁, ⟨rfl, rfl, rfl, rfl, ?_, fun k hrequest _ => ?_⟩,
    RunsTo.set st s₁ s₁.afterInsufficientFunds rfl rfl⟩
  · rw [Store.push_of_ne st (WithdrawKey.request_ne_account x.key x.user).symm]
    exact hprofile
  · exact Store.push_of_ne st hrequest _ _

/-- **A request is paid**: the profile is locked, the amount sent, the profile debitted. -/
lemma runsTo_paid (fee : ℤ → ℤ) (st : WithdrawDb) (x : WithdrawRow) (userProfile : UserAccount)
    (hmode : s.mode = .ExecuteMode) :
    ∃ st' s', Executed x [.sendToAddress x.key x.amount]
        ((userProfile.lockedToWithdraw x.key).withdrawnAndUnlocked (totalAmount fee x.request))
        st st' s s' ∧
      RunsTo fee
        ⟨st, { s with
          phase := .lockUserProfile x (st (.withdrawFundsRequest x.key)).cas
            (st (.userAccount x.user)).cas userProfile }⟩
        ⟨st', s'.processNextWithdrawalRequestOrEmitFinishedIfNoMore⟩ := by
  have hne := WithdrawKey.request_ne_account x.key x.user
  set total := totalAmount fee x.request
  set cas := (st (.withdrawFundsRequest x.key)).cas with hcas
  set userProfileCas := (st (.userAccount x.user)).cas with huserProfileCas
  set lockedProfile := userProfile.lockedToWithdraw x.key
  set processing := x.inState .processing
  set processed := x.inState .processedButProfileNeedsDeductingAndUnlocking
  -- the profile is locked
  set s₀ : WithdrawRequestProcessor :=
    { s with phase := .lockUserProfile x cas userProfileCas userProfile }
  set st₁ := st.push (.userAccount x.user) (.lockWithdrawing x.key) lockedProfile with hst₁
  have hrequest₁ : (st₁ (.withdrawFundsRequest x.key)).cas = cas := by
    rw [hst₁, Store.push_of_ne st hne]
  have haccount₁ : (st₁ (.userAccount x.user)).cas = userProfileCas + 1 := by
    rw [hst₁, Store.push_self, Cell.cas_push]
  set s₁ : WithdrawRequestProcessor := { s₀ with
    currentUserProfileInLockedWithdrawingStateCas := userProfileCas + 1
    phase := .setProcessing x cas lockedProfile }
  have hlock : RunsTo fee ⟨st, s₀⟩ ⟨st₁, s₁⟩ :=
    RunsTo.set st s₀ (s₀.afterLock x cas lockedProfile) rfl rfl
  -- the request is in state processing, and the amount is sent
  set st₂ := st₁.push (.withdrawFundsRequest x.key) .other processing.request with hst₂
  have hrequest₂ : (st₂ (.withdrawFundsRequest x.key)).cas = cas + 1 := by
    rw [hst₂, Store.push_self, Cell.cas_push, hrequest₁]
  set s₂ : WithdrawRequestProcessor := { s₁ with
    phase := .sendToAddress processing (cas + 1) lockedProfile }
  have hprocessing : RunsTo fee ⟨st₁, s₁⟩ ⟨st₂, s₂⟩ :=
    RunsTo.set st₁ s₁ (s₁.afterProcessing processing lockedProfile) rfl hrequest₁.symm
  set s₃ : WithdrawRequestProcessor := { s₂ with
    happened := .sendToAddress x.key x.amount :: s.happened
    phase := .setProcessedButProfileNeedsDeductingAndUnlocking processing (cas + 1)
      lockedProfile }
  have hsend : RunsTo fee ⟨st₂, s₂⟩ ⟨st₂, s₃⟩ := RunsTo.pause rfl
  set st₃ := st₂.push (.withdrawFundsRequest x.key) .other processed.request with hst₃
  have hrequest₃ : (st₃ (.withdrawFundsRequest x.key)).cas = cas + 2 := by
    rw [hst₃, Store.push_self, Cell.cas_push, hrequest₂]
  have haccount₃ : (st₃ (.userAccount x.user)).cas = userProfileCas + 1 := by
    rw [hst₃, Store.push_of_ne st₂ hne.symm, hst₂, Store.push_of_ne st₁ hne.symm, haccount₁]
  have hprocessed : RunsTo fee ⟨st₂, s₃⟩ ⟨st₃,
      s₃.continueAtDeduct fee processed (cas + 2) lockedProfile⟩ :=
    RunsTo.set st₂ s₃
      (s₃.afterProcessedButProfileNeedsDeductingAndUnlocking fee processed lockedProfile) rfl
      hrequest₂.symm
  -- the profile is debitted
  set s₄ : WithdrawRequestProcessor := { s₃ with
    phase := .deductAmountAndUnlock processed (cas + 2) lockedProfile }
  have hdebit : s₃.continueAtDeduct fee processed (cas + 2) lockedProfile = s₄ :=
    continueAtDeduct_execute (s := s₃) hmode processed (cas + 2) lockedProfile
  rw [hdebit] at hprocessed
  set st₄ := st₃.push (.userAccount x.user) (.debit x.key total)
    (lockedProfile.withdrawnAndUnlocked total) with hst₄
  have hrequest₄ : (st₄ (.withdrawFundsRequest x.key)).cas = cas + 2 := by
    rw [hst₄, Store.push_of_ne st₃ hne, hrequest₃]
  set s₅ : WithdrawRequestProcessor := { s₄ with
    phase := .setProcessedAndDone processed (cas + 2) }
  have hdeduct : RunsTo fee ⟨st₃, s₄⟩ ⟨st₄, s₅⟩ :=
    RunsTo.set st₃ s₄ (s₄.afterDeduct processed (cas + 2)) rfl haccount₃.symm
  set st₅ := st₄.push (.withdrawFundsRequest x.key) .other (x.inState .processed_Done).request
    with hst₅
  have hdone : RunsTo fee ⟨st₄, s₅⟩
      ⟨st₅, s₅.processNextWithdrawalRequestOrEmitFinishedIfNoMore⟩ :=
    RunsTo.set st₄ s₅ s₅.afterProcessedAndDone rfl hrequest₄.symm
  refine ⟨st₅, s₅, ⟨rfl, rfl, rfl, rfl, ?_, fun k hrequest haccount => ?_⟩,
    hlock.trans (hprocessing.trans (hsend.trans (hprocessed.trans (hdeduct.trans hdone))))⟩
  · rw [hst₅, Store.push_of_ne st₄ hne.symm, hst₄, Store.push_self, Cell.current_push]
  · rw [hst₅, Store.push_of_ne st₄ hrequest, hst₄, Store.push_of_ne st₃ haccount, hst₃,
      Store.push_of_ne st₂ hrequest, hst₂, Store.push_of_ne st₁ hrequest, hst₁,
      Store.push_of_ne st haccount]

end Operations

/-- The balance that was read. -/
def storedBalance (_ : Username) (userProfile : UserAccount) : ℤ := userProfile.balanceInSatoshis

namespace Awaiting

variable {st st' : WithdrawDb} {balances : Username → ℤ} {x : WithdrawRow} {rest : List WithdrawRow}
  {s s' : WithdrawRequestProcessor} {happened : List WithdrawHappening} {userProfile : UserAccount}

/-- **After the operations for one request**: the profile that is left has the balance that the
next ones go by. -/
lemma executed (h : Awaiting locked st storedBalance balances (x :: rest)) {balance : ℤ}
    (hexecuted : Executed x happened userProfile st st' s s')
    (hlocked : userProfile.profileIsLocked = locked x.user)
    (hbalance : locked x.user = false → userProfile.balanceInSatoshis = balance) :
    Awaiting locked st' storedBalance (Function.update balances x.user balance) rest := by
  obtain ⟨hnot, hnodup⟩ := List.nodup_cons.1 h.nodup
  refine ⟨hnodup, fun y hy => ?_, h.tail.unprocessed, fun y hy => ?_⟩
  · have hne : y.key ≠ x.key := by
      intro heq
      exact hnot (heq ▸ List.mem_map_of_mem hy)
    rw [hexecuted.others (.withdrawFundsRequest y.key)
      (fun heq => hne (WithdrawKey.withdrawFundsRequest.inj heq))
      (WithdrawKey.request_ne_account y.key x.user)]
    exact h.tail.request y hy
  · by_cases huser : y.user = x.user
    · rw [huser, Function.update_self]
      exact ⟨userProfile, hexecuted.userProfile, hlocked, hbalance⟩
    · rw [Function.update_of_ne huser, hexecuted.others (.userAccount y.user)
        (WithdrawKey.request_ne_account x.key y.user).symm
        (fun heq => huser (WithdrawKey.userAccount.inj heq))]
      exact h.tail.userProfile y hy

/-- **What the execute pass sends.** -/
theorem executes (fee : ℤ → ℤ) (h : Awaiting locked st storedBalance balances rest)
    (hmode : s.mode = .ExecuteMode) (hrest : s.rest = rest.map WithdrawRow.key)
    (hfound : FoundLocked locked s) :
    ∃ st' s', RunsTo fee ⟨st, s.processNextWithdrawalRequestOrEmitFinishedIfNoMore⟩ ⟨st', s'⟩ ∧
      s'.phase = .finished true ∧
      s'.sent = s.sent ++ (paidOut fee locked balances rest).map fun x => (x.key, x.amount) := by
  induction rest generalizing st s balances with
  | nil =>
      refine ⟨st, _, RunsTo.refl _, ?_⟩
      unfold processNextWithdrawalRequestOrEmitFinishedIfNoMore
      rw [hrest]
      simp only [hmode]
      exact ⟨rfl, (List.append_nil _).symm⟩
  | cons x rest ih =>
      rcases h.reaches_userProfile hrest hfound with
        ⟨hlocked, s₁, hrest₁, hgone, hfound₁, hruns⟩ |
        ⟨hlocked, s₁, userProfile, hrest₁, hgone, hfound₁, hprofile, hunlocked, hbalance, hruns⟩
      · obtain ⟨st', s', hruns', hphase, hsent⟩ :=
          ih h.tail (hgone.mode.trans hmode) hrest₁ hfound₁
        refine ⟨st', s', hruns.trans hruns', hphase, ?_⟩
        rw [hsent, hgone.sent, paidOut_skip (.inl hlocked)]
      · have hmode₁ : s₁.mode = .ExecuteMode := hgone.mode.trans hmode
        have hstored : userProfile.balanceInSatoshis = balances x.user := hbalance
        rw [processUnprocessed_execute hmode₁, hstored] at hruns
        by_cases hlow : balances x.user < totalAmount fee x.request
        · rw [if_pos hlow] at hruns
          obtain ⟨st₂, s₂, hexecuted, hruns₂⟩ := runsTo_insufficientFunds fee s₁ hprofile
          have hnext := h.executed hexecuted (hunlocked.trans hlocked.symm)
            (fun _ => hstored)
          rw [Function.update_eq_self] at hnext
          obtain ⟨st', s', hruns', hphase, hsent⟩ := ih hnext (hexecuted.mode.trans hmode₁)
            (hexecuted.rest.trans hrest₁) (hexecuted.foundLocked hfound₁)
          refine ⟨st', s', hruns.trans (hruns₂.trans hruns'), hphase, ?_⟩
          rw [hsent, hexecuted.sent, hgone.sent, paidOut_skip (.inr hlow)]
          exact congrArg (· ++ _) (List.append_nil s.sent)
        · rw [if_neg hlow] at hruns
          obtain ⟨st₂, s₂, hexecuted, hruns₂⟩ := runsTo_paid fee st x userProfile hmode₁
          have hnext := h.executed hexecuted
            ((profileIsLocked_withdrawn hunlocked x.key _).trans hlocked.symm)
            (fun _ => congrArg (· - totalAmount fee x.request) hstored)
          obtain ⟨st', s', hruns', hphase, hsent⟩ := ih hnext (hexecuted.mode.trans hmode₁)
            (hexecuted.rest.trans hrest₁) (hexecuted.foundLocked hfound₁)
          refine ⟨st', s', hruns.trans (hruns₂.trans hruns'), hphase, ?_⟩
          rw [hsent, hexecuted.sent, hgone.sent, paidOut_pay hlocked (not_lt.1 hlow)]
          simp [WithdrawHappening.sent]

end Awaiting

/-! ## One pass after the other -/

/-- The requests with what the database has of them. -/
def rowsOf (db : WithdrawDb) (viewQueryResults : List WithdrawFundsRequestKey) :
    List WithdrawRow :=
  viewQueryResults.map fun k => ⟨k, ((db (.withdrawFundsRequest k)).current).getD default⟩

/-- The profile in the database. -/
def profileOf (db : WithdrawDb) (username : Username) : UserAccount :=
  ((db (.userAccount username)).current).getD default

lemma map_key_rowsOf (db : WithdrawDb) (viewQueryResults : List WithdrawFundsRequestKey) :
    (rowsOf db viewQueryResults).map WithdrawRow.key = viewQueryResults := by
  unfold rowsOf
  rw [List.map_map]
  exact List.map_id _

/-- Both passes start with the stored balances. -/
lemma UnprocessedRequests.awaiting {db : WithdrawDb}
    {viewQueryResults : List WithdrawFundsRequestKey}
    (h : UnprocessedRequests db viewQueryResults) (balance : Username → UserAccount → ℤ)
    (hbalance : ∀ u userProfile, balance u userProfile = userProfile.balanceInSatoshis) :
    Awaiting (fun u => (profileOf db u).profileIsLocked) db balance
      (fun u => (profileOf db u).balanceInSatoshis) (rowsOf db viewQueryResults) := by
  have hrow : ∀ x ∈ rowsOf db viewQueryResults, x.key ∈ viewQueryResults ∧
      (db (.withdrawFundsRequest x.key)).current = some x.request ∧
      x.request.state = .unprocessed := by
    intro x hx
    obtain ⟨k, hk, rfl⟩ := List.mem_map.1 hx
    obtain ⟨request, hrequest, hstate⟩ := h.request k hk
    rw [hrequest]
    exact ⟨hk, rfl, hstate⟩
  refine ⟨?_, fun x hx => (hrow x hx).2.1, fun x hx => (hrow x hx).2.2, fun x hx => ?_⟩
  · rw [map_key_rowsOf]
    exact h.nodup
  · obtain ⟨userProfile, hprofile⟩ := h.userProfile x.key (hrow x hx).1
    have hprofileOf : profileOf db x.user = userProfile := by
      show ((db (.userAccount x.key.username)).current).getD default = userProfile
      rw [hprofile]
      rfl
    refine ⟨userProfile, hprofile, ?_, fun _ => ?_⟩
    · rw [hprofileOf]
    · rw [hprofileOf]
      exact hbalance x.user userProfile

/-- **The amount announced is the amount paid.**  The calculate pass comes to its end with the
database as it was, the execute pass that follows finishes, and what it has sent are the requests
that were counted, with amounts that sum up to the running total.  The user confirms a total before
anything is sent, so a difference in either direction would be money paid that nobody agreed to, or
a payout that was promised and left out.  That the requests have different keys and are unprocessed
is what the view gives for a database that no run has stopped in. -/
theorem announcedAmount_isPaid (fee : ℤ → ℤ) (db : WithdrawDb)
    (viewQueryResults : List WithdrawFundsRequestKey) (uninitializedCas : ℕ)
    (h : UnprocessedRequests db viewQueryResults) :
    ∃ n m, let calculated := calculatePass fee db viewQueryResults uninitializedCas n
      let executed := executePass fee calculated m
      calculated.processor.phase = .calculationIterationComplete ∧ calculated.store = db ∧
      executed.processor.phase = .finished true ∧
      executed.processor.sent.map Prod.fst = calculated.processor.counted ∧
      (executed.processor.sent.map Prod.snd).sum =
        calculated.processor.runningTotalOfAllWithdrawalRequests := by
  set start : WithdrawRequestProcessor :=
    { mode := .CalculateMode
      viewQueryResults := viewQueryResults
      rest := viewQueryResults
      usersWithProfilesFoundLocked := []
      runningTotalOfAllWithdrawalRequests := 0
      counted := []
      userBalancesDuringCalculationMode := fun _ => none
      currentUserProfileInLockedWithdrawingStateCas := uninitializedCas
      phase := .finished false
      happened := [] }
  have hrows := map_key_rowsOf db viewQueryResults
  have hcalculate := h.awaiting (rollingBalance start) fun _ _ => rfl
  obtain ⟨s, ⟨n, hn⟩, hcounted⟩ :=
    hcalculate.calculates fee rfl hrows.symm (fun u hu => absurd hu List.not_mem_nil)
  have hexecute := h.awaiting storedBalance fun _ _ => rfl
  obtain ⟨st', s', ⟨m, hm⟩, hphase, hsent⟩ := hexecute.executes fee
    (s := { s with mode := .ExecuteMode, rest := s.viewQueryResults }) rfl
    (hcounted.viewQueryResults.trans hrows.symm) hcounted.found
  have hcalculated : calculatePass fee db viewQueryResults uninitializedCas n = ⟨db, s⟩ := hn
  have hexecuted : executePass fee ⟨db, s⟩ m = ⟨st', s'⟩ := hm
  have hnone : s.sent = [] := congrArg (fun happened =>
    (happened.filterMap WithdrawHappening.sent).reverse) hcounted.happened
  have hpaid : s'.sent = (paidOut fee (fun u => (profileOf db u).profileIsLocked)
      (fun u => (profileOf db u).balanceInSatoshis) (rowsOf db viewQueryResults)).map
        fun x => (x.key, x.amount) := by
    refine hsent.trans ?_
    show s.sent ++ _ = _
    rw [hnone, List.nil_append]
  refine ⟨n, m, ?_⟩
  simp only [hcalculated, hexecuted]
  refine ⟨hcounted.phase, trivial, hphase, ?_, ?_⟩
  · rw [hpaid, hcounted.counted, List.map_map]
    rfl
  · rw [hpaid, hcounted.runningTotal, List.map_map, zero_add]
    rfl

/-- Two requests of one user, of which the balance covers one, and one of a user whose profile is
locked. -/
def unprocessedDb : WithdrawDb
  | .withdrawFundsRequest _ =>
      ⟨[⟨.other, ⟨3000000, "1BoatSLRHtKNngkdXEeobR76b53LETtpyT", .unprocessed⟩⟩]⟩
  | .userAccount username =>
      if username = "alice" then ⟨[⟨.other, { balanceInSatoshis := 5000000 }⟩]⟩
      else
        ⟨[⟨.other,
          { balanceInSatoshis := 9000000, lockedWithdrawingFunds := some ⟨"bob", 7⟩ }⟩]⟩

def unprocessedKeys : List WithdrawFundsRequestKey := [⟨"alice", 0⟩, ⟨"bob", 0⟩, ⟨"alice", 1⟩]

theorem announcedAmount_isPaid_unprocessedDb :
    ∃ n m, let calculated := calculatePass (fun _ => 45000) unprocessedDb unprocessedKeys 0 n
      let executed := executePass (fun _ => 45000) calculated m
      calculated.processor.phase = .calculationIterationComplete ∧
      calculated.store = unprocessedDb ∧ executed.processor.phase = .finished true ∧
      executed.processor.sent.map Prod.fst = calculated.processor.counted ∧
      (executed.processor.sent.map Prod.snd).sum =
        calculated.processor.runningTotalOfAllWithdrawalRequests := by
  refine announcedAmount_isPaid _ _ _ _ ⟨by decide, fun _ _ => ⟨_, rfl, rfl⟩, fun k _ => ?_⟩
  by_cases huser : k.username = "alice"
  · exact ⟨_, congrArg Cell.current (if_pos huser)⟩
  · exact ⟨_, congrArg Cell.current (if_neg huser)⟩

end Autobackup.Abc2
