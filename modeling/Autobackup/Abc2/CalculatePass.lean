import Autobackup.Abc2.WithdrawRequestProcessor
import Mathlib.Logic.Function.Iterate

/-!
# The calculate pass only reads

In calculate mode the processor adds up what is to be paid.  It writes nothing, but for one thing:
a request that an earlier run has left in state `processedButProfileNeedsDeductingAndUnlocking` is
recovered in calculate mode too, which debits the profile or bumps the state
(`calculatePass_readsOnly_iff`).

The recovery in calculate mode is deliberate, as the source has a branch of its own for it that does
not ask for the mode.  So what is exact here is the list of what it takes up, not a repair:
`TakesUpProcessed` is a property of the state before the step and of the row that comes next.
-/

namespace Autobackup.Abc2

/-- A store operation. -/
def IsStoreOperation {σ : Type} : WithdrawAction σ → Prop
  | .add _ _ _ _ | .set _ _ _ _ _ => True
  | _ => False

/-- The world after some operations of the calculate pass. -/
def calculatePass (fee : ℤ → ℤ) (db : WithdrawDb) (viewQueryResults : List WithdrawFundsRequestKey)
    (uninitializedCas n : ℕ) : WithdrawWorld :=
  (WithdrawWorld.operate fee)^[n]
    ⟨db, .processWithdrawalRequests viewQueryResults uninitializedCas⟩

/-- **The calculate pass is read-only**: no operation is a store operation, the database stays as it
is, and nothing is sent to bitcoind. -/
def CalculatePassReadsOnly (fee : ℤ → ℤ) (db : WithdrawDb)
    (viewQueryResults : List WithdrawFundsRequestKey) (uninitializedCas : ℕ) : Prop :=
  ∀ n, let w := calculatePass fee db viewQueryResults uninitializedCas n
    ¬ IsStoreOperation (w.processor.act fee) ∧ w.store = db ∧
      ∀ k amount, .sendToAddress k amount ∉ w.processor.happened

/-- It is about to recover a request, and does not stop because of a balance that is too low. -/
def WithdrawWorld.TakesUpProcessed (fee : ℤ → ℤ) (w : WithdrawWorld) : Prop :=
  ∃ x withdrawalRequestCas userProfileCas userProfile,
    w.processor.phase = .getUserProfile x withdrawalRequestCas ∧
    (w.store (.userAccount x.user)).get = some (userProfileCas, userProfile) ∧
    x.request.state = .processedButProfileNeedsDeductingAndUnlocking ∧
    (userProfile.lockedWithdrawingFunds = some x.key ∨
      0 ≤ (w.processor.userBalancesDuringCalculationMode x.user).getD
        userProfile.balanceInSatoshis - WithdrawRequestProcessor.totalAmount fee x.request)

namespace WithdrawRequestProcessor

variable {fee : ℤ → ℤ} {s : WithdrawRequestProcessor} {x : WithdrawRow}

/-- Where it is while it only reads. -/
structure IsReading (s : WithdrawRequestProcessor) : Prop where
  mode : s.mode = .CalculateMode
  phase : (∃ key, s.phase = .getWithdrawalRequest key) ∨
    (∃ x cas, s.phase = .getUserProfile x cas) ∨
    s.phase = .calculationIterationComplete ∨ ∃ success, s.phase = .finished success
  notSent : ∀ k amount, .sendToAddress k amount ∉ s.happened

lemma IsReading.not_isStoreOperation (h : s.IsReading) : ¬ IsStoreOperation (s.act fee) := by
  unfold act
  rcases h.phase with ⟨key, hphase⟩ | ⟨x, cas, hphase⟩ | hphase | ⟨success, hphase⟩ <;>
    rw [hphase] <;> exact id

lemma isReading_finish (hmode : s.mode = .CalculateMode)
    (hnot : ∀ k amount, .sendToAddress k amount ∉ s.happened) (success : Bool) :
    (s.finish success).IsReading :=
  ⟨hmode, .inr (.inr (.inr ⟨success, rfl⟩)), hnot⟩

lemma isReading_next (hmode : s.mode = .CalculateMode)
    (hnot : ∀ k amount, .sendToAddress k amount ∉ s.happened) :
    s.processNextWithdrawalRequestOrEmitFinishedIfNoMore.IsReading := by
  unfold processNextWithdrawalRequestOrEmitFinishedIfNoMore
  cases hrest : s.rest with
  | cons key rest => exact ⟨hmode, .inl ⟨key, rfl⟩, hnot⟩
  | nil =>
      simp only [hmode]
      exact ⟨rfl, .inr (.inr (.inl rfl)), hnot⟩

lemma IsReading.afterWithdrawalRequest (h : s.IsReading) (key : WithdrawFundsRequestKey)
    (found : Option (ℕ × WithdrawFundsRequest)) :
    (s.afterWithdrawalRequest key found).IsReading := by
  cases found with
  | none => exact isReading_finish h.mode h.notSent false
  | some found =>
      obtain ⟨cas, request⟩ := found
      show (if _ then _ else if _ then _ else _ : WithdrawRequestProcessor).IsReading
      split_ifs
      · exact isReading_next h.mode h.notSent
      · exact isReading_next h.mode h.notSent
      · exact ⟨h.mode, .inr (.inl ⟨_, _, rfl⟩), h.notSent⟩

/-- In calculate mode the amount is only counted. -/
lemma IsReading.processUnprocessed (h : s.IsReading) {cas userProfileCas : ℕ}
    {userProfile : UserAccount} :
    (s.processUnprocessed fee x cas userProfileCas userProfile).IsReading := by
  unfold WithdrawRequestProcessor.processUnprocessed debitFromUsersCalculatedRollingBalance
  simp only [h.mode]
  by_cases hlow : (s.userBalancesDuringCalculationMode x.user).getD userProfile.balanceInSatoshis -
      totalAmount fee x.request < 0
  · rw [if_pos hlow]
    exact isReading_next h.mode h.notSent
  · rw [if_neg hlow]
    exact isReading_next rfl h.notSent

/-- **What happens with a request that is to be recovered.** -/
lemma IsReading.recover_cases (h : s.IsReading) (fee : ℤ → ℤ) (x : WithdrawRow) (cas : ℕ)
    (userProfile : UserAccount) :
    (s.continueFromProcessedButProfileNeedsDeductingAndUnlocking fee x cas
        userProfile).IsReading ∧
      ¬ (userProfile.lockedWithdrawingFunds = some x.key ∨
        0 ≤ (s.userBalancesDuringCalculationMode x.user).getD userProfile.balanceInSatoshis -
          totalAmount fee x.request) ∨
    IsStoreOperation ((s.continueFromProcessedButProfileNeedsDeductingAndUnlocking fee x cas
        userProfile).act fee) ∧
      (userProfile.lockedWithdrawingFunds = some x.key ∨
        0 ≤ (s.userBalancesDuringCalculationMode x.user).getD userProfile.balanceInSatoshis -
          totalAmount fee x.request) := by
  unfold continueFromProcessedButProfileNeedsDeductingAndUnlocking continueAtDeduct
    debitFromUsersCalculatedRollingBalance
  by_cases hlock : userProfile.lockedWithdrawingFunds = some x.key
  · rw [if_neg (not_not.2 hlock)]
    exact .inr ⟨trivial, .inl hlock⟩
  · rw [if_pos hlock]
    simp only [h.mode]
    by_cases hlow : (s.userBalancesDuringCalculationMode x.user).getD
        userProfile.balanceInSatoshis - totalAmount fee x.request < 0
    · rw [if_pos hlow]
      refine .inl ⟨isReading_finish rfl (fun k amount hmem => ?_) false, ?_⟩
      · exact (List.mem_cons.1 hmem).elim nofun (h.notSent k amount)
      · exact not_or.2 ⟨hlock, not_le.2 hlow⟩
    · rw [if_neg hlow]
      exact .inr ⟨trivial, .inr (not_lt.1 hlow)⟩

/-- Where it is in calculate mode: it reads, or it recovers a request. -/
structure IsCalculating (s : WithdrawRequestProcessor) : Prop where
  mode : s.mode = .CalculateMode
  phase : s.IsReading ∨ (∃ x cas userProfile, s.phase = .deductAmountAndUnlock x cas userProfile) ∨
    ∃ x cas, s.phase = .setProcessedAndDone x cas
  notSent : ∀ k amount, .sendToAddress k amount ∉ s.happened

lemma IsReading.isCalculating (h : s.IsReading) : s.IsCalculating := ⟨h.mode, .inl h, h.notSent⟩

lemma IsReading.isCalculating_recover (h : s.IsReading) (fee : ℤ → ℤ) (x : WithdrawRow) (cas : ℕ)
    (userProfile : UserAccount) :
    (s.continueFromProcessedButProfileNeedsDeductingAndUnlocking fee x cas
      userProfile).IsCalculating := by
  have hnot : ∀ (lockedTo : Option WithdrawFundsRequestKey) (atDeduct : Bool) k amount,
      WithdrawHappening.sendToAddress k amount ∉ .resumed x.key lockedTo atDeduct :: s.happened :=
    fun _ _ k amount hmem => (List.mem_cons.1 hmem).elim nofun (h.notSent k amount)
  unfold continueFromProcessedButProfileNeedsDeductingAndUnlocking continueAtDeduct
    debitFromUsersCalculatedRollingBalance
  by_cases hlock : userProfile.lockedWithdrawingFunds = some x.key
  · rw [if_neg (not_not.2 hlock)]
    exact ⟨h.mode, .inr (.inr ⟨_, _, rfl⟩), hnot _ _⟩
  · rw [if_pos hlock]
    simp only [h.mode]
    by_cases hlow : (s.userBalancesDuringCalculationMode x.user).getD
        userProfile.balanceInSatoshis - totalAmount fee x.request < 0
    · rw [if_pos hlow]
      exact (isReading_finish rfl (hnot _ _) false).isCalculating
    · rw [if_neg hlow]
      exact ⟨rfl, .inr (.inl ⟨_, _, _, rfl⟩), hnot _ _⟩

lemma IsReading.isCalculating_afterUserProfile (h : s.IsReading) (fee : ℤ → ℤ) (x : WithdrawRow)
    (cas : ℕ) (found : Option (ℕ × UserAccount)) :
    (s.afterUserProfile fee x cas found).IsCalculating := by
  cases found with
  | none => exact (isReading_finish h.mode h.notSent false).isCalculating
  | some found =>
      obtain ⟨userProfileCas, userProfile⟩ := found
      show (if _ then _ else if _ then _ else if _ then _ else _ :
        WithdrawRequestProcessor).IsCalculating
      split_ifs
      · exact (isReading_finish h.mode h.notSent false).isCalculating
      · exact h.isCalculating_recover fee x cas userProfile
      · exact IsReading.isCalculating (isReading_next h.mode h.notSent)
      · exact h.processUnprocessed.isCalculating

lemma IsCalculating.afterDeduct (h : s.IsCalculating) (x : WithdrawRow) (cas : ℕ)
    (reply : Reply) : (s.afterDeduct x cas reply).IsCalculating := by
  cases reply with
  | stored c => exact ⟨h.mode, .inr (.inr ⟨_, _, rfl⟩), h.notSent⟩
  | keyExists => exact (isReading_finish h.mode h.notSent false).isCalculating
  | keyMissing => exact (isReading_finish h.mode h.notSent false).isCalculating

lemma IsCalculating.afterProcessedAndDone (h : s.IsCalculating) (reply : Reply) :
    (s.afterProcessedAndDone reply).IsCalculating := by
  cases reply with
  | stored c => exact (isReading_next h.mode h.notSent).isCalculating
  | keyExists => exact (isReading_finish h.mode h.notSent false).isCalculating
  | keyMissing => exact (isReading_finish h.mode h.notSent false).isCalculating

end WithdrawRequestProcessor

open WithdrawRequestProcessor

variable {fee : ℤ → ℤ} {w : WithdrawWorld}

/-- **What one operation does** while it only reads. -/
lemma WithdrawWorld.operate_reading (fee : ℤ → ℤ) (h : w.processor.IsReading) :
    (w.operate fee).store = w.store ∧
      ((w.operate fee).processor.IsReading ∧ ¬ w.TakesUpProcessed fee ∨
        IsStoreOperation ((w.operate fee).processor.act fee) ∧ w.TakesUpProcessed fee) := by
  have hother : (∀ x cas, w.processor.phase ≠ .getUserProfile x cas) →
      ¬ w.TakesUpProcessed fee := by
    rintro hphase ⟨x, cas, userProfileCas, userProfile, hgets, -⟩
    exact hphase x cas hgets
  unfold WithdrawWorld.operate act
  rcases h.phase with ⟨key, hphase⟩ | ⟨x, cas, hphase⟩ | hphase | ⟨success, hphase⟩
  · have hnot := hother fun x cas hgets => absurd (hphase.symm.trans hgets) nofun
    simp only [hphase]
    exact ⟨rfl, .inl ⟨h.afterWithdrawalRequest key _, hnot⟩⟩
  · simp only [hphase]
    refine ⟨rfl, ?_⟩
    show (w.processor.afterUserProfile fee x cas
        (w.store (.userAccount x.user)).get).IsReading ∧ _ ∨
      IsStoreOperation ((w.processor.afterUserProfile fee x cas
        (w.store (.userAccount x.user)).get).act fee) ∧ _
    have htakes : ∀ userProfileCas userProfile,
        (w.store (.userAccount x.user)).get = some (userProfileCas, userProfile) →
        (w.TakesUpProcessed fee ↔
          x.request.state = .processedButProfileNeedsDeductingAndUnlocking ∧
          (userProfile.lockedWithdrawingFunds = some x.key ∨
            0 ≤ (w.processor.userBalancesDuringCalculationMode x.user).getD
              userProfile.balanceInSatoshis - totalAmount fee x.request)) := by
      intro userProfileCas userProfile hget
      constructor
      · rintro ⟨x', cas', userProfileCas', userProfile', hphase', hget', hstate, hgoes⟩
        obtain ⟨rfl, rfl⟩ := ProcessorPhase.getUserProfile.inj (hphase.symm.trans hphase')
        obtain ⟨rfl, rfl⟩ := Prod.mk.inj (Option.some.inj (hget.symm.trans hget'))
        exact ⟨hstate, hgoes⟩
      · rintro ⟨hstate, hgoes⟩
        exact ⟨x, cas, userProfileCas, userProfile, hphase, hget, hstate, hgoes⟩
    cases hget : (w.store (.userAccount x.user)).get with
    | none =>
        refine .inl ⟨isReading_finish h.mode h.notSent false, ?_⟩
        rintro ⟨x', cas', userProfileCas', userProfile', hphase', hget', -⟩
        obtain ⟨rfl, rfl⟩ := ProcessorPhase.getUserProfile.inj (hphase.symm.trans hphase')
        exact absurd (hget.symm.trans hget') nofun
    | some found =>
        obtain ⟨userProfileCas, userProfile⟩ := found
        rw [htakes userProfileCas userProfile hget]
        unfold afterUserProfile
        by_cases hstate : x.request.state = .processedButProfileNeedsDeductingAndUnlocking
        · have hprocessing : ¬ (x.request.state = .processing ∧
              userProfile.lockedWithdrawingFunds ≠ some x.key) := by
            rintro ⟨hprocessing, -⟩
            exact absurd (hstate.symm.trans hprocessing) nofun
          simp only [if_neg hprocessing, if_pos hstate]
          rcases h.recover_cases fee x cas userProfile with
            ⟨hreading, hstops⟩ | ⟨hstores, hgoes⟩
          · exact .inl ⟨hreading, fun hand => hstops hand.2⟩
          · exact .inr ⟨hstores, hstate, hgoes⟩
        · refine .inl ⟨?_, fun hand => hstate hand.1⟩
          simp only [if_neg hstate]
          split_ifs
          · exact isReading_finish h.mode h.notSent false
          · exact isReading_next h.mode h.notSent
          · exact h.processUnprocessed
  · have hnot := hother fun x cas hgets => absurd (hphase.symm.trans hgets) nofun
    simp only [hphase]
    exact ⟨rfl, .inl ⟨h, hnot⟩⟩
  · have hnot := hother fun x cas hgets => absurd (hphase.symm.trans hgets) nofun
    simp only [hphase]
    exact ⟨rfl, .inl ⟨h, hnot⟩⟩

/-- **In calculate mode it goes on in calculate mode**, and sends nothing. -/
lemma WithdrawWorld.operate_calculating (fee : ℤ → ℤ) (h : w.processor.IsCalculating) :
    (w.operate fee).processor.IsCalculating := by
  unfold WithdrawWorld.operate act
  rcases h.phase with hreading | ⟨x, cas, userProfile, hphase⟩ | ⟨x, cas, hphase⟩
  · rcases hreading.phase with ⟨key, hphase⟩ | ⟨x, cas, hphase⟩ | hphase | ⟨success, hphase⟩
    · simp only [hphase]
      exact (hreading.afterWithdrawalRequest key _).isCalculating
    · simp only [hphase]
      exact hreading.isCalculating_afterUserProfile fee x cas _
    · simp only [hphase]
      exact h
    · simp only [hphase]
      exact h
  · simp only [hphase]
    have hafter := h.afterDeduct x cas
    exact perform_set_any (P := fun r => IsCalculating r.2)
      (hafter (.stored ((w.store (.userAccount x.user)).cas + 1))) hafter
  · simp only [hphase]
    have hafter := h.afterProcessedAndDone
    exact perform_set_any (P := fun r => IsCalculating r.2)
      (hafter (.stored ((w.store (.withdrawFundsRequest x.key)).cas + 1))) hafter

lemma calculatePass_succ (fee : ℤ → ℤ) (db : WithdrawDb)
    (viewQueryResults : List WithdrawFundsRequestKey) (uninitializedCas n : ℕ) :
    calculatePass fee db viewQueryResults uninitializedCas (n + 1) =
      (calculatePass fee db viewQueryResults uninitializedCas n).operate fee :=
  Function.iterate_succ_apply' _ n _

/-- As long as nothing was recovered, it has only read. -/
lemma isReading_calculatePass {db : WithdrawDb} {viewQueryResults : List WithdrawFundsRequestKey}
    {uninitializedCas : ℕ} : ∀ {n : ℕ},
    (∀ m < n, ¬ (calculatePass fee db viewQueryResults uninitializedCas m).TakesUpProcessed fee) →
    (calculatePass fee db viewQueryResults uninitializedCas n).processor.IsReading ∧
      (calculatePass fee db viewQueryResults uninitializedCas n).store = db := by
  intro n
  induction n with
  | zero =>
      intro _
      exact ⟨isReading_next rfl fun _ _ => List.not_mem_nil, rfl⟩
  | succ n ih =>
      intro hnone
      obtain ⟨hreading, hstore⟩ := ih fun m hm => hnone m (Nat.lt_succ_of_lt hm)
      rw [calculatePass_succ]
      obtain ⟨hsame, hcases⟩ := WithdrawWorld.operate_reading fee hreading
      refine ⟨?_, hsame.trans hstore⟩
      rcases hcases with ⟨hreads, -⟩ | ⟨-, htakes⟩
      · exact hreads
      · exact absurd htakes (hnone n (Nat.lt_succ_self n))

lemma isCalculating_calculatePass (fee : ℤ → ℤ) (db : WithdrawDb)
    (viewQueryResults : List WithdrawFundsRequestKey) (uninitializedCas n : ℕ) :
    (calculatePass fee db viewQueryResults uninitializedCas n).processor.IsCalculating := by
  induction n with
  | zero => exact (isReading_next rfl fun _ _ => List.not_mem_nil).isCalculating
  | succ n ih =>
      rw [calculatePass_succ]
      exact WithdrawWorld.operate_calculating fee ih

/-- The calculate pass never sends anything to bitcoind, **and it only reads if and only if** it
takes up no request that is to be recovered, but for one where it stops because of the balance.
That bitcoind hears nothing has no condition, since `sendtoaddress` is issued in execute mode only.
The recovery that stops because of the balance is the one way to take up such a request and write
nothing. -/
theorem calculatePass_readsOnly_iff (fee : ℤ → ℤ) (db : WithdrawDb)
    (viewQueryResults : List WithdrawFundsRequestKey) (uninitializedCas : ℕ) :
    (∀ n k amount, .sendToAddress k amount ∉
      (calculatePass fee db viewQueryResults uninitializedCas n).processor.happened) ∧
    (CalculatePassReadsOnly fee db viewQueryResults uninitializedCas ↔
      ∀ n, ¬ (calculatePass fee db viewQueryResults uninitializedCas n).TakesUpProcessed fee) := by
  refine ⟨fun n => (isCalculating_calculatePass fee db viewQueryResults uninitializedCas n).notSent,
    ?_⟩
  constructor
  · intro h n
    induction n using Nat.strongRecOn with
    | ind n ih =>
        intro htakes
        obtain ⟨hreading, -⟩ := isReading_calculatePass ih
        rcases (WithdrawWorld.operate_reading fee hreading).2 with ⟨-, hnot⟩ | ⟨hstores, -⟩
        · exact hnot htakes
        · rw [← calculatePass_succ] at hstores
          exact (h (n + 1)).1 hstores
  · intro h n
    obtain ⟨hreading, hstore⟩ := isReading_calculatePass fun m (_ : m < n) => h m
    exact ⟨hreading.not_isStoreOperation, hstore, hreading.notSent⟩

/-- A request whose profile was debitted and unlocked, and the state not bumped. -/
def notBumped : WithdrawDb
  | .withdrawFundsRequest k =>
      if k = ⟨"alice", 0⟩ then
        ⟨[⟨.other, ⟨3000000, "1BoatSLRHtKNngkdXEeobR76b53LETtpyT",
          .processedButProfileNeedsDeductingAndUnlocking⟩⟩]⟩
      else Cell.absent
  | .userAccount username =>
      if username = "alice" then ⟨[⟨.other, { balanceInSatoshis := 5000000 }⟩]⟩ else Cell.absent

/-- The profile is debitted again, in calculate mode. -/
theorem not_calculatePassReadsOnly_notBumped :
    ¬ ∀ fee db viewQueryResults uninitializedCas,
      CalculatePassReadsOnly fee db viewQueryResults uninitializedCas := by
  intro h
  obtain ⟨hstore, -⟩ := h (fun _ => 45000) notBumped [⟨"alice", 0⟩] 0 2
  exact hstore trivial

end Autobackup.Abc2
