import Autobackup.Abc2.BitcoindErrors

/-!
# A step of a payout run

A request is set to `processing` over a version in state `unprocessed`, and `sendtoaddress` is
issued once for the version in state `processing`, by the run that wrote it.  The only way back to
`unprocessed` is that the user wants it (`WithdrawFundsRequestState.Next`).

What a run knows where it is, it has read or written itself (`PayoutRun.Knows`).  Each step keeps
that (`stepOk_act`).
-/

namespace Autobackup.Abc2

open WithdrawRequestProcessor

/-! ## Requests -/

/-- The state that a request in this state may be set to. -/
def WithdrawFundsRequestState.Next :
    WithdrawFundsRequestState → WithdrawFundsRequestState → Prop
  | .unprocessed, .insufficientFunds_Done | .unprocessed, .processing
  | .processing, .unprocessed | .processing, .bitcoindCommandReturnedError_Done
  | .processing, .processedButProfileNeedsDeductingAndUnlocking
  | .processedButProfileNeedsDeductingAndUnlocking, .processed_Done => True
  | _, _ => False

/-- The states of which a request was sent. -/
def WithdrawFundsRequestState.isSent : WithdrawFundsRequestState → Bool
  | .bitcoindCommandReturnedError_Done | .processedButProfileNeedsDeductingAndUnlocking
  | .processed_Done => true
  | _ => false

lemma WithdrawFundsRequestState.of_isDone_eq_false {state : WithdrawFundsRequestState}
    (h : state.isDone = false) : state = .unprocessed ∨ state = .processing ∨
      state = .processedButProfileNeedsDeductingAndUnlocking := by
  cases state with
  | unprocessed => exact .inl rfl
  | processing => exact .inr (.inl rfl)
  | processedButProfileNeedsDeductingAndUnlocking => exact .inr (.inr rfl)
  | insufficientFunds_Done => cases h
  | bitcoindCommandReturnedError_Done => cases h
  | processed_Done => cases h

lemma WithdrawFundsRequestState.Next.isDone_eq_false {before after : WithdrawFundsRequestState}
    (h : before.Next after) : before.isDone = false := by
  cases before <;> cases after <;> first | rfl | exact h.elim

section Requests

variable {st st' : WithdrawDb} {k : WithdrawFundsRequestKey} {c : ℕ}
  {state : WithdrawFundsRequestState}

/-- The version `c` of the request is in this state. -/
def InState (st : WithdrawDb) (k : WithdrawFundsRequestKey) (c : ℕ)
    (state : WithdrawFundsRequestState) : Prop :=
  ∃ request, (st (.withdrawFundsRequest k)).docAt c = some request ∧ request.state = state

lemma InState.mono (hst : st ≤ st') (h : InState st k c state) : InState st' k c state := by
  obtain ⟨request, hrequest, hstate⟩ := h
  exact ⟨request, Cell.docAt_mono (hst _) hrequest, hstate⟩

structure StatesOk (st : WithdrawDb) : Prop where
  filed : ∀ k request, (st (.withdrawFundsRequest k)).docAt 1 = some request →
    request.state = .unprocessed
  steps : ∀ k, (st (.withdrawFundsRequest k)).Chain fun before _ after =>
    before.state.Next after.state

lemma statesOk_of_absent (h : ∀ k, (st (.withdrawFundsRequest k)).cas = 0) : StatesOk st where
  filed k request hrequest := by
    have hbounds := Cell.docAt_bounds hrequest
    have habsent := h k
    omega
  steps k c d v hd _ := by
    have hbounds := Cell.docAt_bounds hd
    have habsent := h k
    omega

/-- What comes before a version that is not the first. -/
lemma StatesOk.before (h : StatesOk st) (hstate : InState st k (c + 1) state) (hc : 0 < c) :
    ∃ state', InState st k c state' ∧ state'.Next state := by
  obtain ⟨request, hrequest, rfl⟩ := hstate
  obtain ⟨n, hversion⟩ := Cell.docAt_eq_some.1 hrequest
  have hbounds := Cell.docAt_bounds hrequest
  obtain ⟨before, hbefore⟩ := Cell.exists_docAt (x := st (.withdrawFundsRequest k)) hc (by omega)
  exact ⟨before.state, ⟨before, hbefore, rfl⟩, h.steps k c before _ hbefore hversion⟩

/-- What is done stays as it is. -/
lemma StatesOk.final (h : StatesOk st) (hstate : InState st k c state)
    (hdone : state.isDone = true) : c = (st (.withdrawFundsRequest k)).cas := by
  obtain ⟨request, hrequest, rfl⟩ := hstate
  have hbounds := Cell.docAt_bounds hrequest
  by_contra hne
  obtain ⟨version, hversion⟩ := Cell.exists_version (x := st (.withdrawFundsRequest k))
    (c := c + 1) (Nat.succ_pos c) (by omega)
  have hnext : request.state.Next version.doc.state := h.steps k c request version hrequest hversion
  rw [hnext.isDone_eq_false] at hdone
  exact Bool.false_ne_true hdone

/-- A write of another document. -/
lemma StatesOk.push_account (h : StatesOk st) (username : Username) (n : WithdrawNote)
    (profile : UserAccount) : StatesOk (st.push (.userAccount username) n profile) where
  filed k request hrequest := by
    rw [Store.push_of_ne st (WithdrawKey.request_ne_account k username)] at hrequest
    exact h.filed k request hrequest
  steps k := by
    rw [Store.push_of_ne st (WithdrawKey.request_ne_account k username)]
    exact h.steps k

/-- A request is filed, or written over its current version. -/
lemma StatesOk.push_request (h : StatesOk st) (n : WithdrawNote)
    (request : WithdrawFundsRequest)
    (hfiled : (st (.withdrawFundsRequest k)).cas = 0 → request.state = .unprocessed)
    (hnext : ∀ before, (st (.withdrawFundsRequest k)).current = some before →
      before.state.Next request.state) :
    StatesOk (st.push (.withdrawFundsRequest k) n request) where
  filed k' request' hrequest' := by
    by_cases hk : WithdrawKey.withdrawFundsRequest k' = .withdrawFundsRequest k
    · cases hk
      rw [Store.push_self, Cell.docAt_push] at hrequest'
      split at hrequest'
      · obtain rfl := Option.some.inj hrequest'
        exact hfiled (by omega)
      · exact h.filed k request' hrequest'
    · rw [Store.push_of_ne st hk] at hrequest'
      exact h.filed k' request' hrequest'
  steps k' := by
    by_cases hk : WithdrawKey.withdrawFundsRequest k' = .withdrawFundsRequest k
    · cases hk
      rw [Store.push_self]
      exact (h.steps k).push hnext
    · rw [Store.push_of_ne st hk]
      exact h.steps k'

end Requests
/-! ## Runs -/

section Runs

variable {st st' : WithdrawDb} {fee : ℤ → ℤ} {username : Username} {lockCas : ℕ}
  {profile : UserAccount} {sent : List (WithdrawFundsRequestKey × ℕ)}

/-- The profile was locked over a version that was not, and has its other fields. -/
def LockedFor (st : WithdrawDb) (username : Username) (lockCas : ℕ) (profile : UserAccount) :
    Prop :=
  (st (.userAccount username)).docAt lockCas = some profile ∧
    (st (.userAccount username)).docAt (lockCas - 1) = some profile.unlockedWithoutDebitting

lemma LockedFor.mono (hst : st ≤ st') (h : LockedFor st username lockCas profile) :
    LockedFor st' username lockCas profile :=
  ⟨Cell.docAt_mono (hst _) h.1, Cell.docAt_mono (hst _) h.2⟩

/-- A request whose `sendtoaddress` is about to be issued. -/
def ProcessorPhase.sending : ProcessorPhase → List (WithdrawFundsRequestKey × ℕ)
  | .sendToAddress x cas _ => [(x.key, cas)]
  | _ => []

/-- What a run without an error knows. -/
def WithdrawRequestProcessor.KnowsPhase (s : WithdrawRequestProcessor) (st : WithdrawDb)
    (sent : List (WithdrawFundsRequestKey × ℕ)) : Prop :=
  match s.phase with
  | .getWithdrawalRequest _ | .calculationIterationComplete | .finished _ => True
  | .getUserProfile x cas =>
      (st (.withdrawFundsRequest x.key)).docAt cas = some x.request ∧ x.request.state.isDone = false
  | .setInsufficientFunds x cas => InState st x.key cas .unprocessed
  | .lockUserProfile x cas userProfileCas userProfile =>
      InState st x.key cas .unprocessed ∧
        (st (.userAccount x.user)).docAt userProfileCas = some userProfile ∧
        userProfile.lockedWithdrawingFunds = none
  | .setProcessing x cas userProfile =>
      InState st x.key cas .unprocessed ∧
        LockedFor st x.user s.currentUserProfileInLockedWithdrawingStateCas userProfile
  | .sendToAddress x cas userProfile =>
      InState st x.key cas .processing ∧
        LockedFor st x.user s.currentUserProfileInLockedWithdrawingStateCas userProfile
  | .setProcessedButProfileNeedsDeductingAndUnlocking x cas _ =>
      InState st x.key cas .processing ∧ (x.key, cas) ∈ sent
  | .deductAmountAndUnlock x cas _ | .setProcessedAndDone x cas =>
      InState st x.key cas .processedButProfileNeedsDeductingAndUnlocking

/-- What it knows of an error. -/
def BitcoindError.Knows (e : BitcoindError) (st : WithdrawDb)
    (sent : List (WithdrawFundsRequestKey × ℕ)) (lockCas : ℕ) : Prop :=
  match e.phase with
  | .askTheUser | .setWithdrawalRequestState _ =>
      (InState st e.row.key e.inProcessingStateCas .processing ∧
        (e.row.key, e.inProcessingStateCas) ∈ sent) ∧ LockedFor st e.row.user lockCas e.userProfile
  | .unlockUserProfileWithoutDebitting _ => LockedFor st e.row.user lockCas e.userProfile

structure PayoutRun.Knows (s : PayoutRun) (st : WithdrawDb) : Prop where
  phase : s.error = none → s.processor.KnowsPhase st s.sentVersions
  error : ∀ e ∈ s.error,
    e.Knows st s.sentVersions s.processor.currentUserProfileInLockedWithdrawingStateCas ∧
      s.processor.phase.sending = []
  sent : ∀ v ∈ s.sentVersions, InState st v.1 v.2 .processing
  unlocked : ∀ v ∈ s.unlockedVersions, ∃ before,
    (st (.userAccount v.1)).docAt (v.2 - 1) = some before ∧
      (st (.userAccount v.1)).docAt (v.2 + 1) = some before

lemma WithdrawRequestProcessor.KnowsPhase.mono {s : WithdrawRequestProcessor} (hst : st ≤ st')
    (h : s.KnowsPhase st sent) : s.KnowsPhase st' sent := by
  unfold KnowsPhase at h ⊢
  cases hphase : s.phase with
  | getWithdrawalRequest key => trivial
  | calculationIterationComplete => trivial
  | finished success => trivial
  | getUserProfile x cas =>
      rw [hphase] at h
      exact ⟨Cell.docAt_mono (hst _) h.1, h.2⟩
  | setInsufficientFunds x cas =>
      rw [hphase] at h
      exact InState.mono hst h
  | lockUserProfile x cas userProfileCas userProfile =>
      rw [hphase] at h
      exact ⟨h.1.mono hst, Cell.docAt_mono (hst _) h.2.1, h.2.2⟩
  | setProcessing x cas userProfile =>
      rw [hphase] at h
      exact ⟨h.1.mono hst, h.2.mono hst⟩
  | sendToAddress x cas userProfile =>
      rw [hphase] at h
      exact ⟨h.1.mono hst, h.2.mono hst⟩
  | setProcessedButProfileNeedsDeductingAndUnlocking x cas userProfile =>
      rw [hphase] at h
      exact ⟨h.1.mono hst, h.2⟩
  | deductAmountAndUnlock x cas userProfile =>
      rw [hphase] at h
      exact InState.mono hst h
  | setProcessedAndDone x cas =>
      rw [hphase] at h
      exact InState.mono hst h

lemma BitcoindError.Knows.mono {e : BitcoindError} (hst : st ≤ st') (h : e.Knows st sent lockCas) :
    e.Knows st' sent lockCas := by
  unfold BitcoindError.Knows at h ⊢
  cases hphase : e.phase with
  | askTheUser =>
      rw [hphase] at h
      exact ⟨⟨h.1.1.mono hst, h.1.2⟩, h.2.mono hst⟩
  | setWithdrawalRequestState way =>
      rw [hphase] at h
      exact ⟨⟨h.1.1.mono hst, h.1.2⟩, h.2.mono hst⟩
  | unlockUserProfileWithoutDebitting way =>
      rw [hphase] at h
      exact LockedFor.mono hst h

lemma PayoutRun.Knows.mono {s : PayoutRun} (hst : st ≤ st') (h : s.Knows st) : s.Knows st' where
  phase hnone := (h.phase hnone).mono hst
  error e he := ⟨(h.error e he).1.mono hst, (h.error e he).2⟩
  sent v hv := (h.sent v hv).mono hst
  unlocked v hv := by
    obtain ⟨before, hbefore, hafter⟩ := h.unlocked v hv
    exact ⟨before, Cell.docAt_mono (hst _) hbefore, Cell.docAt_mono (hst _) hafter⟩

/-- It knows what it needs to go on, and no `sendtoaddress` is next. -/
def WithdrawRequestProcessor.Settled (next : WithdrawRequestProcessor) (st : WithdrawDb)
    (sent : List (WithdrawFundsRequestKey × ℕ)) : Prop :=
  next.KnowsPhase st sent ∧ next.phase.sending = []

namespace WithdrawRequestProcessor

variable {s : WithdrawRequestProcessor} {x : WithdrawRow} {cas : ℕ}

lemma settled_finish (success : Bool) : (s.finish success).Settled st sent := ⟨trivial, rfl⟩

lemma settled_next : s.processNextWithdrawalRequestOrEmitFinishedIfNoMore.Settled st sent := by
  unfold processNextWithdrawalRequestOrEmitFinishedIfNoMore
  split
  · exact ⟨trivial, rfl⟩
  · split
    · exact ⟨trivial, rfl⟩
    · exact ⟨trivial, rfl⟩

lemma settled_afterWithdrawalRequest (key : WithdrawFundsRequestKey) :
    (s.afterWithdrawalRequest key (st (.withdrawFundsRequest key)).get).Settled st sent := by
  cases hget : (st (.withdrawFundsRequest key)).get with
  | none => exact settled_finish false
  | some read =>
      unfold afterWithdrawalRequest
      dsimp only
      split
      · exact settled_next
      · next hdone =>
          split
          · exact settled_next
          · refine ⟨⟨?_, eq_false_of_ne_true hdone⟩, rfl⟩
            exact (Cell.get_eq_some.1 hget).2

lemma settled_continueAtDeduct {userProfile : UserAccount}
    (h : InState st x.key cas .processedButProfileNeedsDeductingAndUnlocking) :
    (s.continueAtDeduct fee x cas userProfile).Settled st sent := by
  unfold continueAtDeduct
  split
  · split
    · exact settled_finish false
    · exact ⟨h, rfl⟩
  · exact ⟨h, rfl⟩

lemma settled_processUnprocessed {userProfileCas : ℕ} {userProfile : UserAccount}
    (h : InState st x.key cas .unprocessed)
    (hprofile : (st (.userAccount x.user)).docAt userProfileCas = some userProfile)
    (hlock : userProfile.lockedWithdrawingFunds = none) :
    (s.processUnprocessed fee x cas userProfileCas userProfile).Settled st sent := by
  unfold processUnprocessed
  split
  · split
    · exact ⟨h, rfl⟩
    · exact ⟨⟨h, hprofile, hlock⟩, rfl⟩
  · split
    · exact settled_next
    · exact settled_next

/-- A request in state `processing` is locked for, or that is a total system failure; so only one in
state `unprocessed` is processed. -/
lemma settled_afterUserProfile
    (h : (st (.withdrawFundsRequest x.key)).docAt cas = some x.request)
    (hdone : x.request.state.isDone = false) :
    (s.afterUserProfile fee x cas (st (.userAccount x.user)).get).Settled st sent := by
  cases hget : (st (.userAccount x.user)).get with
  | none => exact settled_finish false
  | some read =>
      obtain ⟨userProfileCas, userProfile⟩ := read
      unfold afterUserProfile continueFromProcessedButProfileNeedsDeductingAndUnlocking
      dsimp only
      split
      · exact settled_finish false
      · next hfailure =>
          split
          · next hprocessed =>
              have hat : InState st x.key cas .processedButProfileNeedsDeductingAndUnlocking :=
                ⟨x.request, h, hprocessed⟩
              split
              · exact settled_continueAtDeduct hat
              · exact ⟨hat, rfl⟩
          · next hprocessed =>
              split
              · exact settled_next
              · next hunlocked =>
                  have hlock := (UserAccount.profileIsLocked_eq_false.1
                    (eq_false_of_ne_true hunlocked)).2.1
                  have hstate : x.request.state = .unprocessed := by
                    rcases WithdrawFundsRequestState.of_isDone_eq_false hdone with h | h | h
                    · exact h
                    · refine absurd ⟨h, ?_⟩ hfailure
                      rw [hlock]
                      exact (Option.some_ne_none _).symm
                    · exact absurd h hprocessed
                  exact settled_processUnprocessed ⟨x.request, h, hstate⟩
                    (Cell.get_eq_some.1 hget).2 hlock

end WithdrawRequestProcessor

end Runs

/-! ## A step of a run -/

section Step

variable {st st' : WithdrawDb} {fee : ℤ → ℤ} {s s' : PayoutRun} {k : WithdrawFundsRequestKey}
  {c : ℕ} {state : WithdrawFundsRequestState}

/-- The request was in a state of which it was sent. -/
def WasSent (st : WithdrawDb) (k : WithdrawFundsRequestKey) : Prop :=
  ∃ c state, InState st k c state ∧ state.isSent = true

lemma WasSent.of_push_account {username : Username} {n : WithdrawNote} {profile : UserAccount}
    (h : WasSent (st.push (.userAccount username) n profile) k) : WasSent st k := by
  obtain ⟨c, state, ⟨request, hrequest, hstate⟩, hsent⟩ := h
  rw [Store.push_of_ne st (WithdrawKey.request_ne_account k username)] at hrequest
  exact ⟨c, state, ⟨request, hrequest, hstate⟩, hsent⟩

/-- What was sent, and what is sent next. -/
def PayoutRun.owned (s : PayoutRun) : List (WithdrawFundsRequestKey × ℕ) :=
  s.sentVersions ++ s.processor.phase.sending

structure StepOk (st : WithdrawDb) (s : PayoutRun) (r : WithdrawDb × PayoutRun) : Prop where
  requests : StatesOk r.1
  knows : r.2.Knows r.1
  owned : r.2.owned.Sublist s.owned ∨ ∃ k,
    (st (.withdrawFundsRequest k)).cas < (r.1 (.withdrawFundsRequest k)).cas ∧
      r.2.owned.Sublist (s.owned ++ [(k, (st (.withdrawFundsRequest k)).cas + 1)])
  sentVersions : ∀ v ∈ s.sentVersions, v ∈ r.2.sentVersions
  wasSent : ∀ k, WasSent r.1 k → WasSent st k ∨ ∃ c, (k, c) ∈ s.sentVersions

/-- The same messages and no error, at a place where it knows enough. -/
lemma StepOk.settle (hs : s.Knows st) (hst : st ≤ st') (hok : StatesOk st')
    (hwas : ∀ k, WasSent st' k → WasSent st k ∨ ∃ c, (k, c) ∈ s.sentVersions)
    (herror : s'.error = none) (hsent : s'.sentVersions = s.sentVersions)
    (hunlocked : s'.unlockedVersions = s.unlockedVersions)
    (hnext : s'.processor.Settled st' s.sentVersions) : StepOk st s (st', s') where
  requests := hok
  knows :=
    { phase := fun _ => by rw [hsent]; exact hnext.1
      error := fun e he => by rw [herror] at he; exact absurd he (Option.not_mem_none e)
      sent := fun v hv => by rw [hsent] at hv; exact (hs.sent v hv).mono hst
      unlocked := fun v hv => by rw [hunlocked] at hv; exact (hs.mono hst).unlocked v hv }
  owned := by
    rw [PayoutRun.owned, hsent, hnext.2, List.append_nil]
    exact .inl (List.sublist_append_left _ _)
  sentVersions v hv := by rw [hsent]; exact hv
  wasSent := hwas

lemma StepOk.finish (hok : StatesOk st) (hs : s.Knows st) (success : Bool) :
    StepOk st s (st, s.finish success) :=
  .settle hs (fun _ => Cell.le_refl _) hok (fun _ h => .inl h) rfl rfl rfl (settled_finish success)

/-- A processor that goes on without an error, where nothing was written. -/
lemma StepOk.proceed (hok : StatesOk st) (hs : s.Knows st) (herror : s.error = none)
    {next : WithdrawRequestProcessor} (hnext : next.Settled st s.sentVersions) :
    StepOk st s (st, { s with processor := next }) :=
  .settle hs (fun _ => Cell.le_refl _) hok (fun _ h => .inl h) herror rfl rfl hnext

/-- Or only a profile. -/
lemma StepOk.proceedAfterAccount (hok : StatesOk st) (hs : s.Knows st) (herror : s.error = none)
    (username : Username) (n : WithdrawNote) (profile : UserAccount)
    {next : WithdrawRequestProcessor}
    (hnext : next.Settled (st.push (.userAccount username) n profile) s.sentVersions) :
    StepOk st s (st.push (.userAccount username) n profile, { s with processor := next }) := by
  refine .settle hs (Store.le_push _ _ _ _) (hok.push_account username n profile) ?_ herror rfl rfl
    hnext
  exact fun k hk => .inl hk.of_push_account

/-- **A request is written over the version that was read.** -/
lemma StepOk.setRequest (hok : StatesOk st) {cas : ℕ} (hfrom : InState st k cas state)
    {request : WithdrawFundsRequest} (hnext : state.Next request.state)
    (hsent : request.state.isSent = true → state.isSent = true ∨ (k, cas) ∈ s.sentVersions)
    (n : WithdrawNote) {resume : Reply → PayoutRun}
    (haccept : ∀ st', st ≤ st' → cas = (st (.withdrawFundsRequest k)).cas →
      (st' (.withdrawFundsRequest k)).cas = cas + 1 → InState st' k (cas + 1) request.state →
      StatesOk st' → (∀ k, WasSent st' k → WasSent st k ∨ ∃ c, (k, c) ∈ s.sentVersions) →
      StepOk st s (st', resume (.stored (cas + 1))))
    (hrefuse : ∀ r, (∀ c, r ≠ .stored c) → StepOk st s (st, resume r)) :
    StepOk st s (perform st (.set (.withdrawFundsRequest k) n request cas resume)) := by
  obtain ⟨before, hbefore, rfl⟩ := hfrom
  have hbounds := Cell.docAt_bounds hbefore
  apply perform_set (P := fun r : WithdrawDb × PayoutRun => StepOk st s r) hbounds.1
  · intro hcas
    have hpushed := hok.push_request (k := k) n request (fun habsent => by omega) (by
      intro before' hbefore'
      rw [Cell.current, ← hcas, hbefore] at hbefore'
      obtain rfl := Option.some.inj hbefore'
      exact hnext)
    have hwritten := Store.docAt_push_next hcas n request
    refine haccept _ (Store.le_push _ _ _ _) hcas ?_ ⟨request, hwritten, rfl⟩ hpushed ?_
    · rw [Store.push_self, Cell.cas_push, hcas]
    · rintro k' ⟨c, state, ⟨request', hrequest', hstate⟩, hsent'⟩
      by_cases hk : WithdrawKey.withdrawFundsRequest k' = .withdrawFundsRequest k
      · cases hk
        rw [Store.push_self, Cell.docAt_push] at hrequest'
        split at hrequest'
        · obtain rfl := Option.some.inj hrequest'
          rw [hstate] at hsent
          rcases hsent hsent' with hfrom | hmine
          · exact .inl ⟨cas, before.state, ⟨before, hbefore, rfl⟩, hfrom⟩
          · exact .inr ⟨cas, hmine⟩
        · exact .inl ⟨c, state, ⟨request', hrequest', hstate⟩, hsent'⟩
      · rw [Store.push_of_ne st hk] at hrequest'
        exact .inl ⟨c, state, ⟨request', hrequest', hstate⟩, hsent'⟩
  · exact hrefuse

lemma StepOk.refl (hok : StatesOk st) (hs : s.Knows st) : StepOk st s (st, s) where
  requests := hok
  knows := hs
  owned := .inl (List.Sublist.refl _)
  sentVersions _ hv := hv
  wasSent _ hk := .inl hk

/-- A write that is refused ends the run. -/
lemma StepOk.refused (hok : StatesOk st) (hs : s.Knows st) (herror : s.error = none)
    {after : Reply → WithdrawRequestProcessor}
    (hexists : after .keyExists = s.processor.finish false)
    (hmissing : after .keyMissing = s.processor.finish false) (r : Reply)
    (hr : ∀ c, r ≠ .stored c) : StepOk st s (st, { s with processor := after r }) := by
  cases r with
  | stored c => exact absurd rfl (hr c)
  | keyExists =>
      rw [hexists]
      exact .proceed hok hs herror (settled_finish false)
  | keyMissing =>
      rw [hmissing]
      exact .proceed hok hs herror (settled_finish false)

/-! ### Without an error -/

section Proceed

variable {x : WithdrawRow} {cas : ℕ} {userProfile : UserAccount}

/-- What the processor does next. -/
def performed (fee : ℤ → ℤ) (st : WithdrawDb) (s : PayoutRun) : WithdrawDb × PayoutRun :=
  perform st ((s.processor.act fee).map fun processor => { s with processor := processor })

lemma stepOk_setInsufficientFunds (hok : StatesOk st) (hs : s.Knows st) (herror : s.error = none)
    (hphase : s.processor.phase = .setInsufficientFunds x cas) :
    StepOk st s (performed fee st s) := by
  have hknows := hs.phase herror
  rw [KnowsPhase, hphase] at hknows
  rw [performed, WithdrawRequestProcessor.act, hphase]
  apply StepOk.setRequest hok hknows
  · exact trivial
  · exact fun h => absurd h Bool.false_ne_true
  · intro st' hst _ _ _ hok' hwas
    exact .settle hs hst hok' hwas herror rfl rfl settled_next
  · exact StepOk.refused hok hs herror rfl rfl

/-- A lock over a profile that was not locked. -/
lemma lockedFor_push {userProfileCas : ℕ} (key : WithdrawFundsRequestKey)
    (hread : (st (.userAccount x.user)).docAt userProfileCas = some userProfile)
    (hlock : userProfile.lockedWithdrawingFunds = none)
    (hcas : userProfileCas = (st (.userAccount x.user)).cas) (n : WithdrawNote) :
    LockedFor (st.push (.userAccount x.user) n (userProfile.lockedToWithdraw key)) x.user
      (userProfileCas + 1) (userProfile.lockedToWithdraw key) := by
  refine ⟨Store.docAt_push_next hcas n _, ?_⟩
  have hsame : (userProfile.lockedToWithdraw key).unlockedWithoutDebitting = userProfile := by
    rw [UserAccount.lockedToWithdraw, UserAccount.unlockedWithoutDebitting, ← hlock]
  rw [hsame, Nat.add_sub_cancel]
  exact Cell.docAt_mono (Store.le_push _ _ _ _ _) hread

lemma stepOk_lockUserProfile {userProfileCas : ℕ} (hok : StatesOk st) (hs : s.Knows st)
    (herror : s.error = none)
    (hphase : s.processor.phase = .lockUserProfile x cas userProfileCas userProfile) :
    StepOk st s (performed fee st s) := by
  have hknows := hs.phase herror
  rw [KnowsPhase, hphase] at hknows
  obtain ⟨hstate, hread, hlock⟩ := hknows
  rw [performed, WithdrawRequestProcessor.act, hphase]
  apply perform_set (P := fun r : WithdrawDb × PayoutRun => StepOk st s r)
    (Cell.docAt_bounds hread).1
  · intro hcas
    apply StepOk.proceedAfterAccount hok hs herror
    refine ⟨⟨hstate.mono (Store.le_push _ _ _ _), ?_⟩, rfl⟩
    exact lockedFor_push x.key hread hlock hcas _
  · intro r hr
    cases r with
    | stored c => exact absurd rfl (hr c)
    | keyExists => exact .proceed hok hs herror settled_next
    | keyMissing => exact .proceed hok hs herror (settled_finish false)

/-- The version that is written is the one that `sendtoaddress` is issued for. -/
lemma stepOk_setProcessing (hok : StatesOk st) (hs : s.Knows st) (herror : s.error = none)
    (hphase : s.processor.phase = .setProcessing x cas userProfile) :
    StepOk st s (performed fee st s) := by
  have hknows := hs.phase herror
  rw [KnowsPhase, hphase] at hknows
  rw [performed, WithdrawRequestProcessor.act, hphase]
  apply StepOk.setRequest hok hknows.1
  · exact trivial
  · exact fun h => absurd h Bool.false_ne_true
  · intro st' hst hcas hcas' hstate hok' hwas
    constructor
    · exact hok'
    · constructor
      · exact fun _ => ⟨hstate, hknows.2.mono hst⟩
      · intro e he
        exact absurd (herror.symm.trans he) (Option.some_ne_none e).symm
      · exact fun v hv => (hs.sent v hv).mono hst
      · exact (hs.mono hst).unlocked
    · refine .inr ⟨x.key, by rw [hcas', ← hcas]; exact Nat.lt_succ_self cas, ?_⟩
      have hold : s.owned = s.sentVersions := by
        rw [PayoutRun.owned, hphase]
        exact List.append_nil _
      rw [hold, ← hcas]
      exact List.Sublist.refl _
    · exact fun v hv => hv
    · exact hwas
  · exact StepOk.refused hok hs herror rfl rfl

lemma stepOk_setProcessedButProfileNeedsDeductingAndUnlocking (hok : StatesOk st)
    (hs : s.Knows st) (herror : s.error = none)
    (hphase : s.processor.phase =
      .setProcessedButProfileNeedsDeductingAndUnlocking x cas userProfile) :
    StepOk st s (performed fee st s) := by
  have hknows := hs.phase herror
  rw [KnowsPhase, hphase] at hknows
  rw [performed, WithdrawRequestProcessor.act, hphase]
  apply StepOk.setRequest hok hknows.1
  · exact trivial
  · exact fun _ => .inr hknows.2
  · intro st' hst _ _ hstate hok' hwas
    exact .settle hs hst hok' hwas herror rfl rfl (settled_continueAtDeduct hstate)
  · exact StepOk.refused hok hs herror rfl rfl

lemma stepOk_deductAmountAndUnlock (hok : StatesOk st) (hs : s.Knows st) (herror : s.error = none)
    (hphase : s.processor.phase = .deductAmountAndUnlock x cas userProfile) :
    StepOk st s (performed fee st s) := by
  have hknows := hs.phase herror
  rw [KnowsPhase, hphase] at hknows
  rw [performed, WithdrawRequestProcessor.act, hphase]
  -- nothing is known of the CAS in a run that has taken the request up
  apply perform_set_any (P := fun r : WithdrawDb × PayoutRun => StepOk st s r)
  · apply StepOk.proceedAfterAccount hok hs herror
    exact ⟨InState.mono (Store.le_push _ _ _ _) hknows, rfl⟩
  · intro r
    cases r with
    | stored c =>
        apply StepOk.proceed hok hs herror
        exact ⟨hknows, rfl⟩
    | keyExists => exact .proceed hok hs herror (settled_finish false)
    | keyMissing => exact .proceed hok hs herror (settled_finish false)

lemma stepOk_setProcessedAndDone (hok : StatesOk st) (hs : s.Knows st) (herror : s.error = none)
    (hphase : s.processor.phase = .setProcessedAndDone x cas) :
    StepOk st s (performed fee st s) := by
  have hknows := hs.phase herror
  rw [KnowsPhase, hphase] at hknows
  rw [performed, WithdrawRequestProcessor.act, hphase]
  apply StepOk.setRequest hok hknows
  · exact trivial
  · exact fun _ => .inl rfl
  · intro st' hst _ _ _ hok' hwas
    exact .settle hs hst hok' hwas herror rfl rfl settled_next
  · exact StepOk.refused hok hs herror rfl rfl

/-- bitcoind is asked to send, and answers in one way or the other. -/
lemma stepOk_sendToAddress (hok : StatesOk st) (hs : s.Knows st) (herror : s.error = none)
    (hphase : s.processor.phase = .sendToAddress x cas userProfile) (bitcoindAnswers : Bool) :
    StepOk st s (st, s.sendToAddress x cas userProfile bitcoindAnswers) := by
  have hknows := hs.phase herror
  rw [KnowsPhase, hphase] at hknows
  have hmine : (x.key, cas) ∈ s.sentVersions ++ [(x.key, cas)] :=
    List.mem_append_right _ (List.mem_singleton_self _)
  constructor
  · exact hok
  · constructor
    · exact fun _ => ⟨hknows.1, hmine⟩
    · intro e he
      cases bitcoindAnswers with
      | true => exact absurd he (Option.not_mem_none e)
      | false =>
          obtain rfl := Option.some.inj he
          exact ⟨⟨⟨hknows.1, hmine⟩, hknows.2⟩, rfl⟩
    · intro v hv
      rcases List.mem_append.1 hv with hold | hnew
      · exact hs.sent v hold
      · rw [List.mem_singleton.1 hnew]
        exact hknows.1
    · exact hs.unlocked
  · left
    have hold : s.owned = s.sentVersions ++ [(x.key, cas)] := by
      rw [PayoutRun.owned, hphase]
      rfl
    have hnew : (s.sendToAddress x cas userProfile bitcoindAnswers).owned =
        s.sentVersions ++ [(x.key, cas)] := List.append_nil _
    rw [hold, hnew]
  · exact fun v hv => List.mem_append_left _ hv
  · exact fun k hk => .inl hk

lemma stepOk_getWithdrawalRequest (hok : StatesOk st) (hs : s.Knows st) (herror : s.error = none)
    (hphase : s.processor.phase = .getWithdrawalRequest k) :
    StepOk st s (performed fee st s) := by
  rw [performed, WithdrawRequestProcessor.act, hphase]
  exact .proceed hok hs herror (settled_afterWithdrawalRequest k)

lemma stepOk_getUserProfile (hok : StatesOk st) (hs : s.Knows st) (herror : s.error = none)
    (hphase : s.processor.phase = .getUserProfile x cas) : StepOk st s (performed fee st s) := by
  have hknows := hs.phase herror
  rw [KnowsPhase, hphase] at hknows
  rw [performed, WithdrawRequestProcessor.act, hphase]
  exact .proceed hok hs herror (settled_afterUserProfile hknows.1 hknows.2)

lemma stepOk_performed (hok : StatesOk st) (hs : s.Knows st) (herror : s.error = none)
    (hsending : s.processor.phase.sending = []) : StepOk st s (performed fee st s) := by
  cases hphase : s.processor.phase with
  | getWithdrawalRequest key => exact stepOk_getWithdrawalRequest hok hs herror hphase
  | getUserProfile x cas => exact stepOk_getUserProfile hok hs herror hphase
  | setInsufficientFunds x cas => exact stepOk_setInsufficientFunds hok hs herror hphase
  | lockUserProfile x cas userProfileCas userProfile =>
      exact stepOk_lockUserProfile hok hs herror hphase
  | setProcessing x cas userProfile => exact stepOk_setProcessing hok hs herror hphase
  | sendToAddress x cas userProfile =>
      rw [hphase] at hsending
      exact absurd hsending (List.cons_ne_nil _ _)
  | setProcessedButProfileNeedsDeductingAndUnlocking x cas userProfile =>
      exact stepOk_setProcessedButProfileNeedsDeductingAndUnlocking hok hs herror hphase
  | deductAmountAndUnlock x cas userProfile =>
      exact stepOk_deductAmountAndUnlock hok hs herror hphase
  | setProcessedAndDone x cas => exact stepOk_setProcessedAndDone hok hs herror hphase
  | calculationIterationComplete =>
      rw [performed, WithdrawRequestProcessor.act, hphase]
      exact .refl hok hs
  | finished success =>
      rw [performed, WithdrawRequestProcessor.act, hphase]
      exact .refl hok hs

lemma stepOk_proceed_of_none (hok : StatesOk st) (hs : s.Knows st) (herror : s.error = none)
    (bitcoindAnswers : Bool) : StepOk st s (perform st (s.proceed fee bitcoindAnswers)) := by
  unfold PayoutRun.proceed
  split
  · next e he => exact absurd (herror.symm.trans he) (Option.some_ne_none e).symm
  · split
    · next x cas userProfile hphase =>
        exact stepOk_sendToAddress hok hs herror hphase bitcoindAnswers
    · next hother =>
        apply stepOk_performed hok hs herror
        cases hphase : s.processor.phase with
        | sendToAddress x cas userProfile => exact absurd hphase (hother x cas userProfile)
        | _ => rfl

end Proceed

/-! ### With an error -/

section Error

variable {e : BitcoindError}

lemma WayToHandleBitcoindCommunicationsError.next_state
    (way : WayToHandleBitcoindCommunicationsError) :
    WithdrawFundsRequestState.Next .processing way.state := by
  cases way <;> exact trivial

/-- The user wants the request to be set to a state. -/
lemma stepOk_setWithdrawalRequestState (hok : StatesOk st) (hs : s.Knows st) (he : e ∈ s.error)
    {way : WayToHandleBitcoindCommunicationsError}
    (hphase : e.phase = .setWithdrawalRequestState way) :
    StepOk st s (perform st (s.handleError e)) := by
  obtain ⟨hknows, hsending⟩ := hs.error e he
  rw [BitcoindError.Knows, hphase] at hknows
  obtain ⟨⟨hstate, hmine⟩, hlocked⟩ := hknows
  rw [PayoutRun.handleError, hphase]
  apply StepOk.setRequest hok hstate
  · exact way.next_state
  · exact fun _ => .inr hmine
  · intro st' hst _ _ _ hok' hwas
    constructor
    · exact hok'
    · constructor
      · exact fun h => absurd h (Option.some_ne_none _)
      · intro e' he'
        obtain rfl := Option.some.inj he'
        exact ⟨hlocked.mono hst, hsending⟩
      · exact fun v hv => (hs.sent v hv).mono hst
      · exact (hs.mono hst).unlocked
    · exact .inl (List.Sublist.refl _)
    · exact fun v hv => hv
    · exact hwas
  · intro r hr
    cases r with
    | stored c => exact absurd rfl (hr c)
    | keyExists => exact .finish hok hs false
    | keyMissing => exact .finish hok hs false

lemma settled_afterUnlock {sent : List (WithdrawFundsRequestKey × ℕ)}
    (processor : WithdrawRequestProcessor) (continues : Bool) :
    (if continues then processor.processNextWithdrawalRequestOrEmitFinishedIfNoMore
      else processor.finish true).Settled st sent := by
  cases continues with
  | true => exact settled_next
  | false => exact settled_finish true

lemma stepOk_unlockUserProfileWithoutDebitting (hok : StatesOk st) (hs : s.Knows st)
    (he : e ∈ s.error) {way : WayToHandleBitcoindCommunicationsError}
    (hphase : e.phase = .unlockUserProfileWithoutDebitting way) :
    StepOk st s (perform st (s.handleError e)) := by
  obtain ⟨hlocked, -⟩ := hs.error e he
  rw [BitcoindError.Knows, hphase] at hlocked
  rw [PayoutRun.handleError, hphase]
  apply perform_set (P := fun r : WithdrawDb × PayoutRun => StepOk st s r)
    (Cell.docAt_bounds hlocked.1).1
  · intro hcas
    have hgrows := Store.le_push st (.userAccount e.row.user) .other
      e.userProfile.unlockedWithoutDebitting
    have hnext : (if way.continues then
        s.processor.processNextWithdrawalRequestOrEmitFinishedIfNoMore
        else s.processor.finish true).Settled (st.push (.userAccount e.row.user) .other
          e.userProfile.unlockedWithoutDebitting) s.sentVersions :=
      settled_afterUnlock s.processor way.continues
    constructor
    · exact hok.push_account _ _ _
    · constructor
      · exact fun _ => hnext.1
      · exact fun e' he' => absurd he' (Option.not_mem_none e')
      · exact fun v hv => (hs.sent v hv).mono hgrows
      · intro v hv
        rcases List.mem_append.1 hv with hold | hnew
        · exact (hs.mono hgrows).unlocked v hold
        · rw [List.mem_singleton.1 hnew]
          exact ⟨_, (hlocked.mono hgrows).2, Store.docAt_push_next hcas _ _⟩
    · left
      have hnew : (s.afterUnlock e way (.stored
          (s.processor.currentUserProfileInLockedWithdrawingStateCas + 1))).owned =
          s.sentVersions ++ [] := by
        rw [PayoutRun.owned]
        exact congrArg _ hnext.2
      rw [hnew, List.append_nil]
      exact List.sublist_append_left _ _
    · exact fun v hv => hv
    · exact fun k hk => .inl hk.of_push_account
  · intro r hr
    cases r with
    | stored c => exact absurd rfl (hr c)
    | keyExists => exact .finish hok hs false
    | keyMissing => exact .finish hok hs false

lemma stepOk_handleError (hok : StatesOk st) (hs : s.Knows st) (he : e ∈ s.error) :
    StepOk st s (perform st (s.handleError e)) := by
  cases hphase : e.phase with
  | askTheUser =>
      rw [PayoutRun.handleError, hphase]
      exact .refl hok hs
  | setWithdrawalRequestState way => exact stepOk_setWithdrawalRequestState hok hs he hphase
  | unlockUserProfileWithoutDebitting way =>
      exact stepOk_unlockUserProfileWithoutDebitting hok hs he hphase

lemma stepOk_userWants (hok : StatesOk st) (hs : s.Knows st)
    (way : WayToHandleBitcoindCommunicationsError) : StepOk st s (st, s.userWants way) := by
  unfold PayoutRun.userWants
  split
  · next row cas userProfile he =>
      obtain ⟨hknows, hsending⟩ := hs.error _ he
      constructor
      · exact hok
      · constructor
        · exact fun h => absurd h (Option.some_ne_none _)
        · intro e' he'
          obtain rfl := Option.some.inj he'
          exact ⟨hknows, hsending⟩
        · exact hs.sent
        · exact hs.unlocked
      · exact .inl (List.Sublist.refl _)
      · exact fun v hv => hv
      · exact fun k hk => .inl hk
  · exact .refl hok hs

end Error

/-- **A step of a run.** -/
lemma stepOk_act (hok : StatesOk st) (hs : s.Knows st) (x : PayoutInput) :
    StepOk st s (perform st (s.act fee x)) := by
  have hsame : st ≤ st := fun _ => Cell.le_refl _
  cases x with
  | processWithdrawalRequests viewQueryResults uninitializedCas =>
      exact .settle hs hsame hok (fun _ h => .inl h) rfl rfl rfl settled_next
  | proceedOntoExecutionIteration =>
      rw [PayoutRun.act]
      split
      · next herror _ => exact .proceed hok hs herror settled_next
      · exact .refl hok hs
  | proceed bitcoindAnswers =>
      cases he : s.error with
      | none => exact stepOk_proceed_of_none hok hs he bitcoindAnswers
      | some e =>
          rw [PayoutRun.act, PayoutRun.proceed, he]
          exact stepOk_handleError hok hs he
  | userWantsUsToHandleTheBitcoindCommunicationsErrorThisWay way =>
      exact stepOk_userWants hok hs way
  | fail => exact .finish hok hs false
  | newRequest k amount bitcoinKey => exact .refl hok hs
  | writeProfile username profile => exact .refl hok hs

end Step

end Autobackup.Abc2
