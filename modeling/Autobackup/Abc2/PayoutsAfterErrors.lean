import Autobackup.Abc2.PayoutSteps
import Autobackup.Foundation.OwnedVersions
import Mathlib.Order.Interval.Finset.Nat
import Mathlib.Tactic.FinCases

/-!
# Payouts after errors

Each version of a request in state `processing` is sent once, at most, and in front of it there is a
version in state `unprocessed`: the first one, or one that was reverted to.  So `sendtoaddress` is
issued once more than the user has wanted that, at most, whatever bitcoind answers, and however many
runs are going on at the same time (`payoutsOk`).

The states of a request over its versions are what the proof follows: `unprocessed`, `processing`,
and then what the answer or the user's choice makes of it.  A run that was stopped behind
`sendtoaddress` leaves the request in `processing`, which no other run takes up; so the user's
choice is the only way back.
-/

namespace Autobackup.Abc2

open WithdrawRequestProcessor

/-! ## Any number of runs -/

namespace PayoutClient

variable {st st' : WithdrawDb} {fee : ℤ → ℤ}

def sentVersions : PayoutClient → List (WithdrawFundsRequestKey × ℕ)
  | .run s => s.sentVersions
  | .otherPrograms => []

/-- How often `sendtoaddress` was issued for the request. -/
def sends (client : PayoutClient) (k : WithdrawFundsRequestKey) : ℕ :=
  client.sentVersions.countP fun v => v.1 = k

def unlockedVersions : PayoutClient → List (Username × ℕ)
  | .run s => s.unlockedVersions
  | .otherPrograms => []

def Knows (client : PayoutClient) (st : WithdrawDb) : Prop :=
  match client with
  | .run s => s.Knows st
  | .otherPrograms => True

lemma Knows.mono {client : PayoutClient} (hst : st ≤ st') (h : client.Knows st) :
    client.Knows st' := by
  cases client with
  | run s => exact PayoutRun.Knows.mono hst h
  | otherPrograms => trivial

/-- The versions that it has sent or sends next. -/
def owned : PayoutClient → List (WithdrawKey × ℕ)
  | .run s => s.owned.map fun v => (.withdrawFundsRequest v.1, v.2)
  | .otherPrograms => []

/-- What a step keeps, and what it adds. -/
structure StepOk (st : WithdrawDb) (client : PayoutClient) (r : WithdrawDb × PayoutClient) :
    Prop where
  requests : StatesOk r.1
  knows : r.2.Knows r.1
  owned : r.2.owned.Sublist client.owned ∨ ∃ k, (st k).cas < (r.1 k).cas ∧
    r.2.owned.Sublist (client.owned ++ [(k, (st k).cas + 1)])
  sentVersions : ∀ v ∈ client.sentVersions, v ∈ r.2.sentVersions
  wasSent : ∀ k, WasSent r.1 k → WasSent st k ∨ ∃ c, (k, c) ∈ client.sentVersions

lemma stepOk_run {s : PayoutRun} {r : WithdrawDb × PayoutRun} (h : Abc2.StepOk st s r) :
    StepOk st (.run s) (r.1, .run r.2) where
  requests := h.requests
  knows := h.knows
  owned := by
    rcases h.owned with hsame | ⟨k, hwritten, hnew⟩
    · exact .inl (hsame.map _)
    · refine .inr ⟨.withdrawFundsRequest k, hwritten, ?_⟩
      have hmap := hnew.map fun v : WithdrawFundsRequestKey × ℕ =>
        (WithdrawKey.withdrawFundsRequest v.1, v.2)
      rw [List.map_append] at hmap
      exact hmap
  sentVersions := h.sentVersions
  wasSent := h.wasSent

lemma stepOk_otherPrograms (hok : StatesOk st') (hwas : ∀ k, WasSent st' k → WasSent st k) :
    StepOk st .otherPrograms (st', .otherPrograms) where
  requests := hok
  knows := trivial
  owned := .inl (List.Sublist.refl _)
  sentVersions _ hv := hv
  wasSent k hk := .inl (hwas k hk)

lemma stepOk_newRequest (hok : StatesOk st) (k : WithdrawFundsRequestKey) (amount : ℤ)
    (bitcoinKey : BitcoinKey) :
    StepOk st .otherPrograms
      (perform st (act fee .otherPrograms (.newRequest k amount bitcoinKey))) := by
  apply perform_add (P := fun r : WithdrawDb × PayoutClient => StepOk st .otherPrograms r)
  · intro habsent
    apply stepOk_otherPrograms
    · apply hok.push_request
      · exact fun _ => rfl
      · intro before hbefore
        have hbounds := Cell.docAt_bounds hbefore
        omega
    · rintro k' ⟨c, state, ⟨request, hrequest, hstate⟩, hsent⟩
      by_cases hk : WithdrawKey.withdrawFundsRequest k' = .withdrawFundsRequest k
      · cases hk
        rw [Store.push_self, Cell.docAt_push] at hrequest
        split at hrequest
        · obtain rfl := Option.some.inj hrequest
          rw [← hstate] at hsent
          exact absurd hsent Bool.false_ne_true
        · exact ⟨c, state, ⟨request, hrequest, hstate⟩, hsent⟩
      · rw [Store.push_of_ne st hk] at hrequest
        exact ⟨c, state, ⟨request, hrequest, hstate⟩, hsent⟩
  · exact fun _ => stepOk_otherPrograms hok fun _ hk => hk

lemma stepOk_act (hok : StatesOk st) {client : PayoutClient} (h : client.Knows st)
    (x : PayoutInput) : StepOk st client (perform st (act fee client x)) := by
  have hidle : StepOk st .otherPrograms (st, .otherPrograms) :=
    stepOk_otherPrograms hok fun _ hk => hk
  cases client with
  | run s =>
      rw [PayoutClient.act, perform_map]
      exact stepOk_run (Abc2.stepOk_act hok h x)
  | otherPrograms =>
      cases x with
      | newRequest k amount bitcoinKey => exact stepOk_newRequest hok k amount bitcoinKey
      | writeProfile username profile =>
          apply perform_set_any (P := fun r : WithdrawDb × PayoutClient =>
            StepOk st .otherPrograms r)
          · exact stepOk_otherPrograms (hok.push_account _ _ _) fun _ hk => hk.of_push_account
          · exact fun _ => hidle
      | processWithdrawalRequests viewQueryResults uninitializedCas => exact hidle
      | proceedOntoExecutionIteration => exact hidle
      | proceed bitcoindAnswers => exact hidle
      | userWantsUsToHandleTheBitcoindCommunicationsErrorThisWay way => exact hidle
      | fail => exact hidle

lemma sends_le_countP_owned (client : PayoutClient) (k : WithdrawFundsRequestKey) :
    client.sends k ≤ client.owned.countP fun v => v.1 = .withdrawFundsRequest k := by
  cases client with
  | run s =>
      have hcount : (owned (.run s)).countP (fun v => v.1 = .withdrawFundsRequest k) =
          s.owned.countP fun v => v.1 = k := by
        rw [owned, List.countP_map]
        apply List.countP_congr
        intro v _
        simp
      rw [hcount, PayoutRun.owned, List.countP_append]
      exact Nat.le_add_right _ _
  | otherPrograms => exact Nat.zero_le _

lemma Knows.inState_of_mem_owned {client : PayoutClient} (h : client.Knows st)
    {k : WithdrawFundsRequestKey} {c : ℕ} (hc : (.withdrawFundsRequest k, c) ∈ client.owned) :
    InState st k c .processing := by
  cases client with
  | run s =>
      obtain ⟨v, hv, heq⟩ := List.mem_map.1 hc
      cases heq
      rcases List.mem_append.1 hv with hsent | hsending
      · exact PayoutRun.Knows.sent h v hsent
      · cases herror : s.error with
        | some e =>
            rw [(PayoutRun.Knows.error h e herror).2] at hsending
            exact absurd hsending List.not_mem_nil
        | none =>
            have hknows := PayoutRun.Knows.phase h herror
            unfold KnowsPhase at hknows
            cases hphase : s.processor.phase with
            | sendToAddress x cas userProfile =>
                rw [hphase] at hknows hsending
                rw [List.mem_singleton.1 hsending]
                exact hknows.1
            | _ =>
                rw [hphase] at hsending
                exact absurd hsending List.not_mem_nil
  | otherPrograms => exact absurd hc List.not_mem_nil

/-- No run has begun. -/
def Idle : PayoutClient → Prop
  | .run s => s.processor.phase = .finished false ∧ s.error = none ∧ s.sentVersions = [] ∧
      s.unlockedVersions = []
  | .otherPrograms => True

lemma Idle.knows {client : PayoutClient} (h : client.Idle) (st : WithdrawDb) : client.Knows st := by
  cases client with
  | run s =>
      obtain ⟨hphase, herror, hsent, hunlocked⟩ := h
      constructor
      · intro _
        rw [KnowsPhase, hphase]
        trivial
      · exact fun e he => absurd (herror.symm.trans he) (Option.some_ne_none e).symm
      · exact fun v hv => absurd (hsent ▸ hv) List.not_mem_nil
      · exact fun v hv => absurd (hunlocked ▸ hv) List.not_mem_nil
  | otherPrograms => trivial

lemma Idle.owned_eq_nil {client : PayoutClient} (h : client.Idle) : client.owned = [] := by
  cases client with
  | run s =>
      obtain ⟨hphase, _, hsent, _⟩ := h
      rw [owned, PayoutRun.owned, hphase, hsent]
      rfl
  | otherPrograms => rfl

end PayoutClient

/-- The versions of the request that were reverted to: those in state `unprocessed` that are not the
first. -/
def revertedVersions (st : WithdrawDb) (k : WithdrawFundsRequestKey) : Finset ℕ :=
  (Finset.Icc 2 (st (.withdrawFundsRequest k)).cas).filter fun c =>
    ((st (.withdrawFundsRequest k)).docAt c).any fun request => request.state = .unprocessed

/-- **Payouts after errors.**

The first part counts what was sent against the choices of the user; the others say that nothing
that is done comes back, that what is processed was sent, and that unlocking after an error takes
nothing. -/
structure PayoutsOk {ι : Type} (w : Payouts ι) : Prop where
  sends : ∀ (k : WithdrawFundsRequestKey) (T : Finset ι),
    ∑ i ∈ T, (w.client i).sends k ≤ (revertedVersions w.store k).card + 1
  final : ∀ k c request, (w.store (.withdrawFundsRequest k)).docAt c = some request →
    request.state.isDone = true → c = (w.store (.withdrawFundsRequest k)).cas
  wasSent : ∀ k request, (w.store (.withdrawFundsRequest k)).current = some request →
    request.state.isSent = true → ∃ i, 0 < (w.client i).sends k
  unlocked : ∀ i, ∀ v ∈ (w.client i).unlockedVersions, ∃ before,
    (w.store (.userAccount v.1)).docAt (v.2 - 1) = some before ∧
      (w.store (.userAccount v.1)).docAt (v.2 + 1) = some before

section Versions

variable {st : WithdrawDb} {k : WithdrawFundsRequestKey} {c : ℕ}

/-- The versions in state `processing`. -/
noncomputable def processingVersions (st : WithdrawDb) (k : WithdrawFundsRequestKey) : Finset ℕ :=
  open Classical in
  (Finset.range ((st (.withdrawFundsRequest k)).cas + 1)).filter fun c => InState st k c .processing

lemma mem_processingVersions : c ∈ processingVersions st k ↔ InState st k c .processing := by
  classical
  rw [processingVersions, Finset.mem_filter, Finset.mem_range, and_iff_right_iff_imp]
  rintro ⟨request, hrequest, -⟩
  exact Nat.lt_succ_of_le (Cell.docAt_bounds hrequest).2

lemma mem_revertedVersions (h : InState st k c .unprocessed) (hc : 2 ≤ c) :
    c ∈ revertedVersions st k := by
  obtain ⟨request, hrequest, hstate⟩ := h
  rw [revertedVersions, Finset.mem_filter, Finset.mem_Icc, hrequest]
  exact ⟨⟨hc, (Cell.docAt_bounds hrequest).2⟩, decide_eq_true hstate⟩

/-- In front of a version in state `processing` there is one in state `unprocessed`. -/
lemma StatesOk.before_processing (h : StatesOk st) (hc : InState st k c .processing) :
    ∃ b, c = b + 1 ∧ InState st k b .unprocessed := by
  obtain ⟨request, hrequest, hstate⟩ := id hc
  have hbounds := Cell.docAt_bounds hrequest
  obtain ⟨b, rfl⟩ : ∃ b, c = b + 1 := ⟨c - 1, by omega⟩
  refine ⟨b, rfl, ?_⟩
  rcases Nat.eq_zero_or_pos b with rfl | hb
  · rw [h.filed k request hrequest] at hstate
    cases hstate
  · obtain ⟨state, hbefore, hnext⟩ := h.before hc hb
    cases state with
    | unprocessed => exact hbefore
    | _ => exact hnext.elim

lemma StatesOk.card_processingVersions (h : StatesOk st) (k : WithdrawFundsRequestKey) :
    (processingVersions st k).card ≤ (revertedVersions st k).card + 1 := by
  have hinto : ∀ c ∈ processingVersions st k, c - 1 ∈ insert 1 (revertedVersions st k) := by
    intro c hc
    obtain ⟨b, rfl, hb⟩ := h.before_processing (mem_processingVersions.1 hc)
    obtain ⟨request, hrequest, _⟩ := id hb
    have hbounds := Cell.docAt_bounds hrequest
    rw [Nat.add_sub_cancel, Finset.mem_insert]
    rcases Nat.lt_or_ge b 2 with hlt | hge
    · exact .inl (by omega)
    · exact .inr (mem_revertedVersions hb hge)
  have hinj : Set.InjOn (fun c => c - 1) (processingVersions st k : Set ℕ) := by
    intro c hc c' hc' heq
    obtain ⟨b, rfl, _⟩ := h.before_processing (mem_processingVersions.1 hc)
    obtain ⟨b', rfl, _⟩ := h.before_processing (mem_processingVersions.1 hc')
    exact congrArg (· + 1) heq
  exact (Finset.card_le_card_of_injOn _ hinto hinj).trans (Finset.card_insert_le _ _)

end Versions

section World

variable {ι : Type} [DecidableEq ι] {fee : ℤ → ℤ} {w₀ w : Payouts ι}

/-- Whatever run has sent the request, it has sent it. -/
lemma exists_sent_of_wasSent (hidle : ∀ k, (w₀.store (.withdrawFundsRequest k)).cas = 0)
    (hsteps : ∀ w : Payouts ι, Reaches (PayoutClient.act fee) anyStep w₀ w → ∀ i x,
      PayoutClient.StepOk w.store (w.client i)
        (perform w.store (PayoutClient.act fee (w.client i) x)))
    (hreach : Reaches (PayoutClient.act fee) anyStep w₀ w) {k : WithdrawFundsRequestKey}
    (h : WasSent w.store k) : ∃ i c, (k, c) ∈ (w.client i).sentVersions := by
  induction hreach with
  | start =>
      obtain ⟨c, state, ⟨request, hrequest, _⟩, _⟩ := h
      have hbounds := Cell.docAt_bounds hrequest
      have habsent := hidle k
      omega
  | @step w i x hw _ ih =>
      have hstep := hsteps w hw i x
      have hkept (j : ι) (c : ℕ) (hc : (k, c) ∈ (w.client j).sentVersions) :
          (k, c) ∈ ((w.step (PayoutClient.act fee) i x).client j).sentVersions := by
        by_cases hj : j = i
        · subst hj
          simpa [World.step] using hstep.sentVersions _ hc
        · simpa [World.step, hj] using hc
      rcases hstep.wasSent k h with hbefore | ⟨c, hc⟩
      · obtain ⟨j, c, hc⟩ := ih hbefore
        exact ⟨j, c, hkept j c hc⟩
      · exact ⟨i, c, hkept i c hc⟩

/-- **Nothing is sent again, unless the user wants it.**  Any number of runs may go on at the same
time and be stopped anywhere, bitcoind may answer with an error whether it has sent or not, and
other programs file requests and write profiles.  What is done is never taken up again, what is
processed was sent by a run, and a profile that is unlocked after an error is what it was before.

That a payment is not repeated has to hold although nobody can tell from an error whether bitcoind
has sent.  The user can, by looking, and the program takes their word for it; the number of their
choices is therefore in the bound. -/
theorem payoutsOk (hstart : ∀ k, (w₀.store (.withdrawFundsRequest k)).cas = 0)
    (hidle : ∀ i, (w₀.client i).Idle)
    (hreach : Reaches (PayoutClient.act fee) anyStep w₀ w) : PayoutsOk w := by
  have hinvariant (w : Payouts ι) (hw : Reaches (PayoutClient.act fee) anyStep w₀ w) :
      StatesOk w.store ∧ ∀ i, (w.client i).Knows w.store := by
    apply hw.threadModular (I := StatesOk) (L := fun st client => client.Knows st)
    · exact fun _ _ _ hst _ h => h.mono hst
    · intro st client x _ hok h
      have hstep : PayoutClient.StepOk st client (perform st (PayoutClient.act fee client x)) :=
        PayoutClient.stepOk_act hok h x
      exact ⟨hstep.requests, hstep.knows⟩
    · exact statesOk_of_absent hstart
    · exact fun i => (hidle i).knows _
  have hsteps (w : Payouts ι) (hw : Reaches (PayoutClient.act fee) anyStep w₀ w) (i : ι)
      (x : PayoutInput) : PayoutClient.StepOk w.store (w.client i)
        (perform w.store (PayoutClient.act fee (w.client i) x)) :=
    PayoutClient.stepOk_act (hinvariant w hw).1 ((hinvariant w hw).2 i) x
  have howned : w.OwnedOnce PayoutClient.owned := by
    have hknown : Reaches (PayoutClient.act fee)
        (fun st client _ => StatesOk st ∧ client.Knows st) w₀ w :=
      hreach.strengthen fun w i x hw _ => ⟨(hinvariant w hw).1, (hinvariant w hw).2 i⟩
    apply hknown.ownedOnce
    · intro st client x h
      exact (PayoutClient.stepOk_act h.1 h.2 x).owned
    · exact .of_nil fun i => (hidle i).owned_eq_nil
  obtain ⟨hok, hknows⟩ := hinvariant w hreach
  constructor
  · intro k T
    have hversions (i : ι) (v : WithdrawKey × ℕ) (hv : v ∈ (w.client i).owned)
        (hk : v.1 = .withdrawFundsRequest k) : v.2 ∈ processingVersions w.store k := by
      rw [mem_processingVersions]
      apply (hknows i).inState_of_mem_owned
      rw [← hk]
      exact hv
    calc ∑ i ∈ T, (w.client i).sends k
        ≤ ∑ i ∈ T, (w.client i).owned.countP fun v => v.1 = .withdrawFundsRequest k :=
          Finset.sum_le_sum fun i _ => (w.client i).sends_le_countP_owned k
      _ ≤ (processingVersions w.store k).card := howned.sum_count_le hversions T
      _ ≤ (revertedVersions w.store k).card + 1 := hok.card_processingVersions k
  · intro k c request hrequest hdone
    exact hok.final ⟨request, hrequest, rfl⟩ hdone
  · intro k request hrequest hsent
    obtain ⟨i, c, hc⟩ := exists_sent_of_wasSent hstart hsteps hreach
      ⟨_, _, ⟨request, hrequest, rfl⟩, hsent⟩
    exact ⟨i, List.countP_pos_iff.2 ⟨(k, c), hc, decide_eq_true rfl⟩⟩
  · intro i v hv
    cases hclient : w.client i with
    | run s =>
        have h := hknows i
        rw [hclient] at h hv
        exact PayoutRun.Knows.unlocked h v hv
    | otherPrograms =>
        rw [hclient] at hv
        exact absurd hv List.not_mem_nil

end World

/-! ## A payout that is reverted, and made by another run -/

def idlePayoutRun : PayoutRun where
  processor := (processWithdrawalRequests [] 0).finish false

/-- Two runs, and the other programs. -/
def twoPayoutRuns : Payouts (Option Bool) where
  store _ := Cell.absent
  client
    | some _ => .run idlePayoutRun
    | none => .otherPrograms

lemma twoPayoutRuns_idle (i : Option Bool) : (twoPayoutRuns.client i).Idle := by
  cases i with
  | none => exact trivial
  | some run => exact ⟨rfl, rfl, rfl, rfl⟩

/-- One run that takes up a request. -/
def payout (run : Bool) (bitcoindAnswers : Bool) : List (Option Bool × PayoutInput) :=
  [(some run, .processWithdrawalRequests [⟨"anna", 0⟩] 0)] ++
    List.replicate 2 (some run, .proceed true) ++
    [(some run, .proceedOntoExecutionIteration)] ++ List.replicate 4 (some run, .proceed true) ++
    [(some run, .proceed bitcoindAnswers)]

def revertedPayout : List (Option Bool × PayoutInput) :=
  [(none, .newRequest ⟨"anna", 0⟩ 3000000 "1abc"),
    (none, .writeProfile "anna" { balanceInSatoshis := 10000000 })] ++ payout false false ++
  [(some false, .userWantsUsToHandleTheBitcoindCommunicationsErrorThisWay
    .RevertWithdrawalRequestStateToUnprocessedAndStopProcessingWithdrawalRequests),
    (some false, .proceed true), (some false, .proceed true)] ++
  payout true true ++ List.replicate 3 (some true, .proceed true)

/-- It is sent twice, since it was reverted once. -/
theorem payoutsOk_reverted :
    PayoutsOk (twoPayoutRuns.run (PayoutClient.act fun amount => amount / 100) revertedPayout) ∧
      ((twoPayoutRuns.run (PayoutClient.act fun amount => amount / 100) revertedPayout).client
        (some false)).sentVersions = [(⟨"anna", 0⟩, 2)] ∧
      ((twoPayoutRuns.run (PayoutClient.act fun amount => amount / 100) revertedPayout).client
        (some false)).unlockedVersions = [("anna", 2)] ∧
      ((twoPayoutRuns.run (PayoutClient.act fun amount => amount / 100) revertedPayout).client
        (some true)).sentVersions = [(⟨"anna", 0⟩, 4)] :=
  ⟨payoutsOk (fun _ => rfl) twoPayoutRuns_idle (reaches_run _ _), by decide +kernel,
    by decide +kernel, by decide +kernel⟩

end Autobackup.Abc2
