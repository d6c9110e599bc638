import Autobackup.CouchbaseBackend.Accounts

/-!
# Stopping cleanly

The backend says that it is finished as soon as both counters of pending requests are zero.  They
count what couchbase has not answered yet.  A request that waits in a backoff timer is outstanding
and not counted, so the backend says so rightly if and only if no such request is left
(`LeavesNothing`).

What is outstanding is seen from outside: requests that were accepted and have had no answer.  The
counters are the machine's own, so an underflow is a wrong turn of theirs and not of the model.
Left out are durability polls, which have no counter, and the join of the thread at the end.
-/

namespace Autobackup.CouchbaseBackend.CouchbaseDB

/-! ## The counters -/

/-- What couchbase has not answered is counted, and there is a reason to be finished. -/
structure Counted (st : CouchbaseDB) : Prop where
  stores : st.pendingStoreCount = st.stores.length % 2 ^ 32
  gets : st.pendingGetCount = st.gets.length % 2 ^ 32
  stopping : st.isFinishedWithAllPendingRequests → st.noMoreAllowedMuahahaha

lemma increment_mod (n : ℕ) : increment (n % 2 ^ 32) = (n + 1) % 2 ^ 32 := by
  unfold increment
  split
  · omega
  · omega

lemma decrement_mod (n : ℕ) : decrement ((n + 1) % 2 ^ 32) = n % 2 ^ 32 := by
  unfold decrement
  split
  · omega
  · omega

/-- One operation less. -/
lemma decrement_count {α : Type} [DecidableEq α] {inFlight : List α} {op : α} {count : ℕ}
    (hop : op ∈ inFlight) (hcount : count = inFlight.length % 2 ^ 32) :
    decrement count = (inFlight.erase op).length % 2 ^ 32 := by
  have hlength : inFlight.length = (inFlight.erase op).length + 1 := by
    rw [List.length_erase_of_mem hop]
    have hpos := List.length_pos_of_mem hop
    omega
  rw [hcount, hlength, decrement_mod]

lemma decrement_eq_zero {n : ℕ} : decrement n = 0 ↔ n = 1 := by
  unfold decrement
  split
  · omega
  · omega

variable {st : CouchbaseDB}

lemma Counted.notifyIfNothingIsPending (h : st.Counted) :
    st.notifyIfNothingIsPending.Counted := by
  obtain ⟨finished, heq, hfinished⟩ := st.notifyIfNothingIsPending_eq
  rw [heq]
  refine ⟨h.stores, h.gets, fun hf => ?_⟩
  rcases hfinished.1 hf with hf | hf
  · exact h.stopping hf
  · exact hf.1

lemma Counted.scheduleGetRequest (h : st.Counted) (op : RetryingGet) (lcbSuccess : Bool) :
    (st.scheduleGetRequest op lcbSuccess).Counted := by
  unfold CouchbaseDB.scheduleGetRequest
  split
  · exact ⟨h.stores, by rw [h.gets, increment_mod, List.length_cons], h.stopping⟩
  · exact ⟨h.stores, h.gets, h.stopping⟩

lemma Counted.scheduleStoreRequest (h : st.Counted) (r : StoreRequest) (lcbSuccess : Bool) :
    (st.scheduleStoreRequest r lcbSuccess).Counted := by
  unfold CouchbaseDB.scheduleStoreRequest
  split
  · exact ⟨by rw [h.stores, increment_mod, List.length_cons], h.gets, h.stopping⟩
  · exact ⟨h.stores, h.gets, h.stopping⟩

lemma Counted.step (h : st.Counted) (x : Event) : (st.step x).Counted := by
  refine step_cases (P := Counted) x h ?_ ?_ ?_ ?_ ?_ ?_ ?_ ?_ ?_
  · intro r lcbSuccess _ _
    exact Counted.scheduleStoreRequest (by exact ⟨h.stores, h.gets, h.stopping⟩) _ _
  · intro r lcbSuccess _ _
    refine handleGetRequest_cases (P := Counted) (st.numbered r.1) _
      ?_ ?_ ?_ ?_ ?_ r.2
    · exact fun _ => Counted.scheduleGetRequest (by exact ⟨h.stores, h.gets, h.stopping⟩) _ _
    · exact fun _ _ _ => ⟨h.stores, h.gets, h.stopping⟩
    · exact fun _ _ => ⟨h.stores, h.gets, h.stopping⟩
    · exact fun _ _ => Counted.scheduleGetRequest (by exact ⟨h.stores, h.gets, h.stopping⟩) _ _
    · exact fun _ _ => Counted.scheduleGetRequest (by exact ⟨h.stores, h.gets, h.stopping⟩) _ _
  · intro r result _ hr
    have hhandles := handles_handleStoreResult
      { st with stores := st.stores.erase r } r result
    refine Counted.notifyIfNothingIsPending ⟨?_, ?_, ?_⟩
    · rw [hhandles.storeCount, hhandles.stores]
      exact decrement_count hr h.stores
    · rw [hhandles.getCount, hhandles.gets]
      exact h.gets
    · rw [hhandles.finished, hhandles.noMore]
      exact h.stopping
  · intro op result _ hop
    have hhandles := handles_handleGetResult
      { st with gets := st.gets.erase op } op result
    refine Counted.notifyIfNothingIsPending ⟨?_, ?_, ?_⟩
    · rw [hhandles.storeCount, hhandles.stores]
      exact h.stores
    · rw [hhandles.getCount, hhandles.gets]
      exact decrement_count hop h.gets
    · rw [hhandles.finished, hhandles.noMore]
      exact h.stopping
  · intro r lcbSuccess _ _
    exact Counted.scheduleStoreRequest (by exact ⟨h.stores, h.gets, h.stopping⟩) _ _
  · intro op lcbSuccess _ _
    exact Counted.scheduleGetRequest (by exact ⟨h.stores, h.gets, h.stopping⟩) _ _
  · exact fun _ _ _ _ _ _ _ _ _ => ⟨h.stores, h.gets, h.stopping⟩
  · intro k first lcbSuccess item r _ _ _ _
    exact Counted.scheduleGetRequest (by exact ⟨h.stores, h.gets, h.stopping⟩) _ _
  · exact fun _ => Counted.notifyIfNothingIsPending ⟨h.stores, h.gets, fun _ => rfl⟩

/-! ## Being finished -/

/-- Where the backend is finished, all that it has accepted is answered.  Only a backend that was
told to stop and has said that it is finished is looked at; before that, anything may be
outstanding. -/
def AllAnswered (st : CouchbaseDB) : Prop :=
  st.isFinishedWithAllPendingRequests → ∀ n ∈ st.accepted, n ∈ st.answered

/-- No response will find its counter at zero.  The next decrement would otherwise make of it the
largest number there is, and the backend would not finish any more. -/
def NoUnderflow (st : CouchbaseDB) : Prop :=
  (st.stores ≠ [] → 0 < st.pendingStoreCount) ∧ (st.gets ≠ [] → 0 < st.pendingGetCount)

/-- The counters are large enough.  They have 32 bits, and a counter that wraps around to zero would
pass for one that has come down to it. -/
def FewInFlight (st : CouchbaseDB) : Prop :=
  st.stores.length < 2 ^ 32 ∧ st.gets.length < 2 ^ 32

/-- Where an event lets both counters be zero while the backend is stopping, nothing is outstanding
afterwards, neither in a backoff timer nor elsewhere. -/
def LeavesNothing (st : CouchbaseDB) : Event → Prop
  | .storeCallback r result =>
      r ∈ st.stores → st.noMoreAllowedMuahahaha → st.pendingStoreCount = 1 →
        st.pendingGetCount = 0 →
          { st with stores := st.stores.erase r }.outstanding = [] ∧
            result ≠ .eligibleForExponentialBackoff
  | .getCallback op result =>
      op ∈ st.gets → st.noMoreAllowedMuahahaha → st.pendingStoreCount = 0 →
        st.pendingGetCount = 1 →
          { st with gets := st.gets.erase op }.outstanding = [] ∧
            (result = .eligibleForExponentialBackoff → op.getRequestRetrying.subscribes)
  | .beginStoppingCouchbaseCleanly =>
      st.pendingStoreCount = 0 → st.pendingGetCount = 0 → st.outstanding = []
  | _ => True

/-- Nothing was accepted, and no answer is forgotten. -/
def AcceptsNothing (st st' : CouchbaseDB) : Prop :=
  st'.accepted = st.accepted ∧ st.answered ⊆ st'.answered

lemma acceptsNothing_scheduleGetRequest {st st' : CouchbaseDB} (h : st.AcceptsNothing st')
    (op : RetryingGet) (lcbSuccess : Bool) :
    st.AcceptsNothing (st'.scheduleGetRequest op lcbSuccess) := by
  unfold scheduleGetRequest
  split
  · exact h
  · exact ⟨h.1, List.Subset.trans h.2 (handles_post _).answered⟩

lemma acceptsNothing_scheduleStoreRequest {st st' : CouchbaseDB} (h : st.AcceptsNothing st')
    (r : StoreRequest) (lcbSuccess : Bool) :
    st.AcceptsNothing (st'.scheduleStoreRequest r lcbSuccess) := by
  unfold scheduleStoreRequest
  split
  · exact h
  · exact ⟨h.1, List.Subset.trans h.2 (handles_post _).answered⟩

lemma acceptsNothing_notifyIfNothingIsPending {st st' : CouchbaseDB} (h : st.AcceptsNothing st') :
    st.AcceptsNothing st'.notifyIfNothingIsPending := by
  obtain ⟨finished, heq, -⟩ := st'.notifyIfNothingIsPending_eq
  rw [heq]
  exact h

lemma acceptsNothing_step (hstop : st.noMoreAllowedMuahahaha) (x : Event) :
    st.AcceptsNothing (st.step x) := by
  have hsame : st.AcceptsNothing st := ⟨rfl, List.Subset.refl _⟩
  refine step_cases (P := st.AcceptsNothing) x hsame ?_ ?_ ?_ ?_ ?_ ?_ ?_ ?_ ?_
  · intro r lcbSuccess _ hgoing
    exact absurd hstop (by simp [hgoing])
  · intro r lcbSuccess _ hgoing
    exact absurd hstop (by simp [hgoing])
  · intro r result _ _
    have hhandles := handles_handleStoreResult
      { st with stores := st.stores.erase r } r result
    exact acceptsNothing_notifyIfNothingIsPending ⟨hhandles.accepted, hhandles.answered⟩
  · intro op result _ _
    have hhandles := handles_handleGetResult
      { st with gets := st.gets.erase op } op result
    exact acceptsNothing_notifyIfNothingIsPending ⟨hhandles.accepted, hhandles.answered⟩
  · exact fun r lcbSuccess _ _ => acceptsNothing_scheduleStoreRequest (by exact hsame) _ _
  · exact fun op lcbSuccess _ _ => acceptsNothing_scheduleGetRequest (by exact hsame) _ _
  · exact fun _ _ _ _ _ _ _ _ _ => hsame
  · exact fun _ _ _ _ _ _ _ _ _ => acceptsNothing_scheduleGetRequest (by exact hsame) _ _
  · exact fun _ => acceptsNothing_notifyIfNothingIsPending hsame

lemma outstanding_handleGetResult (op : RetryingGet) (result : GetResult) :
    (st.handleGetResult op result).outstanding = [] ↔
      st.outstanding = [] ∧
        (result = .eligibleForExponentialBackoff → op.getRequestRetrying.subscribes) := by
  have hpost (st' : CouchbaseDB) (posted : List Posted) :
      (st'.post posted).outstanding = st'.outstanding := rfl
  have hset (k : Key) (item : Option GetAndSubscribeCacheItem) :
      (st.setItem k item).outstanding = st.outstanding := rfl
  have hmodify (st' : CouchbaseDB) (k : Key)
      (f : GetAndSubscribeCacheItem → GetAndSubscribeCacheItem) :
      (st'.modifyItem k f).outstanding = st'.outstanding := by
    unfold modifyItem
    split
    · rfl
    · rfl
  have hbackoff : { st with getsBackingOff := op :: st.getsBackingOff }.outstanding = [] ↔
      st.outstanding = [] ∧ op.single = [] := by
    simp only [outstanding, singles_cons, List.append_eq_nil_iff]
    tauto
  unfold handleGetResult
  by_cases hsub : op.getRequestRetrying.subscribes
  · rw [if_pos hsub]
    have hsingle : op.single = [] := if_pos hsub
    cases result with
    | success document cas =>
        unfold handlePollResult
        dsimp only
        split
        · simp
        · rw [hpost, hset]
          simp
    | keyENOENT => simp [handlePollResult, hmodify, hpost]
    | eligibleForExponentialBackoff =>
        rw [handlePollResult, hbackoff]
        simp [hsingle, hsub]
    | otherError => simp [handlePollResult, hmodify]
  · rw [if_neg hsub]
    have hsingle : op.single ≠ [] := by simp [RetryingGet.single, hsub]
    cases result with
    | success document cas => simp [handleSingleGetResult, hpost]
    | keyENOENT => simp [handleSingleGetResult, hpost]
    | eligibleForExponentialBackoff =>
        rw [handleSingleGetResult, hbackoff]
        simp [hsingle, hsub]
    | otherError => simp [handleSingleGetResult, hpost]

lemma outstanding_handleStoreResult (r : StoreRequest) (result : StoreResult) :
    (st.handleStoreResult r result).outstanding = [] ↔
      st.outstanding = [] ∧ result ≠ .eligibleForExponentialBackoff := by
  cases result with
  | success cas => simp [handleStoreResult, outstanding, post]
  | keyEEXISTS cas => simp [handleStoreResult, outstanding, post]
  | eligibleForExponentialBackoff => simp [handleStoreResult, outstanding]
  | otherError cas => simp [handleStoreResult, outstanding, post]

lemma Accounts.allAnswered_iff (h : st.Accounts []) :
    st.AllAnswered ↔ (st.isFinishedWithAllPendingRequests → st.outstanding = []) :=
  imp_congr_right fun _ => h.ledger.forall_answered_iff

lemma outstanding_eq_nil : st.outstanding = [] ↔ st.stores = [] ∧ st.storesBackingOff = [] ∧
    singles st.gets = [] ∧ singles st.getsBackingOff = [] := by
  simp [outstanding]

lemma subscribes_of_singles_eq_nil {ops : List RetryingGet} (h : singles ops = [])
    {op : RetryingGet} (hop : op ∈ ops) : op.getRequestRetrying.subscribes := by
  by_contra hsub
  have hperm := singles_erase hop
  rw [h, RetryingGet.single, if_neg hsub] at hperm
  exact absurd hperm.length_eq (by simp)

/-- Where nothing was outstanding, no event can leave anything. -/
lemma leavesNothing_of_outstanding_eq_nil (h : st.outstanding = []) (x : Event) :
    st.LeavesNothing x := by
  obtain ⟨hstores, hbackoff, hgets, hgetsBackingOff⟩ := outstanding_eq_nil.1 h
  cases x with
  | storeCallback r result =>
      intro hr
      rw [hstores] at hr
      simp at hr
  | getCallback op result =>
      intro hop _ _ _
      have hsub := subscribes_of_singles_eq_nil hgets hop
      have hperm := singles_erase hop
      rw [hgets, RetryingGet.single, if_pos hsub] at hperm
      exact ⟨outstanding_eq_nil.2 ⟨hstores, hbackoff, hperm.nil_eq.symm, hgetsBackingOff⟩,
        fun _ => hsub⟩
  | beginStoppingCouchbaseCleanly => exact fun _ _ => h
  | eventSlotForWtStore r lcbSuccess => trivial
  | eventSlotForWtGet r lcbSuccess => trivial
  | storeTimeoutCallback r lcbSuccess => trivial
  | getTimeoutCallback op lcbSuccess => trivial
  | getAndSubscribePollingTimeout k first lcbSuccess => trivial

/-- What is outstanding once the counters have been looked at. -/
lemma notify_iff (st' : CouchbaseDB) (hfinished : ¬ st'.isFinishedWithAllPendingRequests) :
    (st'.notifyIfNothingIsPending.isFinishedWithAllPendingRequests →
        st'.notifyIfNothingIsPending.outstanding = []) ↔
      (st'.noMoreAllowedMuahahaha → st'.pendingStoreCount = 0 → st'.pendingGetCount = 0 →
        st'.outstanding = []) := by
  obtain ⟨finished, heq, hiff⟩ := st'.notifyIfNothingIsPending_eq
  rw [or_iff_right hfinished] at hiff
  rw [heq]
  change (finished → st'.outstanding = []) ↔ _
  rw [hiff]
  tauto

lemma decrementPendingStoreCount_iff {st' : CouchbaseDB}
    (hfinished : ¬ st'.isFinishedWithAllPendingRequests) :
    (st'.decrementPendingStoreCountAndHandle.isFinishedWithAllPendingRequests →
        st'.decrementPendingStoreCountAndHandle.outstanding = []) ↔
      (st'.noMoreAllowedMuahahaha → st'.pendingStoreCount = 1 → st'.pendingGetCount = 0 →
        st'.outstanding = []) := by
  have hnotify := notify_iff
    { st' with pendingStoreCount := decrement st'.pendingStoreCount } hfinished
  dsimp only at hnotify
  rw [decrement_eq_zero] at hnotify
  exact hnotify

lemma decrementPendingGetCount_iff {st' : CouchbaseDB}
    (hfinished : ¬ st'.isFinishedWithAllPendingRequests) :
    (st'.decrementPendingGetCountAndHandle.isFinishedWithAllPendingRequests →
        st'.decrementPendingGetCountAndHandle.outstanding = []) ↔
      (st'.noMoreAllowedMuahahaha → st'.pendingStoreCount = 0 → st'.pendingGetCount = 1 →
        st'.outstanding = []) := by
  have hnotify := notify_iff
    { st' with pendingGetCount := decrement st'.pendingGetCount } hfinished
  dsimp only at hnotify
  rw [decrement_eq_zero] at hnotify
  exact hnotify

lemma finished_scheduleGetRequest (st : CouchbaseDB) (op : RetryingGet) (lcbSuccess : Bool) :
    (st.scheduleGetRequest op lcbSuccess).isFinishedWithAllPendingRequests =
      st.isFinishedWithAllPendingRequests := by
  unfold scheduleGetRequest
  split
  · rfl
  · rfl

lemma finished_scheduleStoreRequest (st : CouchbaseDB) (r : StoreRequest) (lcbSuccess : Bool) :
    (st.scheduleStoreRequest r lcbSuccess).isFinishedWithAllPendingRequests =
      st.isFinishedWithAllPendingRequests := by
  unfold scheduleStoreRequest
  split
  · rfl
  · rfl

/-- Only responses and the order to stop make the backend look at its counters. -/
lemma finished_step {x : Event} (hstore : ∀ r result, x ≠ .storeCallback r result)
    (hget : ∀ op result, x ≠ .getCallback op result) (hstop : x ≠ .beginStoppingCouchbaseCleanly) :
    (st.step x).isFinishedWithAllPendingRequests = st.isFinishedWithAllPendingRequests := by
  refine step_cases (P := fun st' => st'.isFinishedWithAllPendingRequests =
    st.isFinishedWithAllPendingRequests) x rfl ?_ ?_ ?_ ?_ ?_ ?_ ?_ ?_ ?_
  · exact fun _ _ _ _ => finished_scheduleStoreRequest _ _ _
  · intro r lcbSuccess _ _
    refine handleGetRequest_cases (P := fun st' => st'.isFinishedWithAllPendingRequests =
      st.isFinishedWithAllPendingRequests) (st.numbered r.1) _
      ?_ ?_ ?_ ?_ ?_ r.2
    · exact fun _ => finished_scheduleGetRequest _ _ _
    · exact fun _ _ _ => rfl
    · exact fun _ _ => rfl
    · exact fun _ _ => finished_scheduleGetRequest _ _ _
    · exact fun _ _ => finished_scheduleGetRequest _ _ _
  · exact fun r result hx _ => absurd hx (hstore r result)
  · exact fun op result hx _ => absurd hx (hget op result)
  · exact fun _ _ _ _ => finished_scheduleStoreRequest _ _ _
  · exact fun _ _ _ _ => finished_scheduleGetRequest _ _ _
  · exact fun _ _ _ _ _ _ _ _ _ => rfl
  · exact fun _ _ _ _ _ _ _ _ _ => finished_scheduleGetRequest _ _ _
  · exact fun hx => absurd hx hstop

/-- **The condition is exact**, event by event. -/
lemma allAnswered_step_iff (h : st.Accounts []) (hcounted : st.Counted) (hanswered : st.AllAnswered)
    (x : Event) : (st.step x).AllAnswered ↔ st.LeavesNothing x := by
  by_cases hfinished : st.isFinishedWithAllPendingRequests
  · -- nothing was outstanding, and nothing is accepted any more
    have hnothing := h.allAnswered_iff.1 hanswered hfinished
    have hstep := acceptsNothing_step (hcounted.stopping hfinished) x
    exact iff_of_true (fun _ n hn => hstep.2 (hanswered hfinished n (hstep.1 ▸ hn)))
      (leavesNothing_of_outstanding_eq_nil hnothing x)
  rw [(h.step x).allAnswered_iff]
  have hunfinished (hx : (st.step x).isFinishedWithAllPendingRequests =
      st.isFinishedWithAllPendingRequests) (hok : st.LeavesNothing x) :
      ((st.step x).isFinishedWithAllPendingRequests → (st.step x).outstanding = []) ↔
        st.LeavesNothing x :=
    iff_of_true (fun hf => absurd (hx ▸ hf) hfinished) hok
  cases x with
  | storeCallback r result =>
      by_cases hr : r ∈ st.stores
      · have hhandles := handles_handleStoreResult
          { st with stores := st.stores.erase r } r result
        rw [step, storeCallback, if_pos hr,
          decrementPendingStoreCount_iff (by rw [hhandles.finished]; exact hfinished),
          hhandles.noMore, hhandles.storeCount, hhandles.getCount, outstanding_handleStoreResult]
        exact (imp_iff_right hr).symm
      · refine hunfinished ?_ fun hr' => absurd hr' hr
        rw [step, storeCallback, if_neg hr]
  | getCallback op result =>
      by_cases hop : op ∈ st.gets
      · have hhandles := handles_handleGetResult
          { st with gets := st.gets.erase op } op result
        rw [step, getCallback, if_pos hop,
          decrementPendingGetCount_iff (by rw [hhandles.finished]; exact hfinished),
          hhandles.noMore, hhandles.storeCount, hhandles.getCount, outstanding_handleGetResult]
        exact (imp_iff_right hop).symm
      · refine hunfinished ?_ fun hop' => absurd hop' hop
        rw [step, getCallback, if_neg hop]
  | beginStoppingCouchbaseCleanly =>
      exact (notify_iff { st with noMoreAllowedMuahahaha := true } hfinished).trans
        (imp_iff_right rfl)
  | eventSlotForWtStore r lcbSuccess =>
      exact hunfinished (finished_step (by simp) (by simp) (by simp)) trivial
  | eventSlotForWtGet r lcbSuccess =>
      exact hunfinished (finished_step (by simp) (by simp) (by simp)) trivial
  | storeTimeoutCallback r lcbSuccess =>
      exact hunfinished (finished_step (by simp) (by simp) (by simp)) trivial
  | getTimeoutCallback op lcbSuccess =>
      exact hunfinished (finished_step (by simp) (by simp) (by simp)) trivial
  | getAndSubscribePollingTimeout k first lcbSuccess =>
      exact hunfinished (finished_step (by simp) (by simp) (by simp)) trivial

/-! ## Runs -/

lemma counted_start : Counted {} := ⟨rfl, rfl, by simp⟩

/-- Not more than one operation was handed to couchbase. -/
def AtMostOneMore (st st' : CouchbaseDB) : Prop :=
  st'.stores.length ≤ st.stores.length + 1 ∧ st'.gets.length ≤ st.gets.length + 1

lemma atMostOneMore_scheduleGetRequest {st st' : CouchbaseDB} (hstores : st'.stores = st.stores)
    (hgets : st'.gets = st.gets) (op : RetryingGet) (lcbSuccess : Bool) :
    st.AtMostOneMore (st'.scheduleGetRequest op lcbSuccess) := by
  unfold AtMostOneMore scheduleGetRequest
  split
  · simp [hstores, hgets]
  · simp [post, hstores, hgets]

lemma atMostOneMore_scheduleStoreRequest {st st' : CouchbaseDB} (hstores : st'.stores = st.stores)
    (hgets : st'.gets = st.gets) (r : StoreRequest) (lcbSuccess : Bool) :
    st.AtMostOneMore (st'.scheduleStoreRequest r lcbSuccess) := by
  unfold AtMostOneMore scheduleStoreRequest
  split
  · simp [hstores, hgets]
  · simp [post, hstores, hgets]

lemma atMostOneMore_notifyIfNothingIsPending {st st' : CouchbaseDB} (h : st.AtMostOneMore st') :
    st.AtMostOneMore st'.notifyIfNothingIsPending := by
  obtain ⟨finished, heq, -⟩ := st'.notifyIfNothingIsPending_eq
  rw [heq]
  exact h

lemma atMostOneMore_step (st : CouchbaseDB) (x : Event) : st.AtMostOneMore (st.step x) := by
  have hsame : st.AtMostOneMore st := ⟨Nat.le_succ _, Nat.le_succ _⟩
  refine step_cases (P := st.AtMostOneMore) x hsame ?_ ?_ ?_ ?_ ?_ ?_ ?_ ?_ ?_
  · exact fun _ _ _ _ => atMostOneMore_scheduleStoreRequest rfl rfl _ _
  · intro r lcbSuccess _ _
    refine handleGetRequest_cases (P := st.AtMostOneMore) (st.numbered r.1) _
      ?_ ?_ ?_ ?_ ?_ r.2
    · exact fun _ => atMostOneMore_scheduleGetRequest rfl rfl _ _
    · exact fun _ _ _ => hsame
    · exact fun _ _ => hsame
    · exact fun _ _ => atMostOneMore_scheduleGetRequest rfl rfl _ _
    · exact fun _ _ => atMostOneMore_scheduleGetRequest rfl rfl _ _
  · intro r result _ _
    have hhandles := handles_handleStoreResult
      { st with stores := st.stores.erase r } r result
    refine atMostOneMore_notifyIfNothingIsPending ⟨?_, ?_⟩
    · rw [hhandles.stores]
      exact Nat.le_succ_of_le List.length_erase_le
    · rw [hhandles.gets]
      exact Nat.le_succ _
  · intro op result _ _
    have hhandles := handles_handleGetResult
      { st with gets := st.gets.erase op } op result
    refine atMostOneMore_notifyIfNothingIsPending ⟨?_, ?_⟩
    · rw [hhandles.stores]
      exact Nat.le_succ _
    · rw [hhandles.gets]
      exact Nat.le_succ_of_le List.length_erase_le
  · exact fun _ _ _ _ => atMostOneMore_scheduleStoreRequest rfl rfl _ _
  · exact fun _ _ _ _ => atMostOneMore_scheduleGetRequest rfl rfl _ _
  · exact fun _ _ _ _ _ _ _ _ _ => hsame
  · exact fun _ _ _ _ _ _ _ _ _ => atMostOneMore_scheduleGetRequest rfl rfl _ _
  · exact fun _ => atMostOneMore_notifyIfNothingIsPending hsame

lemma noUnderflow_iff (h : st.Counted)
    (hlength : st.stores.length ≤ 2 ^ 32 ∧ st.gets.length ≤ 2 ^ 32) :
    st.NoUnderflow ↔ st.FewInFlight := by
  have hone {α : Type} (inFlight : List α) (count : ℕ) (hcount : count = inFlight.length % 2 ^ 32)
      (hle : inFlight.length ≤ 2 ^ 32) :
      (inFlight ≠ [] → 0 < count) ↔ inFlight.length < 2 ^ 32 := by
    rw [← List.length_pos_iff]
    omega
  unfold NoUnderflow FewInFlight
  rw [hone _ _ h.stores hlength.1, hone _ _ h.gets hlength.2]

/-- **Stopping cleanly.**  The backend only says that it is finished when it has answered all that
it has accepted, and its counters do not underflow, if and only if no event lets the counters be
zero while something is outstanding, and there are never `2 ^ 32` operations in flight.

The front end exits when it is told that the backend is finished, so a request that is left then is
lost without an error.  Both halves are in one statement because an underflow would keep the backend
from ever being finished. -/
theorem stops_cleanly_iff (events : List Event) :
    Machine.HoldsThroughout step (fun st => st.AllAnswered ∧ st.NoUnderflow) {} events ↔
      Machine.StaysWithin step LeavesNothing {} events ∧
        Machine.HoldsThroughout step FewInFlight {} events := by
  rw [Machine.holdsThroughout_and]
  refine and_congr ?_ ?_
  · refine Machine.holdsThroughout_iff_staysWithin (I := fun st => st.Accounts [] ∧ st.Counted)
      (fun _ => True) (fun st x _ hI _ _ => ⟨hI.1.step x, hI.2.step x⟩)
      (fun st x _ hI hP => allAnswered_step_iff hI.1 hI.2 hP x) (fun _ _ => trivial)
      ⟨accounts_start, counted_start⟩ ?_
    exact fun h => absurd h (by simp)
  · refine Machine.holdsThroughout_congr (I := fun st =>
      st.Counted ∧ st.stores.length ≤ 2 ^ 32 ∧ st.gets.length ≤ 2 ^ 32) ?_
      (fun st hI => noUnderflow_iff hI.1 hI.2) ⟨counted_start, by simp, by simp⟩
    intro st x hI hfew
    have hmore := st.atMostOneMore_step x
    exact ⟨hI.1.step x, Nat.le_trans hmore.1 hfew.1, Nat.le_trans hmore.2 hfew.2⟩

/-- A store waits in its backoff timer when the backend is told to stop. -/
def stopWhileBackingOff : List Event :=
  [.eventSlotForWtStore ⟨0, false⟩ true, .storeCallback ⟨0, false⟩ .eligibleForExponentialBackoff,
    .beginStoppingCouchbaseCleanly]

theorem not_stops_cleanly : ¬ ∀ events,
    Machine.HoldsThroughout step (fun st => st.AllAnswered ∧ st.NoUnderflow) {} events := by
  intro hclean
  have hanswered := ((hclean stopWhileBackingOff).run).1
  have hmem := hanswered rfl 0 (by decide)
  exact absurd hmem (by decide)

end Autobackup.CouchbaseBackend.CouchbaseDB
