import Autobackup.CouchbaseBackend.Backend
import Autobackup.CouchbaseBackend.Subscription
import Autobackup.Foundation.Ledger

/-!
# The accounts of the backend

Stores, and gets of those who do not subscribe, want one response each.  `Accounts` says that such a
request is outstanding or answered and never both, and that no subscriber is mistaken for one.  It
is stated with what is in *hand*: the request that the backend has taken out of what is outstanding
and is about to answer or to put back.
-/

namespace Autobackup.CouchbaseBackend

namespace CouchbaseDB

/-- The gets that want one response, by number. -/
def singles (ops : List RetryingGet) : List ℕ :=
  (ops.filter fun op => ¬ op.getRequestRetrying.subscribes).map (·.getRequestRetrying.number)

/-- What is outstanding and wants one response, by number. -/
def outstanding (st : CouchbaseDB) : List ℕ :=
  st.stores.map (·.number) ++ (st.storesBackingOff.map (·.number) ++
    (singles st.gets ++ singles st.getsBackingOff))

/-- The requests that were answered. -/
def answered (st : CouchbaseDB) : List ℕ := st.posted.map Prod.fst

/-- A request of a subscriber, for which any number of responses will do. -/
structure Subscriber (accepted : List ℕ) (requestsReceived : ℕ) (r : GetRequest) : Prop where
  subscribes : r.subscribes
  not_accepted : r.number ∉ accepted
  received : r.number < requestsReceived

abbrev Subscribes (st : CouchbaseDB) (r : GetRequest) : Prop :=
  Subscriber st.accepted st.requestsReceived r

/-- The requests are accounted for.  Those in `hand` were outstanding and are being handled. -/
structure Accounts (st : CouchbaseDB) (hand : List ℕ) : Prop where
  ledger : Ledger st.accepted (hand ++ st.outstanding) st.answered
  accepted_received : ∀ n ∈ st.accepted, n < st.requestsReceived
  answered_received : ∀ n ∈ st.answered, n < st.requestsReceived
  items : ∀ k item, st.getAndSubscribeCacheHash k = some item → item.All fun _ r => st.Subscribes r
  polls : ∀ op ∈ st.gets ++ st.getsBackingOff, op.getRequestRetrying.subscribes →
    st.Subscribes op.getRequestRetrying

end CouchbaseDB

/-- The get in hand, if it wants one response. -/
def RetryingGet.single (op : RetryingGet) : List ℕ :=
  if op.getRequestRetrying.subscribes then [] else [op.getRequestRetrying.number]

namespace CouchbaseDB

@[simp] lemma answered_post (st : CouchbaseDB) (posted : List Posted) :
    (st.post posted).answered = st.answered ++ posted.map Prod.fst := List.map_append

lemma singles_cons (op : RetryingGet) (ops : List RetryingGet) :
    singles (op :: ops) = op.single ++ singles ops := by
  by_cases h : op.getRequestRetrying.subscribes <;> simp [singles, RetryingGet.single, h]

lemma singles_erase {op : RetryingGet} {ops : List RetryingGet} (h : op ∈ ops) :
    (singles ops).Perm (op.single ++ singles (ops.erase op)) := by
  rw [← singles_cons]
  exact ((List.perm_cons_erase h).filter _).map _

section Perm

variable {α : Type} (hand s b g w : List α)

lemma perm_gets : (hand ++ (s ++ (b ++ (g ++ w)))).Perm (s ++ (b ++ ((hand ++ g) ++ w))) := by
  rw [List.append_assoc hand g w]
  exact (List.perm_append_comm_assoc _ _ _).trans
    ((List.perm_append_comm_assoc _ _ _).append_left _)

lemma perm_getsBackingOff :
    (hand ++ (s ++ (b ++ (g ++ w)))).Perm (s ++ (b ++ (g ++ (hand ++ w)))) := by
  refine (perm_gets hand s b g w).trans ?_
  rw [List.append_assoc hand g w]
  exact ((List.perm_append_comm_assoc _ _ _).append_left _).append_left _

end Perm

namespace Accounts

variable {st : CouchbaseDB} {hand : List ℕ}

/-- What was in hand is put somewhere, or the other way round. -/
lemma move (h : st.Accounts hand) {st' : CouchbaseDB} {hand' : List ℕ}
    (hperm : (hand ++ st.outstanding).Perm (hand' ++ st'.outstanding))
    (haccepted : st'.accepted = st.accepted) (hposted : st'.posted = st.posted)
    (hreceived : st'.requestsReceived = st.requestsReceived)
    (hitems : st'.getAndSubscribeCacheHash = st.getAndSubscribeCacheHash)
    (hpolls : ∀ op ∈ st'.gets ++ st'.getsBackingOff, op.getRequestRetrying.subscribes →
      st.Subscribes op.getRequestRetrying) : st'.Accounts hand' := by
  have hsubscribes (r : GetRequest) (hr : st.Subscribes r) : st'.Subscribes r :=
    ⟨hr.subscribes, haccepted ▸ hr.not_accepted, hreceived ▸ hr.received⟩
  constructor
  · rw [haccepted, answered, hposted]
    exact h.ledger.perm hperm
  · rw [haccepted, hreceived]
    exact h.accepted_received
  · rw [answered, hposted, hreceived]
    exact h.answered_received
  · rw [hitems]
    exact fun k item hitem => (h.items k item hitem).imp fun _ r => hsubscribes r
  · exact fun op hop hsub => hsubscribes _ (hpolls op hop hsub)

/-- The request in hand is answered. -/
lemma answer {n : ℕ} (h : st.Accounts [n]) (response : Response) :
    (st.post [(n, response)]).Accounts [] := by
  have hn : n < st.requestsReceived :=
    h.accepted_received n (h.ledger.mem_accepted n (by simp))
  constructor
  · rw [answered_post]
    exact h.ledger.answer
  · exact h.accepted_received
  · intro m hm
    rw [answered_post, List.mem_append, List.map_singleton, List.mem_singleton] at hm
    rcases hm with hm | rfl
    · exact h.answered_received m hm
    · exact hn
  · exact h.items
  · exact h.polls

/-- Subscribers are told something. -/
lemma tell (h : st.Accounts hand) {posted : List Posted}
    (hposted : ∀ p ∈ posted, ∃ r, st.Subscribes r ∧ p.1 = r.number) :
    (st.post posted).Accounts hand := by
  have hothers (m : ℕ) (hm : m ∈ posted.map Prod.fst) : ∃ r, st.Subscribes r ∧ m = r.number := by
    obtain ⟨p, hp, rfl⟩ := List.mem_map.1 hm
    exact hposted p hp
  constructor
  · rw [answered_post]
    refine h.ledger.answerOthers fun m hm => ?_
    obtain ⟨r, hr, rfl⟩ := hothers m hm
    exact hr.not_accepted
  · exact h.accepted_received
  · intro m hm
    rw [answered_post, List.mem_append] at hm
    rcases hm with hm | hm
    · exact h.answered_received m hm
    · obtain ⟨r, hr, rfl⟩ := hothers m hm
      exact hr.received
  · exact h.items
  · exact h.polls

lemma setItem (h : st.Accounts hand) (k : Key) {item : Option GetAndSubscribeCacheItem}
    (hitem : ∀ item', item = some item' → item'.All fun _ r => st.Subscribes r) :
    (st.setItem k item).Accounts hand := by
  constructor
  · exact h.ledger
  · exact h.accepted_received
  · exact h.answered_received
  · intro k' item' hk'
    by_cases hk : k' = k
    · subst hk
      rw [CouchbaseDB.setItem] at hk'
      exact hitem item' (by simpa using hk')
    · rw [CouchbaseDB.setItem] at hk'
      exact h.items k' item' (by simpa [hk] using hk')
  · exact h.polls

lemma modifyItem (h : st.Accounts hand) (k : Key)
    {f : GetAndSubscribeCacheItem → GetAndSubscribeCacheItem}
    (hf : ∀ item : GetAndSubscribeCacheItem, (item.All fun _ r => st.Subscribes r) →
      (f item).All fun _ r => st.Subscribes r) : (st.modifyItem k f).Accounts hand := by
  unfold CouchbaseDB.modifyItem
  cases hitem : st.getAndSubscribeCacheHash k with
  | none => exact h
  | some item =>
      exact h.setItem k fun item' heq => Option.some.inj heq ▸ hf item (h.items k item hitem)

/-- A get arrives. -/
lemma receiveGet (h : st.Accounts hand) (r : GetRequest) : (st.receiveGet r).Accounts hand := by
  have hsubscribes (r' : GetRequest) (hr' : st.Subscribes r') :
      Subscriber st.accepted (st.requestsReceived + 1) r' :=
    ⟨hr'.subscribes, hr'.not_accepted, Nat.lt_succ_of_lt hr'.received⟩
  constructor
  · exact h.ledger
  · exact fun n hn => Nat.lt_succ_of_lt (h.accepted_received n hn)
  · exact fun n hn => Nat.lt_succ_of_lt (h.answered_received n hn)
  · exact fun k item hitem => (h.items k item hitem).imp fun _ r => hsubscribes r
  · exact fun op hop hsub => hsubscribes _ (h.polls op hop hsub)

/-- A store arrives and is accepted. -/
lemma receiveStore (h : st.Accounts []) : st.receiveStore.Accounts [st.requestsReceived] := by
  have hsubscribes (r : GetRequest) (hr : st.Subscribes r) :
      Subscriber (st.accepted ++ [st.requestsReceived]) (st.requestsReceived + 1) r := by
    refine ⟨hr.subscribes, ?_, Nat.lt_succ_of_lt hr.received⟩
    rw [List.mem_append, List.mem_singleton, not_or]
    exact ⟨hr.not_accepted, Nat.ne_of_lt hr.received⟩
  constructor
  · exact h.ledger.accept (fun hn => Nat.lt_irrefl _ (h.accepted_received _ hn))
      (fun hn => Nat.lt_irrefl _ (h.answered_received _ hn))
  · intro n hn
    rcases List.mem_append.1 hn with hn | hn
    · exact Nat.lt_succ_of_lt (h.accepted_received n hn)
    · obtain rfl := List.mem_singleton.1 hn
      exact Nat.lt_succ_self _
  · exact fun n hn => Nat.lt_succ_of_lt (h.answered_received n hn)
  · exact fun k item hitem => (h.items k item hitem).imp fun _ r => hsubscribes r
  · exact fun op hop hsub => hsubscribes _ (h.polls op hop hsub)

/-- A get in hand is handed to couchbase, or refused. -/
lemma scheduleGetRequest {op : RetryingGet} (h : st.Accounts op.single)
    (hop : op.getRequestRetrying.subscribes → st.Subscribes op.getRequestRetrying)
    (lcbSuccess : Bool) : (st.scheduleGetRequest op lcbSuccess).Accounts [] := by
  unfold CouchbaseDB.scheduleGetRequest
  cases lcbSuccess with
  | true =>
      rw [if_pos rfl]
      refine h.move ?_ rfl rfl rfl rfl fun op' hop' hsub => ?_
      · simp only [outstanding, singles_cons, List.nil_append]
        exact perm_gets _ _ _ _ _
      · rcases List.mem_cons.1 hop' with rfl | hop'
        · exact hop hsub
        · exact h.polls op' hop' hsub
  | false =>
      by_cases hsub : op.getRequestRetrying.subscribes
      · rw [RetryingGet.single, if_pos hsub] at h
        refine h.tell fun p hp => ?_
        obtain rfl := List.mem_singleton.1 hp
        exact ⟨_, hop hsub, rfl⟩
      · rw [RetryingGet.single, if_neg hsub] at h
        exact h.answer _

lemma scheduleStoreRequest {r : StoreRequest} (h : st.Accounts [r.number]) (lcbSuccess : Bool) :
    (st.scheduleStoreRequest r lcbSuccess).Accounts [] := by
  unfold CouchbaseDB.scheduleStoreRequest
  cases lcbSuccess with
  | true => exact h.move (List.Perm.refl _) rfl rfl rfl rfl h.polls
  | false => exact h.answer _

lemma notifyIfNothingIsPending (h : st.Accounts hand) :
    st.notifyIfNothingIsPending.Accounts hand := by
  unfold CouchbaseDB.notifyIfNothingIsPending
  split
  · exact h.move (List.Perm.refl _) rfl rfl rfl rfl h.polls
  · exact h

lemma scheduleNewGetRequest_subscriber (h : st.Accounts []) {r : GetRequest}
    (hr : st.Subscribes r) (lcbSuccess : Bool) :
    (st.scheduleNewGetRequest r lcbSuccess).Accounts [] := by
  unfold CouchbaseDB.scheduleNewGetRequest
  rw [if_pos hr.subscribes]
  refine Accounts.scheduleGetRequest ?_ (fun _ => hr) _
  rw [RetryingGet.single, if_pos hr.subscribes]
  exact h

/-- A get that wants one response is accepted. -/
lemma scheduleNewGetRequest_single (h : st.Accounts []) {r : GetRequest} (hr : ¬ r.subscribes)
    (hnumber : r.number = st.requestsReceived) (issued : GetRequest) (lcbSuccess : Bool) :
    ((st.receiveGet issued).scheduleNewGetRequest r lcbSuccess).Accounts [] := by
  have haccept := h.receiveStore
  unfold CouchbaseDB.scheduleNewGetRequest
  rw [if_neg hr]
  refine Accounts.scheduleGetRequest ?_ (fun hsub => absurd hsub hr) _
  rw [RetryingGet.single, if_neg hr]
  dsimp only
  rw [hnumber]
  exact haccept.move (List.Perm.refl _) rfl rfl rfl rfl haccept.polls

lemma handleGetRequest (h : st.Accounts []) {r : GetRequest} (hsent : r.getAndSubscribe.IsSent)
    (lcbSuccess : Bool) :
    ((st.receiveGet (st.numbered r)).handleGetRequest (st.numbered r) lcbSuccess).Accounts [] := by
  have hreceive := h.receiveGet (st.numbered r)
  have hsubscribes (hmode : r.getAndSubscribe ≠ .justGetDontSubscribe) :
      (st.receiveGet (st.numbered r)).Subscribes (st.numbered r) := by
    refine ⟨?_, fun hn => Nat.lt_irrefl _ (h.accepted_received _ hn), Nat.lt_succ_self _⟩
    have hhard : r.getAndSubscribe ≠ .getAndSubscribeHardGet := fun heq => by
      rw [heq] at hsent
      exact hsent
    simp [GetRequest.subscribes, numbered, hmode, hhard]
  refine handleGetRequest_cases (P := fun st' => st'.Accounts []) (st.numbered r) _
    ?_ ?_ ?_ ?_ ?_ hsent
  · intro hmode
    refine h.scheduleNewGetRequest_single ?_ rfl _ _
    simp [GetRequest.subscribes, hmode]
  · intro item hmode hitem
    have hr := hsubscribes hmode
    have hall := (hreceive.items _ item hitem).hit hr
    refine Accounts.tell (hreceive.setItem _ fun item' heq => Option.some.inj heq ▸ hall) ?_
    exact fun p hp => ⟨_, hr, GetAndSubscribeCacheItem.fst_of_mem_hit hp⟩
  · exact fun _ _ => hreceive
  · intro _ _
    refine h.scheduleNewGetRequest_single ?_ rfl _ _
    simp [GetRequest.subscribes]
  · intro _ hmode
    have hmode' : r.getAndSubscribe = .getAndSubscribe := hmode
    have hr := hsubscribes (by simp [hmode'])
    refine Accounts.scheduleNewGetRequest_subscriber (hreceive.setItem _ ?_) hr _
    exact fun item' heq => Option.some.inj heq ▸ GetAndSubscribeCacheItem.all_new hr

lemma setCounts (h : st.Accounts hand) (pendingStoreCount pendingGetCount : ℕ) :
    { st with
      pendingStoreCount := pendingStoreCount
      pendingGetCount := pendingGetCount }.Accounts hand :=
  h.move (List.Perm.refl _) rfl rfl rfl rfl h.polls

lemma decrementPendingStoreCountAndHandle (h : st.Accounts hand) :
    st.decrementPendingStoreCountAndHandle.Accounts hand := by
  unfold CouchbaseDB.decrementPendingStoreCountAndHandle
  exact (h.setCounts _ _).notifyIfNothingIsPending

lemma decrementPendingGetCountAndHandle (h : st.Accounts hand) :
    st.decrementPendingGetCountAndHandle.Accounts hand := by
  unfold CouchbaseDB.decrementPendingGetCountAndHandle
  exact (h.setCounts _ _).notifyIfNothingIsPending

lemma handleStoreResult (h : st.Accounts []) {r : StoreRequest} (hr : r ∈ st.stores)
    (result : StoreResult) :
    ({ st with stores := st.stores.erase r }.handleStoreResult r result).Accounts [] := by
  have htake : { st with stores := st.stores.erase r }.Accounts [r.number] := by
    refine h.move ?_ rfl rfl rfl rfl h.polls
    exact ((List.perm_cons_erase hr).map _).append_right _
  cases result with
  | success cas => exact htake.answer _
  | keyEEXISTS cas => exact htake.answer _
  | eligibleForExponentialBackoff =>
      refine htake.move ?_ rfl rfl rfl rfl h.polls
      simp only [outstanding, CouchbaseDB.handleStoreResult, List.map_cons, List.cons_append,
        List.nil_append]
      exact List.perm_middle.symm
  | otherError cas => exact htake.answer _

lemma subscribes_of_mem (h : st.Accounts hand) {op : RetryingGet}
    (hop : op ∈ st.gets ∨ op ∈ st.getsBackingOff) (hsub : op.getRequestRetrying.subscribes) :
    st.Subscribes op.getRequestRetrying :=
  h.polls op (List.mem_append.2 hop) hsub

lemma handlePollResult (h : st.Accounts []) {op : RetryingGet}
    (hop : st.Subscribes op.getRequestRetrying) (result : GetResult) :
    (st.handlePollResult op result).Accounts [] := by
  cases result with
  | success document cas =>
      unfold CouchbaseDB.handlePollResult
      dsimp only
      split
      · exact h
      · next item hitem =>
          have hall := h.items _ item hitem
          refine Accounts.tell (h.setItem _ fun item' heq => ?_) fun p hp => ?_
          · refine Option.some.inj heq ▸ hall.getCallback (fun _ r hr _ => ?_) _ _ _
            exact ⟨by simp [GetRequest.subscribes], hr.not_accepted, hr.received⟩
          · obtain ⟨_, r, hr, rfl⟩ := hall.exists_of_mem_getCallback hp
            exact ⟨r, hr, rfl⟩
  | keyENOENT =>
      have htell : (st.post [op.getRequestRetrying.respondWithoutDocument false]).Accounts [] := by
        refine h.tell fun p hp => ?_
        obtain rfl := List.mem_singleton.1 hp
        exact ⟨_, hop, rfl⟩
      exact htell.modifyItem _ fun item hitem => hitem.erase _
  | eligibleForExponentialBackoff =>
      refine h.move ?_ rfl rfl rfl rfl fun op' hop' hsub => ?_
      · have hsingle : op.single = [] := if_pos hop.subscribes
        simp only [outstanding, CouchbaseDB.handlePollResult, singles_cons, hsingle,
          List.nil_append]
        exact List.Perm.refl _
      · have hmem : op' ∈ st.gets ∨ op' = op ∨ op' ∈ st.getsBackingOff := by
          simpa [CouchbaseDB.handlePollResult] using hop'
        rcases hmem with hop' | rfl | hop'
        · exact h.subscribes_of_mem (.inl hop') hsub
        · exact hop
        · exact h.subscribes_of_mem (.inr hop') hsub
  | otherError => exact h.modifyItem _ fun item hitem => hitem

lemma handleSingleGetResult {op : RetryingGet} (hsub : ¬ op.getRequestRetrying.subscribes)
    (h : st.Accounts [op.getRequestRetrying.number]) (result : GetResult) :
    (st.handleSingleGetResult op result).Accounts [] := by
  cases result with
  | success document cas => exact h.answer _
  | keyENOENT => exact h.answer _
  | eligibleForExponentialBackoff =>
      refine h.move ?_ rfl rfl rfl rfl fun op' hop' hsub' => ?_
      · have hsingle : op.single = [op.getRequestRetrying.number] := if_neg hsub
        simp only [outstanding, CouchbaseDB.handleSingleGetResult, singles_cons, hsingle,
          List.nil_append]
        exact perm_getsBackingOff _ _ _ _ _
      · have hmem : op' ∈ st.gets ∨ op' = op ∨ op' ∈ st.getsBackingOff := by
          simpa [CouchbaseDB.handleSingleGetResult] using hop'
        rcases hmem with hop' | rfl | hop'
        · exact h.subscribes_of_mem (.inl hop') hsub'
        · exact absurd hsub' hsub
        · exact h.subscribes_of_mem (.inr hop') hsub'
  | otherError => exact h.answer _

lemma handleGetResult (h : st.Accounts []) {op : RetryingGet} (hop : op ∈ st.gets)
    (result : GetResult) :
    ({ st with gets := st.gets.erase op }.handleGetResult op result).Accounts [] := by
  have htake : { st with gets := st.gets.erase op }.Accounts op.single := by
    refine h.move ?_ rfl rfl rfl rfl fun op' hop' hsub => ?_
    · simp only [outstanding, List.nil_append]
      refine List.Perm.trans ?_ (perm_gets _ _ _ _ _).symm
      exact (((singles_erase hop).append_right _).append_left _).append_left _
    · rcases List.mem_append.1 hop' with hop' | hop'
      · exact h.subscribes_of_mem (.inl (List.mem_of_mem_erase hop')) hsub
      · exact h.subscribes_of_mem (.inr hop') hsub
  unfold CouchbaseDB.handleGetResult
  by_cases hsub : op.getRequestRetrying.subscribes
  · rw [if_pos hsub]
    rw [RetryingGet.single, if_pos hsub] at htake
    exact htake.handlePollResult (h.subscribes_of_mem (.inl hop) hsub) result
  · rw [if_neg hsub]
    rw [RetryingGet.single, if_neg hsub] at htake
    exact htake.handleSingleGetResult hsub result

/-- **Every event** keeps the accounts. -/
theorem step (h : st.Accounts []) (x : Event) : (st.step x).Accounts [] := by
  refine step_cases (P := fun st' => st'.Accounts []) x h ?_ ?_ ?_ ?_ ?_ ?_ ?_ ?_ ?_
  · intro r lcbSuccess _ _
    exact Accounts.scheduleStoreRequest (r := { r with number := st.requestsReceived })
      h.receiveStore _
  · exact fun r lcbSuccess _ _ => h.handleGetRequest r.2 _
  · exact fun r result _ hr =>
      (h.handleStoreResult hr result).decrementPendingStoreCountAndHandle
  · exact fun op result _ hop => (h.handleGetResult hop result).decrementPendingGetCountAndHandle
  · intro r lcbSuccess _ hr
    have htake : { st with storesBackingOff := st.storesBackingOff.erase r }.Accounts
        [r.number] := by
      refine h.move ?_ rfl rfl rfl rfl h.polls
      simp only [outstanding, List.nil_append, List.cons_append]
      refine List.Perm.trans ?_ List.perm_middle
      exact (((List.perm_cons_erase hr).map _).append_right _).append_left _
    exact htake.scheduleStoreRequest _
  · intro op lcbSuccess _ hop
    have htake : { st with getsBackingOff := st.getsBackingOff.erase op }.Accounts op.single := by
      refine h.move ?_ rfl rfl rfl rfl fun op' hop' hsub => ?_
      · simp only [outstanding, List.nil_append]
        refine List.Perm.trans ?_ (perm_getsBackingOff _ _ _ _ _).symm
        exact (((singles_erase hop).append_left _).append_left _).append_left _
      · rcases List.mem_append.1 hop' with hop' | hop'
        · exact h.subscribes_of_mem (.inl hop') hsub
        · exact h.subscribes_of_mem (.inr (List.mem_of_mem_erase hop')) hsub
    exact htake.scheduleGetRequest (fun hsub => h.subscribes_of_mem (.inr hop) hsub) _
  · exact fun k first lcbSuccess item _ hitem _ _ _ => h.setItem k (by simp)
  · intro k first lcbSuccess item r _ hitem _ hr
    have hall := h.items k item hitem
    have hsub : st.Subscribes r := by
      obtain ⟨a, ha | ha⟩ := hr
      · exact (hall a).old r ha
      · exact (hall a).new r ha
    refine Accounts.scheduleGetRequest ?_ (fun _ => hsub) _
    rw [RetryingGet.single, if_pos hsub.subscribes]
    exact h.setItem k fun item' heq => Option.some.inj heq ▸ hall
  · intro _
    have hstop : { st with noMoreAllowedMuahahaha := true }.Accounts [] :=
      h.move (List.Perm.refl _) rfl rfl rfl rfl h.polls
    exact hstop.notifyIfNothingIsPending

end Accounts

lemma accounts_start : Accounts {} [] where
  ledger := Ledger.empty _
  accepted_received := by simp
  answered_received := by simp [answered]
  items := by simp
  polls := by simp

/-! ## What a response leaves alone -/

/-- A response was handled.  What it changes is not listed. -/
structure Handles (st st' : CouchbaseDB) : Prop where
  stores : st'.stores = st.stores
  gets : st'.gets = st.gets
  storeCount : st'.pendingStoreCount = st.pendingStoreCount
  getCount : st'.pendingGetCount = st.pendingGetCount
  noMore : st'.noMoreAllowedMuahahaha = st.noMoreAllowedMuahahaha
  finished : st'.isFinishedWithAllPendingRequests = st.isFinishedWithAllPendingRequests
  accepted : st'.accepted = st.accepted
  received : st'.requestsReceived = st.requestsReceived
  issued : st'.issued = st.issued
  answered : st.answered ⊆ st'.answered

section Handles

variable {st : CouchbaseDB}

lemma handles_modifyItem (k : Key) (f : GetAndSubscribeCacheItem → GetAndSubscribeCacheItem) :
    st.Handles (st.modifyItem k f) := by
  unfold modifyItem
  split
  · exact ⟨rfl, rfl, rfl, rfl, rfl, rfl, rfl, rfl, rfl, List.Subset.refl _⟩
  · exact ⟨rfl, rfl, rfl, rfl, rfl, rfl, rfl, rfl, rfl, List.Subset.refl _⟩

lemma handles_post (posted : List Posted) : st.Handles (st.post posted) :=
  ⟨rfl, rfl, rfl, rfl, rfl, rfl, rfl, rfl, rfl, by simp⟩

lemma Handles.trans {st' st'' : CouchbaseDB} (h : st.Handles st') (h' : st'.Handles st'') :
    st.Handles st'' :=
  ⟨h'.stores.trans h.stores, h'.gets.trans h.gets, h'.storeCount.trans h.storeCount,
    h'.getCount.trans h.getCount, h'.noMore.trans h.noMore, h'.finished.trans h.finished,
    h'.accepted.trans h.accepted, h'.received.trans h.received, h'.issued.trans h.issued,
    List.Subset.trans h.answered h'.answered⟩

lemma handles_handleGetResult (st : CouchbaseDB) (op : RetryingGet) (result : GetResult) :
    st.Handles (st.handleGetResult op result) := by
  have hbackoff : st.Handles { st with getsBackingOff := op :: st.getsBackingOff } :=
    ⟨rfl, rfl, rfl, rfl, rfl, rfl, rfl, rfl, rfl, List.Subset.refl _⟩
  unfold handleGetResult
  split
  · cases result with
    | success document cas =>
        unfold handlePollResult
        dsimp only
        split
        · exact ⟨rfl, rfl, rfl, rfl, rfl, rfl, rfl, rfl, rfl, List.Subset.refl _⟩
        · next item _ =>
            have hset : st.Handles (st.setItem op.getRequestRetrying.couchbaseGetKeyInput
                (some (item.getCallback document cas op.startedAt).1)) :=
              ⟨rfl, rfl, rfl, rfl, rfl, rfl, rfl, rfl, rfl, List.Subset.refl _⟩
            exact hset.trans (handles_post _)
    | keyENOENT => exact (handles_post _).trans (handles_modifyItem _ _)
    | eligibleForExponentialBackoff => exact hbackoff
    | otherError => exact handles_modifyItem _ _
  · cases result with
    | success document cas => exact handles_post _
    | keyENOENT => exact handles_post _
    | eligibleForExponentialBackoff => exact hbackoff
    | otherError => exact handles_post _

lemma handles_handleStoreResult (st : CouchbaseDB) (r : StoreRequest) (result : StoreResult) :
    st.Handles (st.handleStoreResult r result) := by
  cases result with
  | success cas => exact handles_post _
  | keyEEXISTS cas => exact handles_post _
  | eligibleForExponentialBackoff =>
      exact ⟨rfl, rfl, rfl, rfl, rfl, rfl, rfl, rfl, rfl, List.Subset.refl _⟩
  | otherError cas => exact handles_post _

end Handles

end CouchbaseDB

end Autobackup.CouchbaseBackend
