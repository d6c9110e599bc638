import Autobackup.CouchbaseBackend.CacheItem
import Autobackup.Foundation.Machine
import Mathlib.Logic.Function.Basic
import Mathlib.Algebra.Group.Nat.Defs

/-!
# The backend

`CouchbaseDB` is the state of `AnonymousBitcoinComputingCouchbaseDB`, the one thread that talks to
couchbase for all others, and `CouchbaseDB.step` what its event loop does on one event.  What is
outstanding is explicit: the operations couchbase has not answered yet and those that wait in a
backoff timer.  Couchbase answers them in any order.

The lengths of the timers are left out, and so are the view queries, the recycling of the retrying
requests and the durability polls, which are not compiled in.
-/

namespace Autobackup.CouchbaseBackend

/-- What couchbase says to a get. -/
inductive GetResult
  | success (document : String) (cas : ℕ)
  /-- `LCB_KEY_ENOENT` -/
  | keyENOENT
  /-- One of the errors of `lcbErrorTypeIsEligibleForExponentialBackoff`. -/
  | eligibleForExponentialBackoff
  | otherError
  deriving DecidableEq, Repr

/-- What couchbase says to a store. -/
inductive StoreResult
  | success (cas : ℕ)
  /-- `LCB_KEY_EEXISTS` -/
  | keyEEXISTS (cas : ℕ)
  | eligibleForExponentialBackoff
  | otherError (cas : ℕ)
  deriving DecidableEq, Repr

/-- `AutoRetryingWithExponentialBackoffCouchbaseGetRequest` -/
structure RetryingGet where
  getRequestRetrying : GetRequest
  /-- How many requests had arrived when it was first scheduled.  The source does not keep it. -/
  startedAt : ℕ
  deriving DecidableEq, Repr

/-- The get is a poll for the subscribers of the key. -/
def RetryingGet.Polls (op : RetryingGet) (k : Key) : Prop :=
  op.getRequestRetrying.subscribes ∧ op.getRequestRetrying.couchbaseGetKeyInput = k
  deriving Decidable

/-- `++` of an `unsigned int`. -/
def increment (n : ℕ) : ℕ := if n + 1 = 2 ^ 32 then 0 else n + 1

/-- `--` of an `unsigned int`. -/
def decrement (n : ℕ) : ℕ := if n = 0 then 2 ^ 32 - 1 else n - 1

/-- The state of the backend. -/
structure CouchbaseDB where
  noMoreAllowedMuahahaha : Bool := false
  pendingStoreCount : ℕ := 0
  pendingGetCount : ℕ := 0
  isFinishedWithAllPendingRequests : Bool := false
  getAndSubscribeCacheHash : Key → Option GetAndSubscribeCacheItem := fun _ => none
  /-- Handed to couchbase and not answered. -/
  gets : List RetryingGet := []
  getsBackingOff : List RetryingGet := []
  stores : List StoreRequest := []
  storesBackingOff : List StoreRequest := []
  /-- What the source does not keep: how many requests have arrived, which of them were gets, the
  numbers of those that want exactly one response, and all responses. -/
  requestsReceived : ℕ := 0
  issued : List GetRequest := []
  accepted : List ℕ := []
  posted : List Posted := []

inductive Event
  /-- A request is read from a queue.  `lcbSuccess` is what `lcb_store` or `lcb_get` return, where
  they are called. -/
  | eventSlotForWtStore (r : StoreRequest) (lcbSuccess : Bool)
  | eventSlotForWtGet (r : SentRequest) (lcbSuccess : Bool)
  /-- Couchbase answers. -/
  | storeCallback (r : StoreRequest) (result : StoreResult)
  | getCallback (op : RetryingGet) (result : GetResult)
  /-- A backoff timer fires. -/
  | storeTimeoutCallback (r : StoreRequest) (lcbSuccess : Bool)
  | getTimeoutCallback (op : RetryingGet) (lcbSuccess : Bool)
  /-- The poll timer of a key fires, and the map of its subscribers begins at `first`. -/
  | getAndSubscribePollingTimeout (k : Key) (first : App) (lcbSuccess : Bool)
  | beginStoppingCouchbaseCleanly
  deriving DecidableEq, Repr

namespace CouchbaseDB

def post (st : CouchbaseDB) (posted : List Posted) : CouchbaseDB :=
  { st with posted := st.posted ++ posted }

def setItem (st : CouchbaseDB) (k : Key) (item : Option GetAndSubscribeCacheItem) : CouchbaseDB :=
  { st with getAndSubscribeCacheHash := Function.update st.getAndSubscribeCacheHash k item }

/-- Change the item of a key.  The source knows that there is one, `at` would throw. -/
def modifyItem (st : CouchbaseDB) (k : Key)
    (f : GetAndSubscribeCacheItem → GetAndSubscribeCacheItem) : CouchbaseDB :=
  match st.getAndSubscribeCacheHash k with
  | none => st
  | some item => st.setItem k (some (f item))

def scheduleGetRequest (st : CouchbaseDB) (op : RetryingGet) (lcbSuccess : Bool) : CouchbaseDB :=
  if lcbSuccess then
    { st with gets := op :: st.gets, pendingGetCount := increment st.pendingGetCount }
  else st.post [op.getRequestRetrying.respondWithoutDocument true]

def scheduleStoreRequest (st : CouchbaseDB) (r : StoreRequest) (lcbSuccess : Bool) : CouchbaseDB :=
  if lcbSuccess then
    { st with stores := r :: st.stores, pendingStoreCount := increment st.pendingStoreCount }
  else st.post [r.respond 0 false true]

/-- Schedule a request for the first time. -/
def scheduleNewGetRequest (st : CouchbaseDB) (r : GetRequest) (lcbSuccess : Bool) : CouchbaseDB :=
  { st with
    accepted := if r.subscribes then st.accepted else st.accepted ++ [r.number]
    }.scheduleGetRequest ⟨r, st.requestsReceived⟩ lcbSuccess

/-- The next request is a store. -/
def receiveStore (st : CouchbaseDB) : CouchbaseDB :=
  { st with
    requestsReceived := st.requestsReceived + 1
    accepted := st.accepted ++ [st.requestsReceived] }

/-- The next request is a get. -/
def receiveGet (st : CouchbaseDB) (r : GetRequest) : CouchbaseDB :=
  { st with requestsReceived := st.requestsReceived + 1, issued := st.issued ++ [r] }

def eventSlotForWtStore (st : CouchbaseDB) (r : StoreRequest) (lcbSuccess : Bool) : CouchbaseDB :=
  if st.noMoreAllowedMuahahaha then st
  else
    st.receiveStore.scheduleStoreRequest { r with number := st.requestsReceived } lcbSuccess

/-- A get for a key that has no cache item. -/
def cacheMiss (st : CouchbaseDB) (r : GetRequest) (lcbSuccess : Bool) : CouchbaseDB :=
  match r.getAndSubscribe with
  | .getAndSubscribeChangeSessionId | .getAndSubscribeUnsubscribe => st
  | .getAndSubscribeJustOne =>
      -- nobody polls the key, so the document is not worth an item
      st.scheduleNewGetRequest { r with getAndSubscribe := .getAndSubscribeHardGet } lcbSuccess
  | _ =>
      (st.setItem r.couchbaseGetKeyInput
        (some { newSubscribers := (∅ : Subscribers).insert r.app r })).scheduleNewGetRequest r
        lcbSuccess

/-- The rest of `eventSlotForWtGet`. -/
def handleGetRequest (st : CouchbaseDB) (r : GetRequest) (lcbSuccess : Bool) : CouchbaseDB :=
  if r.getAndSubscribe = .justGetDontSubscribe then st.scheduleNewGetRequest r lcbSuccess
  else
    match st.getAndSubscribeCacheHash r.couchbaseGetKeyInput with
    | some item => (st.setItem r.couchbaseGetKeyInput (some (item.hit r).1)).post (item.hit r).2
    | none => st.cacheMiss r lcbSuccess

/-- The request as it is known from now on. -/
def numbered (st : CouchbaseDB) (r : GetRequest) : GetRequest :=
  { r with number := st.requestsReceived }

def eventSlotForWtGet (st : CouchbaseDB) (r : GetRequest) (lcbSuccess : Bool) : CouchbaseDB :=
  if st.noMoreAllowedMuahahaha then st
  else (st.receiveGet (st.numbered r)).handleGetRequest (st.numbered r) lcbSuccess

/-- `notifyMainThreadWeAreFinishedWithAllPendingRequests`, where nothing is pending. -/
def notifyIfNothingIsPending (st : CouchbaseDB) : CouchbaseDB :=
  if st.noMoreAllowedMuahahaha ∧ st.pendingStoreCount = 0 ∧ st.pendingGetCount = 0 then
    { st with isFinishedWithAllPendingRequests := true }
  else st

def decrementPendingStoreCountAndHandle (st : CouchbaseDB) : CouchbaseDB :=
  { st with pendingStoreCount := decrement st.pendingStoreCount }.notifyIfNothingIsPending

def decrementPendingGetCountAndHandle (st : CouchbaseDB) : CouchbaseDB :=
  { st with pendingGetCount := decrement st.pendingGetCount }.notifyIfNothingIsPending

/-- `storeCallback`, once the operation is not outstanding any more. -/
def handleStoreResult (st : CouchbaseDB) (r : StoreRequest) : StoreResult → CouchbaseDB
  | .success cas => st.post [r.respond cas true false]
  | .keyEEXISTS cas => st.post [r.respond cas false false]
  -- the counter goes down all the same, though the request is not answered
  | .eligibleForExponentialBackoff => { st with storesBackingOff := r :: st.storesBackingOff }
  | .otherError cas => st.post [r.respond cas false true]

def storeCallback (st : CouchbaseDB) (r : StoreRequest) (result : StoreResult) : CouchbaseDB :=
  if r ∈ st.stores then
    ({ st with stores := st.stores.erase r
      }.handleStoreResult r result).decrementPendingStoreCountAndHandle
  else st

/-- A poll was answered. -/
def handlePollResult (st : CouchbaseDB) (op : RetryingGet) : GetResult → CouchbaseDB
  | .success document cas =>
      match st.getAndSubscribeCacheHash op.getRequestRetrying.couchbaseGetKeyInput with
      | none => st
      | some item =>
          (st.setItem op.getRequestRetrying.couchbaseGetKeyInput
            (some (item.getCallback document cas op.startedAt).1)).post
            (item.getCallback document cas op.startedAt).2
  | .keyENOENT =>
      -- the only branch that leaves the item behind and arms no timer
      (st.post [op.getRequestRetrying.respondWithoutDocument false]).modifyItem
        op.getRequestRetrying.couchbaseGetKeyInput fun item =>
          { item with newSubscribers := item.newSubscribers.erase op.getRequestRetrying.app }
  | .eligibleForExponentialBackoff => { st with getsBackingOff := op :: st.getsBackingOff }
  | .otherError =>
      st.modifyItem op.getRequestRetrying.couchbaseGetKeyInput fun item =>
        { item with pollingTimeoutTimer := true }

/-- A get was answered that is no poll. -/
def handleSingleGetResult (st : CouchbaseDB) (op : RetryingGet) : GetResult → CouchbaseDB
  | .success document cas => st.post [op.getRequestRetrying.respondWithDocument document cas]
  | .keyENOENT => st.post [op.getRequestRetrying.respondWithoutDocument false]
  | .eligibleForExponentialBackoff => { st with getsBackingOff := op :: st.getsBackingOff }
  | .otherError => st.post [op.getRequestRetrying.respondWithoutDocument true]

/-- `getCallback`, once the operation is not outstanding any more. -/
def handleGetResult (st : CouchbaseDB) (op : RetryingGet) (result : GetResult) : CouchbaseDB :=
  if op.getRequestRetrying.subscribes then st.handlePollResult op result
  else st.handleSingleGetResult op result

def getCallback (st : CouchbaseDB) (op : RetryingGet) (result : GetResult) : CouchbaseDB :=
  if op ∈ st.gets then
    ({ st with gets := st.gets.erase op
      }.handleGetResult op result).decrementPendingGetCountAndHandle
  else st

def storeTimeoutCallback (st : CouchbaseDB) (r : StoreRequest) (lcbSuccess : Bool) : CouchbaseDB :=
  if r ∈ st.storesBackingOff then
    { st with storesBackingOff := st.storesBackingOff.erase r }.scheduleStoreRequest r lcbSuccess
  else st

def getTimeoutCallback (st : CouchbaseDB) (op : RetryingGet) (lcbSuccess : Bool) : CouchbaseDB :=
  if op ∈ st.getsBackingOff then
    { st with getsBackingOff := st.getsBackingOff.erase op }.scheduleGetRequest op lcbSuccess
  else st

/-- The timer of a key fires once.  An item without subscribers is deleted. -/
def getAndSubscribePollingTimeout (st : CouchbaseDB) (k : Key) (first : App) (lcbSuccess : Bool) :
    CouchbaseDB :=
  match st.getAndSubscribeCacheHash k with
  | none => st
  | some item =>
      if item.pollingTimeoutTimer then
        match (item.subscribers.begin first).or (item.newSubscribers.begin first) with
        -- nobody is subscribed any more
        | none => st.setItem k none
        | some r =>
            (st.setItem k (some { item with
              pollingTimeoutTimer := false
              currentlyFetchingPossiblyNew := true })).scheduleGetRequest
              ⟨r, st.requestsReceived⟩ lcbSuccess
      else st

def beginStoppingCouchbaseCleanly (st : CouchbaseDB) : CouchbaseDB :=
  { st with noMoreAllowedMuahahaha := true }.notifyIfNothingIsPending

/-- What the event loop does on one event: a request of an application, an answer of couchbase, or a
timer.  An event that cannot happen in a state leaves it as it is. -/
def step (st : CouchbaseDB) : Event → CouchbaseDB
  | .eventSlotForWtStore r lcbSuccess => st.eventSlotForWtStore r lcbSuccess
  | .eventSlotForWtGet r lcbSuccess => st.eventSlotForWtGet r.1 lcbSuccess
  | .storeCallback r result => st.storeCallback r result
  | .getCallback op result => st.getCallback op result
  | .storeTimeoutCallback r lcbSuccess => st.storeTimeoutCallback r lcbSuccess
  | .getTimeoutCallback op lcbSuccess => st.getTimeoutCallback op lcbSuccess
  | .getAndSubscribePollingTimeout k first lcbSuccess =>
      st.getAndSubscribePollingTimeout k first lcbSuccess
  | .beginStoppingCouchbaseCleanly => st.beginStoppingCouchbaseCleanly

lemma notifyIfNothingIsPending_eq (st : CouchbaseDB) : ∃ finished : Bool,
    st.notifyIfNothingIsPending = { st with isFinishedWithAllPendingRequests := finished } ∧
      (finished ↔ st.isFinishedWithAllPendingRequests ∨
        st.noMoreAllowedMuahahaha ∧ st.pendingStoreCount = 0 ∧ st.pendingGetCount = 0) := by
  unfold notifyIfNothingIsPending
  split
  · next h => exact ⟨true, rfl, by simp [h]⟩
  · next h => exact ⟨st.isFinishedWithAllPendingRequests, rfl, by simp [h]⟩

/-! ## Case rules -/

variable {st : CouchbaseDB} {P : CouchbaseDB → Prop}

/-- **What a get can do** when it arrives. -/
theorem handleGetRequest_cases (r : GetRequest) (lcbSuccess : Bool)
    (justGet : r.getAndSubscribe = .justGetDontSubscribe →
      P (st.scheduleNewGetRequest r lcbSuccess))
    (hit : ∀ item, r.getAndSubscribe ≠ .justGetDontSubscribe →
      st.getAndSubscribeCacheHash r.couchbaseGetKeyInput = some item →
        P ((st.setItem r.couchbaseGetKeyInput (some (item.hit r).1)).post (item.hit r).2))
    (ignored : st.getAndSubscribeCacheHash r.couchbaseGetKeyInput = none →
      r.getAndSubscribe = .getAndSubscribeChangeSessionId ∨
        r.getAndSubscribe = .getAndSubscribeUnsubscribe → P st)
    (hardGet : st.getAndSubscribeCacheHash r.couchbaseGetKeyInput = none →
      r.getAndSubscribe = .getAndSubscribeJustOne →
        P (st.scheduleNewGetRequest { r with getAndSubscribe := .getAndSubscribeHardGet }
          lcbSuccess))
    (subscribe : st.getAndSubscribeCacheHash r.couchbaseGetKeyInput = none →
      r.getAndSubscribe = .getAndSubscribe →
        P ((st.setItem r.couchbaseGetKeyInput
          (some { newSubscribers := (∅ : Subscribers).insert r.app r })).scheduleNewGetRequest r
          lcbSuccess))
    (hsent : r.getAndSubscribe.IsSent) : P (st.handleGetRequest r lcbSuccess) := by
  unfold handleGetRequest
  split
  · next hmode => exact justGet hmode
  next hmode =>
  split
  · next item hitem => exact hit item hmode hitem
  next hmiss =>
  unfold cacheMiss
  split
  · next hr => exact ignored hmiss (.inl hr)
  · next hr => exact ignored hmiss (.inr hr)
  · next hr => exact hardGet hmiss hr
  · refine subscribe hmiss ?_
    cases hr : r.getAndSubscribe <;> simp_all [GetAndSubscribeEnum.IsSent]

/-- **What an event can do.** -/
theorem step_cases (x : Event) (nothing : P st)
    (store : ∀ r lcbSuccess, x = .eventSlotForWtStore r lcbSuccess →
      st.noMoreAllowedMuahahaha = false → P (st.receiveStore.scheduleStoreRequest
        { r with number := st.requestsReceived } lcbSuccess))
    (get : ∀ r lcbSuccess, x = .eventSlotForWtGet r lcbSuccess →
      st.noMoreAllowedMuahahaha = false →
        P ((st.receiveGet (st.numbered r.1)).handleGetRequest (st.numbered r.1) lcbSuccess))
    (storeCallback : ∀ r result, x = .storeCallback r result → r ∈ st.stores →
      P ({ st with stores := st.stores.erase r
        }.handleStoreResult r result).decrementPendingStoreCountAndHandle)
    (getCallback : ∀ op result, x = .getCallback op result → op ∈ st.gets →
      P ({ st with gets := st.gets.erase op
        }.handleGetResult op result).decrementPendingGetCountAndHandle)
    (storeTimeout : ∀ r lcbSuccess, x = .storeTimeoutCallback r lcbSuccess →
      r ∈ st.storesBackingOff →
        P ({ st with storesBackingOff := st.storesBackingOff.erase r }.scheduleStoreRequest r
          lcbSuccess))
    (getTimeout : ∀ op lcbSuccess, x = .getTimeoutCallback op lcbSuccess →
      op ∈ st.getsBackingOff →
        P ({ st with getsBackingOff := st.getsBackingOff.erase op }.scheduleGetRequest op
          lcbSuccess))
    (delete : ∀ k first lcbSuccess item, x = .getAndSubscribePollingTimeout k first lcbSuccess →
      st.getAndSubscribeCacheHash k = some item → item.pollingTimeoutTimer →
        (∀ a, item.subscribers.lookup a = none) → (∀ a, item.newSubscribers.lookup a = none) →
          P (st.setItem k none))
    (poll : ∀ k first lcbSuccess item r,
      x = .getAndSubscribePollingTimeout k first lcbSuccess →
        st.getAndSubscribeCacheHash k = some item → item.pollingTimeoutTimer →
          (∃ a, item.subscribers.lookup a = some r ∨ item.newSubscribers.lookup a = some r) →
            P ((st.setItem k (some { item with
              pollingTimeoutTimer := false
              currentlyFetchingPossiblyNew := true })).scheduleGetRequest
              ⟨r, st.requestsReceived⟩ lcbSuccess))
    (stop : x = .beginStoppingCouchbaseCleanly →
      P { st with noMoreAllowedMuahahaha := true }.notifyIfNothingIsPending) : P (st.step x) := by
  cases x with
  | eventSlotForWtStore r lcbSuccess =>
      rw [step, eventSlotForWtStore]
      split
      · exact nothing
      · next hstop => exact store r lcbSuccess rfl (Bool.eq_false_iff.2 hstop)
  | eventSlotForWtGet r lcbSuccess =>
      rw [step, eventSlotForWtGet]
      split
      · exact nothing
      · next hstop => exact get r lcbSuccess rfl (Bool.eq_false_iff.2 hstop)
  | storeCallback r result =>
      rw [step, CouchbaseDB.storeCallback]
      split
      · next hr => exact storeCallback r result rfl hr
      · exact nothing
  | getCallback op result =>
      rw [step, CouchbaseDB.getCallback]
      split
      · next hop => exact getCallback op result rfl hop
      · exact nothing
  | storeTimeoutCallback r lcbSuccess =>
      rw [step, storeTimeoutCallback]
      split
      · next hr => exact storeTimeout r lcbSuccess rfl hr
      · exact nothing
  | getTimeoutCallback op lcbSuccess =>
      rw [step, getTimeoutCallback]
      split
      · next hop => exact getTimeout op lcbSuccess rfl hop
      · exact nothing
  | getAndSubscribePollingTimeout k first lcbSuccess =>
      rw [step, getAndSubscribePollingTimeout]
      split
      · exact nothing
      next item hitem =>
      split
      · next htimer =>
          split
          · next hnone =>
              obtain ⟨hold, hnew⟩ := Option.or_eq_none_iff.1 hnone
              exact delete k first lcbSuccess item rfl hitem htimer
                (Subscribers.begin_eq_none.1 hold) (Subscribers.begin_eq_none.1 hnew)
          · next r hr =>
              refine poll k first lcbSuccess item r rfl hitem htimer ?_
              rcases Option.or_eq_some_iff.1 hr with hr | ⟨-, hr⟩
              · obtain ⟨a, ha⟩ := Subscribers.lookup_of_begin hr
                exact ⟨a, .inl ha⟩
              · obtain ⟨a, ha⟩ := Subscribers.lookup_of_begin hr
                exact ⟨a, .inr ha⟩
      · exact nothing
  | beginStoppingCouchbaseCleanly => exact stop rfl

end CouchbaseDB

end Autobackup.CouchbaseBackend
