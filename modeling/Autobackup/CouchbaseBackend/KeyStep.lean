import Autobackup.CouchbaseBackend.Accounts
import Mathlib.Data.Multiset.Filter

/-!
# What an event does to one key

Keys do not meet in the backend.  Of a key `k` there are its cache item, the polls that are
outstanding for it, and the requests that have arrived.  `KeyStep` lists what an event can do to
them, and `keyStep` says that it can do nothing else.  Every event that is about another key is
`KeyStep.idle`.
-/

namespace Autobackup.CouchbaseBackend

open AssociationList

/-- The request is `r₀` as it has arrived, or after it has turned from `getAndSubscribeJustOne` to
`getAndSubscribeJustOneNext`. -/
def GetRequest.Is (r r₀ : GetRequest) : Prop :=
  r = r₀ ∨ (r₀.getAndSubscribe = .getAndSubscribeJustOne ∧
    r = { r₀ with getAndSubscribe := .getAndSubscribeJustOneNext })

namespace GetRequest

variable {r r₀ : GetRequest}

lemma Is.number (h : r.Is r₀) : r.number = r₀.number := by
  rcases h with rfl | ⟨-, rfl⟩ <;> rfl

lemma Is.app (h : r.Is r₀) : r.app = r₀.app := by
  rcases h with rfl | ⟨-, rfl⟩ <;> rfl

lemma Is.key (h : r.Is r₀) : r.couchbaseGetKeyInput = r₀.couchbaseGetKeyInput := by
  rcases h with rfl | ⟨-, rfl⟩ <;> rfl

lemma Is.subscribes (h : r.Is r₀) (hr₀ : r₀.subscribes) : r.subscribes := by
  rcases h with rfl | ⟨-, rfl⟩
  · exact hr₀
  · simp [GetRequest.subscribes]

end GetRequest

namespace CouchbaseDB

/-- The polls that are outstanding for the subscribers of a key. -/
def polls (st : CouchbaseDB) (k : Key) : Multiset RetryingGet :=
  (↑(st.gets ++ st.getsBackingOff) : Multiset RetryingGet).filter (·.Polls k)

/-- The requests that have arrived and take part in the subscriptions of a key. -/
def requestsFor (st : CouchbaseDB) (k : Key) : List GetRequest :=
  st.issued.filter fun r => r.subscribes ∧ r.couchbaseGetKeyInput = k

/-- The event is a request for the key that takes part in the subscriptions, or it ends a poll. -/
def Concerns (st : CouchbaseDB) (k : Key) : Event → Prop
  | .eventSlotForWtGet r _ =>
      st.noMoreAllowedMuahahaha = false ∧ r.1.getAndSubscribe ≠ .justGetDontSubscribe ∧
        r.1.couchbaseGetKeyInput = k
  | .getCallback op result =>
      op ∈ st.gets ∧ op.Polls k ∧ result ≠ .eligibleForExponentialBackoff
  | _ => False

/-- What is posted, if anything, is for none of those that wait for the key. -/
def TellsOthers (st : CouchbaseDB) (k : Key) (st' : CouchbaseDB) : Prop :=
  ∃ posted, st'.posted = st.posted ++ posted ∧
    ∀ p ∈ posted, ∀ r ∈ st.requestsFor k, r.number ∉ st.accepted → p.1 ≠ r.number

/-- A request for the key, which has arrived. -/
def Held (st : CouchbaseDB) (k : Key) (r : GetRequest) : Prop := ∃ r₀ ∈ st.requestsFor k, r.Is r₀

/-- A request of this number is new, wants one response, or is for another key. -/
def IsOther (st : CouchbaseDB) (k : Key) (n : ℕ) : Prop :=
  n ∈ st.accepted ∨ n = st.requestsReceived ∨ ∃ k' r, k' ≠ k ∧ st.Held k' r ∧ n = r.number

/-- The requests are told apart by their numbers, and the backend holds no others. -/
structure Identified (st : CouchbaseDB) : Prop where
  received : ∀ r ∈ st.issued, r.number < st.requestsReceived
  sent : ∀ r ∈ st.issued, r.getAndSubscribe.IsSent
  nodup : (st.issued.map (·.number)).Nodup
  items : ∀ k item, st.getAndSubscribeCacheHash k = some item →
    item.All fun a r => r.app = a ∧ st.Held k r
  polls : ∀ k, ∀ op ∈ st.polls k, st.Held k op.getRequestRetrying

/-- What an event can do to a key. -/
inductive KeyStep (st : CouchbaseDB) (k : Key) (x : Event) (st' : CouchbaseDB) : Prop
  | idle (unconcerned : ¬ st.Concerns k x)
      (item : st'.getAndSubscribeCacheHash k = st.getAndSubscribeCacheHash k)
      (polls : st'.polls k = st.polls k) (requests : st'.requestsFor k = st.requestsFor k)
      (posted : st.TellsOthers k st')
  | hit (r : SentRequest) (lcbSuccess : Bool) (item : GetAndSubscribeCacheItem)
      (event : x = .eventSlotForWtGet r lcbSuccess)
      (accepting : st.noMoreAllowedMuahahaha = false) (key : r.1.couchbaseGetKeyInput = k)
      (mode : r.1.getAndSubscribe ≠ .justGetDontSubscribe)
      (before : st.getAndSubscribeCacheHash k = some item)
      (after : st'.getAndSubscribeCacheHash k = some (item.hit (st.numbered r.1)).1)
      (polls : st'.polls k = st.polls k)
      (requests : st'.requestsFor k = st.requestsFor k ++ [st.numbered r.1])
      (posted : st'.posted = st.posted ++ (item.hit (st.numbered r.1)).2)
  /-- A request that finds no cache item and makes none. -/
  | miss (r : SentRequest) (lcbSuccess : Bool) (event : x = .eventSlotForWtGet r lcbSuccess)
      (key : r.1.couchbaseGetKeyInput = k)
      (mode : r.1.getAndSubscribe ≠ .justGetDontSubscribe ∧
        r.1.getAndSubscribe ≠ .getAndSubscribe)
      (before : st.getAndSubscribeCacheHash k = none)
      (after : st'.getAndSubscribeCacheHash k = none) (polls : st'.polls k = st.polls k)
      (requests : st'.requestsFor k = st.requestsFor k ++ [st.numbered r.1])
      (accepted : r.1.getAndSubscribe = .getAndSubscribeJustOne →
        st.requestsReceived ∈ st'.accepted) (posted : lcbSuccess → st'.posted = st.posted)
  | subscribe (r : SentRequest) (lcbSuccess : Bool) (event : x = .eventSlotForWtGet r lcbSuccess)
      (key : r.1.couchbaseGetKeyInput = k) (mode : r.1.getAndSubscribe = .getAndSubscribe)
      (before : st.getAndSubscribeCacheHash k = none)
      (after : st'.getAndSubscribeCacheHash k =
        some { newSubscribers := (∅ : Subscribers).insert r.1.app (st.numbered r.1) })
      (polls : st'.polls k =
        (if lcbSuccess then {⟨st.numbered r.1, st.requestsReceived + 1⟩} else 0) + st.polls k)
      (requests : st'.requestsFor k = st.requestsFor k ++ [st.numbered r.1])
      (posted : lcbSuccess → st'.posted = st.posted)
  | success (op : RetryingGet) (document : String) (cas : ℕ) (item : GetAndSubscribeCacheItem)
      (event : x = .getCallback op (.success document cas)) (inFlight : op ∈ st.gets)
      (key : op.Polls k) (before : st.getAndSubscribeCacheHash k = some item)
      (after : st'.getAndSubscribeCacheHash k =
        some (item.getCallback document cas op.startedAt).1)
      (polls : st.polls k = op ::ₘ st'.polls k) (requests : st'.requestsFor k = st.requestsFor k)
      (posted : st'.posted = st.posted ++ (item.getCallback document cas op.startedAt).2)
  /-- The item is gone.  The source throws. -/
  | lost (op : RetryingGet) (document : String) (cas : ℕ)
      (event : x = .getCallback op (.success document cas)) (inFlight : op ∈ st.gets)
      (key : op.Polls k) (before : st.getAndSubscribeCacheHash k = none)
      (after : st'.getAndSubscribeCacheHash k = none) (polls : st.polls k = op ::ₘ st'.polls k)
      (requests : st'.requestsFor k = st.requestsFor k) (posted : st'.posted = st.posted)
  | keyENOENT (op : RetryingGet) (event : x = .getCallback op .keyENOENT)
      (inFlight : op ∈ st.gets) (key : op.Polls k)
      (after : st'.getAndSubscribeCacheHash k = (st.getAndSubscribeCacheHash k).map fun item =>
        { item with newSubscribers := item.newSubscribers.erase op.getRequestRetrying.app })
      (polls : st.polls k = op ::ₘ st'.polls k) (requests : st'.requestsFor k = st.requestsFor k)
  | otherError (op : RetryingGet) (event : x = .getCallback op .otherError)
      (inFlight : op ∈ st.gets) (key : op.Polls k)
      (after : st'.getAndSubscribeCacheHash k = (st.getAndSubscribeCacheHash k).map fun item =>
        { item with pollingTimeoutTimer := true })
      (polls : st.polls k = op ::ₘ st'.polls k) (requests : st'.requestsFor k = st.requestsFor k)
      (posted : st'.posted = st.posted)
  | refused (op : RetryingGet) (event : x = .getTimeoutCallback op false) (key : op.Polls k)
      (after : st'.getAndSubscribeCacheHash k = st.getAndSubscribeCacheHash k)
      (polls : st.polls k = op ::ₘ st'.polls k) (requests : st'.requestsFor k = st.requestsFor k)
  | delete (first : App) (lcbSuccess : Bool) (item : GetAndSubscribeCacheItem)
      (event : x = .getAndSubscribePollingTimeout k first lcbSuccess)
      (before : st.getAndSubscribeCacheHash k = some item) (timer : item.pollingTimeoutTimer)
      (noSubscribers : ∀ a, item.subscribers.lookup a = none)
      (noNewSubscribers : ∀ a, item.newSubscribers.lookup a = none)
      (after : st'.getAndSubscribeCacheHash k = none) (polls : st'.polls k = st.polls k)
      (requests : st'.requestsFor k = st.requestsFor k) (posted : st'.posted = st.posted)
  | poll (first : App) (lcbSuccess : Bool) (item : GetAndSubscribeCacheItem) (r : GetRequest)
      (event : x = .getAndSubscribePollingTimeout k first lcbSuccess)
      (before : st.getAndSubscribeCacheHash k = some item) (timer : item.pollingTimeoutTimer)
      (held : ∃ a, item.subscribers.lookup a = some r ∨ item.newSubscribers.lookup a = some r)
      (after : st'.getAndSubscribeCacheHash k = some { item with
        pollingTimeoutTimer := false
        currentlyFetchingPossiblyNew := true })
      (polls : st'.polls k =
        (if lcbSuccess then {⟨r, st.requestsReceived⟩} else 0) + st.polls k)
      (requests : st'.requestsFor k = st.requestsFor k)
      (posted : lcbSuccess → st'.posted = st.posted)

/-! ## The parts of the state -/

variable {st st' : CouchbaseDB} {k : Key}

lemma polls_perm (h : (st'.gets ++ st'.getsBackingOff).Perm (st.gets ++ st.getsBackingOff)) :
    st'.polls k = st.polls k := by
  unfold polls
  rw [Multiset.coe_eq_coe.2 h]

/-- One more operation, in flight or waiting. -/
lemma polls_cons {op : RetryingGet}
    (h : (st'.gets ++ st'.getsBackingOff).Perm (op :: (st.gets ++ st.getsBackingOff))) :
    st'.polls k = (if op.Polls k then {op} else 0) + st.polls k := by
  unfold polls
  rw [Multiset.coe_eq_coe.2 h, ← Multiset.cons_coe, Multiset.filter_cons]

lemma polls_scheduleGetRequest (op : RetryingGet) (lcbSuccess : Bool) :
    (st.scheduleGetRequest op lcbSuccess).polls k =
      (if lcbSuccess ∧ op.Polls k then {op} else 0) + st.polls k := by
  cases lcbSuccess with
  | true =>
      have hcons : (st.scheduleGetRequest op true).polls k =
          (if op.Polls k then {op} else 0) + st.polls k := polls_cons (List.Perm.refl _)
      rw [hcons]
      simp
  | false => simp [scheduleGetRequest, polls, post]

lemma polls_schedulePoll {op : RetryingGet} (hop : op.Polls k) (lcbSuccess : Bool) :
    (st.scheduleGetRequest op lcbSuccess).polls k =
      (if lcbSuccess then {op} else 0) + st.polls k := by
  rw [polls_scheduleGetRequest]
  simp only [hop, and_true]

lemma requestsFor_receiveGet (r : GetRequest) : (st.receiveGet r).requestsFor k =
    st.requestsFor k ++ if r.subscribes ∧ r.couchbaseGetKeyInput = k then [r] else [] := by
  unfold requestsFor receiveGet
  rw [List.filter_append]
  by_cases h : r.subscribes ∧ r.couchbaseGetKeyInput = k
  · simp [h]
  · simp [h]

@[simp] lemma setItem_self (item : Option GetAndSubscribeCacheItem) :
    (st.setItem k item).getAndSubscribeCacheHash k = item := by
  simp [setItem]

@[simp] lemma setItem_of_ne {k' : Key} (h : k' ≠ k) (item : Option GetAndSubscribeCacheItem) :
    (st.setItem k item).getAndSubscribeCacheHash k' = st.getAndSubscribeCacheHash k' := by
  simp [setItem, h]

/-- An answered operation is taken out of those in flight. -/
lemma polls_erase {op : RetryingGet} (hop : op ∈ st.gets) :
    st.polls k = (if op.Polls k then {op} else 0) +
      { st with gets := st.gets.erase op }.polls k :=
  polls_cons ((List.perm_cons_erase hop).append_right _)

lemma polls_eraseBackingOff {op : RetryingGet} (hop : op ∈ st.getsBackingOff) :
    st.polls k = (if op.Polls k then {op} else 0) +
      { st with getsBackingOff := st.getsBackingOff.erase op }.polls k :=
  polls_cons (((List.perm_cons_erase hop).append_left _).trans List.perm_middle)

lemma modifyItem_self (f : GetAndSubscribeCacheItem → GetAndSubscribeCacheItem) :
    (st.modifyItem k f).getAndSubscribeCacheHash k = (st.getAndSubscribeCacheHash k).map f := by
  unfold modifyItem
  cases hitem : st.getAndSubscribeCacheHash k with
  | none => exact hitem
  | some item => exact setItem_self _

lemma modifyItem_of_ne {k' : Key} (h : k' ≠ k)
    (f : GetAndSubscribeCacheItem → GetAndSubscribeCacheItem) :
    (st.modifyItem k f).getAndSubscribeCacheHash k' = st.getAndSubscribeCacheHash k' := by
  unfold modifyItem
  split
  · rfl
  · exact setItem_of_ne h _

/-- Apart from the hash, nothing is changed. -/
lemma modifyItem_eq (k' : Key) (f : GetAndSubscribeCacheItem → GetAndSubscribeCacheItem) :
    ∃ hash, st.modifyItem k' f = { st with getAndSubscribeCacheHash := hash } := by
  unfold modifyItem
  split
  · exact ⟨st.getAndSubscribeCacheHash, rfl⟩
  · exact ⟨_, rfl⟩

lemma polls_modifyItem (k' : Key) (f : GetAndSubscribeCacheItem → GetAndSubscribeCacheItem) :
    (st.modifyItem k' f).polls k = st.polls k := by
  obtain ⟨hash, heq⟩ := st.modifyItem_eq k' f
  rw [heq]
  rfl

lemma requestsFor_modifyItem (k' : Key) (f : GetAndSubscribeCacheItem → GetAndSubscribeCacheItem) :
    (st.modifyItem k' f).requestsFor k = st.requestsFor k := by
  obtain ⟨hash, heq⟩ := st.modifyItem_eq k' f
  rw [heq]
  rfl

lemma posted_modifyItem (k' : Key) (f : GetAndSubscribeCacheItem → GetAndSubscribeCacheItem) :
    (st.modifyItem k' f).posted = st.posted := by
  obtain ⟨hash, heq⟩ := st.modifyItem_eq k' f
  rw [heq]

section Schedule

variable (st) (op : RetryingGet) (r : StoreRequest) (lcbSuccess : Bool)

@[simp] lemma hash_scheduleGetRequest :
    (st.scheduleGetRequest op lcbSuccess).getAndSubscribeCacheHash =
      st.getAndSubscribeCacheHash := by
  cases lcbSuccess <;> rfl

@[simp] lemma issued_scheduleGetRequest :
    (st.scheduleGetRequest op lcbSuccess).issued = st.issued := by
  cases lcbSuccess <;> rfl

@[simp] lemma accepted_scheduleGetRequest :
    (st.scheduleGetRequest op lcbSuccess).accepted = st.accepted := by
  cases lcbSuccess <;> rfl

lemma posted_scheduleGetRequest : (st.scheduleGetRequest op lcbSuccess).posted =
    st.posted ++
      if lcbSuccess then [] else [op.getRequestRetrying.respondWithoutDocument true] := by
  cases lcbSuccess with
  | true => exact (List.append_nil _).symm
  | false => rfl

lemma posted_scheduleStoreRequest : (st.scheduleStoreRequest r lcbSuccess).posted =
    st.posted ++ if lcbSuccess then [] else [r.respond 0 false true] := by
  cases lcbSuccess with
  | true => exact (List.append_nil _).symm
  | false => rfl

end Schedule

/-- The counters are nobody's business. -/
lemma KeyStep.decrementPendingGetCountAndHandle {x : Event} (h : st.KeyStep k x st') :
    st.KeyStep k x st'.decrementPendingGetCountAndHandle := by
  unfold CouchbaseDB.decrementPendingGetCountAndHandle
  obtain ⟨finished, heq, -⟩ := notifyIfNothingIsPending_eq
    { st' with pendingGetCount := decrement st'.pendingGetCount }
  rw [heq]
  cases h with
  | idle unconcerned item polls requests posted =>
      exact .idle unconcerned item polls requests posted
  | hit r lcb item event accepting key mode before after polls requests posted =>
      exact .hit r lcb item event accepting key mode before after polls requests posted
  | miss r lcb event key mode before after polls requests accepted posted =>
      exact .miss r lcb event key mode before after polls requests accepted posted
  | subscribe r lcb event key mode before after polls requests posted =>
      exact .subscribe r lcb event key mode before after polls requests posted
  | success op document cas item event inFlight key before after polls requests posted =>
      exact .success op document cas item event inFlight key before after polls requests posted
  | lost op document cas event inFlight key before after polls requests posted =>
      exact .lost op document cas event inFlight key before after polls requests posted
  | keyENOENT op event inFlight key after polls requests =>
      exact .keyENOENT op event inFlight key after polls requests
  | otherError op event inFlight key after polls requests posted =>
      exact .otherError op event inFlight key after polls requests posted
  | refused op event key after polls requests => exact .refused op event key after polls requests
  | delete first lcb item event before timer none newNone after polls requests posted =>
      exact .delete first lcb item event before timer none newNone after polls requests posted
  | poll first lcb item r event before timer held after polls requests posted =>
      exact .poll first lcb item r event before timer held after polls requests posted

namespace Identified

lemma eq_of_number (h : st.Identified) {r r' : GetRequest} (hr : r ∈ st.issued)
    (hr' : r' ∈ st.issued) (hnumber : r.number = r'.number) : r = r' :=
  List.inj_on_of_nodup_map h.nodup hr hr' hnumber

lemma tellsOthers (h : st.Identified) (posted : List Posted)
    (hposted : st'.posted = st.posted ++ posted)
    (hothers : ∀ p ∈ posted, st.IsOther k p.1) : st.TellsOthers k st' := by
  refine ⟨posted, hposted, fun p hp r hr haccepted => ?_⟩
  obtain ⟨hissued, hr⟩ := List.mem_filter.1 hr
  obtain ⟨-, hkey⟩ := of_decide_eq_true hr
  rcases hothers p hp with hp | hp | ⟨k', r', hne, ⟨r₀, hr₀, his⟩, hp⟩
  · exact fun heq => haccepted (heq ▸ hp)
  · exact fun heq => absurd (h.received r hissued) (by omega)
  · intro heq
    obtain ⟨hissued₀, hr₀⟩ := List.mem_filter.1 hr₀
    obtain ⟨-, hkey₀⟩ := of_decide_eq_true hr₀
    have hsame : r₀ = r := h.eq_of_number hissued₀ hissued (his.number ▸ hp ▸ heq)
    exact hne (by rw [← hkey₀, hsame, hkey])

/-- Where nothing happens to a key. -/
lemma idle (h : st.Identified) (posted : List Posted) {x : Event} (hconcerns : ¬ st.Concerns k x)
    (hitem : st'.getAndSubscribeCacheHash k = st.getAndSubscribeCacheHash k)
    (hpolls : st'.polls k = st.polls k) (hrequests : st'.requestsFor k = st.requestsFor k)
    (hposted : st'.posted = st.posted ++ posted) (hothers : ∀ p ∈ posted, st.IsOther k p.1) :
    st.KeyStep k x st' :=
  .idle hconcerns hitem hpolls hrequests (h.tellsOthers posted hposted hothers)

/-- A store is none of the key's business. -/
lemma keyStep_scheduleStoreRequest (h : st.Identified) {x : Event} (hconcerns : ¬ st.Concerns k x)
    (hitem : st'.getAndSubscribeCacheHash k = st.getAndSubscribeCacheHash k)
    (hpolls : st'.polls k = st.polls k) (hrequests : st'.requestsFor k = st.requestsFor k)
    (hposted : st'.posted = st.posted) {r : StoreRequest}
    (hr : r.number ∈ st.accepted ∨ r.number = st.requestsReceived) (lcbSuccess : Bool) :
    st.KeyStep k x (st'.scheduleStoreRequest r lcbSuccess) := by
  refine h.idle (if lcbSuccess then [] else [r.respond 0 false true]) hconcerns ?_ ?_ ?_ ?_
    fun p hp => ?_
  · rw [← hitem]
    cases lcbSuccess <;> rfl
  · rw [← hpolls]
    cases lcbSuccess <;> rfl
  · rw [← hrequests]
    cases lcbSuccess <;> rfl
  · rw [posted_scheduleStoreRequest, hposted]
  · cases lcbSuccess with
    | true => cases hp
    | false =>
        obtain rfl := List.mem_singleton.1 hp
        exact hr.imp_right .inl

/-- Nor is a get that is no poll of the key. -/
lemma keyStep_scheduleGetRequest (h : st.Identified) {x : Event} (hconcerns : ¬ st.Concerns k x)
    (hitem : st'.getAndSubscribeCacheHash k = st.getAndSubscribeCacheHash k)
    (hpolls : st'.polls k = st.polls k) (hrequests : st'.requestsFor k = st.requestsFor k)
    (hposted : st'.posted = st.posted) {op : RetryingGet} (hop : ¬ op.Polls k)
    (hothers : st.IsOther k op.getRequestRetrying.number) (lcbSuccess : Bool) :
    st.KeyStep k x (st'.scheduleGetRequest op lcbSuccess) := by
  refine h.idle (if lcbSuccess then [] else
    [op.getRequestRetrying.respondWithoutDocument true]) hconcerns ?_ ?_ ?_ ?_ fun p hp => ?_
  · rw [hash_scheduleGetRequest, hitem]
  · rw [polls_scheduleGetRequest, if_neg fun hpoll => hop hpoll.2, Multiset.zero_add, hpolls]
  · rw [requestsFor, issued_scheduleGetRequest]
    exact hrequests
  · rw [posted_scheduleGetRequest, hposted]
  · cases lcbSuccess with
    | true => cases hp
    | false =>
        obtain rfl := List.mem_singleton.1 hp
        exact hothers

/-- A request that is for another key, or for no subscriber. -/
lemma requestsFor_receiveGet_of_not {r : GetRequest}
    (hr : ¬ (r.subscribes ∧ r.couchbaseGetKeyInput = k)) :
    (st.receiveGet r).requestsFor k = st.requestsFor k := by
  rw [requestsFor_receiveGet, if_neg hr, List.append_nil]

lemma keyStep_eventSlotForWtGet (h : st.Identified)
    (haccepting : st.noMoreAllowedMuahahaha = false) (s : SentRequest) (lcbSuccess : Bool) :
    st.KeyStep k (.eventSlotForWtGet s lcbSuccess)
      ((st.receiveGet (st.numbered s.1)).handleGetRequest (st.numbered s.1) lcbSuccess) := by
  have hconcerns (hkey : s.1.couchbaseGetKeyInput ≠ k) :
      ¬ st.Concerns k (.eventSlotForWtGet s lcbSuccess) := fun hs => hkey hs.2.2
  have hsubscribes (hmode : s.1.getAndSubscribe ≠ .justGetDontSubscribe) :
      (st.numbered s.1).subscribes := by
    have hsent := s.2
    cases hmode' : s.1.getAndSubscribe <;>
      simp_all [GetRequest.subscribes, numbered, GetAndSubscribeEnum.IsSent]
  have hrequests (hkey : s.1.couchbaseGetKeyInput = k)
      (hmode : s.1.getAndSubscribe ≠ .justGetDontSubscribe) :
      (st.receiveGet (st.numbered s.1)).requestsFor k =
        st.requestsFor k ++ [st.numbered s.1] := by
    rw [requestsFor_receiveGet, if_pos ⟨hsubscribes hmode, hkey⟩]
  have hother (hkey : s.1.couchbaseGetKeyInput ≠ k) :
      (st.receiveGet (st.numbered s.1)).requestsFor k = st.requestsFor k :=
    requestsFor_receiveGet_of_not fun hr => hkey hr.2
  refine handleGetRequest_cases (P := st.KeyStep k (.eventSlotForWtGet s lcbSuccess))
    (st.numbered s.1) lcbSuccess ?_ ?_ ?_ ?_ ?_ s.2
  · intro hmode
    have hnot : ¬ (st.numbered s.1).subscribes := by simp [GetRequest.subscribes, hmode]
    unfold scheduleNewGetRequest
    have hunconcerned : ¬ st.Concerns k (.eventSlotForWtGet s lcbSuccess) :=
      fun hs => hs.2.1 hmode
    refine h.keyStep_scheduleGetRequest hunconcerned ?_ ?_ ?_ ?_ (fun hpoll => hnot hpoll.1)
      (.inr (.inl rfl)) _
    · rfl
    · rfl
    · exact requestsFor_receiveGet_of_not fun hr => hnot hr.1
    · rfl
  · intro item hmode hitem
    by_cases hkey : s.1.couchbaseGetKeyInput = k
    · subst hkey
      exact .hit s lcbSuccess item rfl haccepting rfl hmode hitem (setItem_self _) rfl
        (hrequests rfl hmode) rfl
    · refine h.idle _ (hconcerns hkey) (setItem_of_ne (Ne.symm hkey) _) rfl (hother hkey) rfl
        fun p hp => .inr (.inl ?_)
      exact GetAndSubscribeCacheItem.fst_of_mem_hit hp
  · intro hmiss hmode
    by_cases hkey : s.1.couchbaseGetKeyInput = k
    · subst hkey
      have hmode' : s.1.getAndSubscribe ≠ .justGetDontSubscribe ∧
          s.1.getAndSubscribe ≠ .getAndSubscribe ∧
          s.1.getAndSubscribe ≠ .getAndSubscribeJustOne := by
        rcases hmode with hmode | hmode <;> simp_all [numbered]
      refine .miss s lcbSuccess rfl rfl ⟨hmode'.1, hmode'.2.1⟩ hmiss hmiss rfl
        (hrequests rfl hmode'.1) (fun hone => absurd hone hmode'.2.2) fun _ => ?_
      rfl
    · exact h.idle [] (hconcerns hkey) rfl rfl (hother hkey) (List.append_nil _).symm (by simp)
  · intro hmiss hmode
    have hmode' : s.1.getAndSubscribe = .getAndSubscribeJustOne := hmode
    unfold scheduleNewGetRequest
    by_cases hkey : s.1.couchbaseGetKeyInput = k
    · subst hkey
      refine .miss s lcbSuccess rfl rfl (by simp [hmode']) ?_ ?_ ?_ ?_ (fun _ => ?_) fun hlcb => ?_
      · exact hmiss
      · rw [hash_scheduleGetRequest]
        exact hmiss
      · rw [polls_scheduleGetRequest, if_neg (by simp [RetryingGet.Polls, GetRequest.subscribes])]
        exact Multiset.zero_add _
      · rw [requestsFor, issued_scheduleGetRequest]
        exact hrequests rfl (by simp [hmode'])
      · rw [accepted_scheduleGetRequest, if_neg (by simp [GetRequest.subscribes])]
        exact List.mem_append_right _ List.mem_cons_self
      · rw [posted_scheduleGetRequest, if_pos hlcb]
        exact List.append_nil _
    · refine h.keyStep_scheduleGetRequest (hconcerns hkey) ?_ ?_ ?_ ?_
        (fun hpoll => hkey hpoll.2) (.inr (.inl rfl)) _
      · rfl
      · rfl
      · exact hother hkey
      · rfl
  · intro hmiss hmode
    have hmode' : s.1.getAndSubscribe = .getAndSubscribe := hmode
    have hsub := hsubscribes (by simp [hmode'])
    unfold scheduleNewGetRequest
    by_cases hkey : s.1.couchbaseGetKeyInput = k
    · subst hkey
      refine .subscribe s lcbSuccess rfl rfl hmode' hmiss ?_ ?_ ?_ fun hlcb => ?_
      · rw [hash_scheduleGetRequest]
        exact setItem_self _
      · exact polls_schedulePoll ⟨hsub, rfl⟩ _
      · rw [requestsFor, issued_scheduleGetRequest]
        exact hrequests rfl (by simp [hmode'])
      · rw [posted_scheduleGetRequest, if_pos hlcb]
        exact List.append_nil _
    · refine h.keyStep_scheduleGetRequest (hconcerns hkey) ?_ ?_ ?_ ?_
        (fun hpoll => hkey hpoll.2) (.inr (.inl rfl)) _
      · exact setItem_of_ne (Ne.symm hkey) _
      · rfl
      · exact hother hkey
      · rfl

/-- A poll of the key is answered. -/
lemma keyStep_handlePollResult (h : st.Identified) {op : RetryingGet} (hop : op ∈ st.gets)
    (hpoll : op.Polls k) (result : GetResult) : st.KeyStep k (.getCallback op result)
      ({ st with gets := st.gets.erase op }.handlePollResult op result) := by
  have hpolls := polls_erase (k := k) hop
  rw [if_pos hpoll, Multiset.singleton_add] at hpolls
  obtain ⟨hsub, hkey⟩ := hpoll
  subst hkey
  cases result with
  | success document cas =>
      cases hitem : st.getAndSubscribeCacheHash op.getRequestRetrying.couchbaseGetKeyInput with
      | none =>
          simp only [handlePollResult, hitem]
          exact .lost op document cas rfl hop ⟨hsub, rfl⟩ hitem hitem hpolls rfl rfl
      | some item =>
          simp only [handlePollResult, hitem]
          exact .success op document cas item rfl hop ⟨hsub, rfl⟩ hitem (setItem_self _) hpolls
            rfl rfl
  | keyENOENT =>
      refine .keyENOENT op rfl hop ⟨hsub, rfl⟩ (modifyItem_self _) ?_ (requestsFor_modifyItem _ _)
      rw [handlePollResult, polls_modifyItem]
      exact hpolls
  | eligibleForExponentialBackoff =>
      refine h.idle [] (fun hs => hs.2.2 rfl) rfl ?_ rfl (List.append_nil _).symm (by simp)
      exact polls_perm (List.perm_middle.trans ((List.perm_cons_erase hop).symm.append_right _))
  | otherError =>
      refine .otherError op rfl hop ⟨hsub, rfl⟩ (modifyItem_self _) ?_
        (requestsFor_modifyItem _ _) (posted_modifyItem _ _)
      rw [handlePollResult, polls_modifyItem]
      exact hpolls

/-- A poll of another key is answered. -/
lemma keyStep_handlePollResult_of_ne (h : st.Identified) {op : RetryingGet} (hop : op ∈ st.gets)
    (hsub : op.getRequestRetrying.subscribes)
    (hne : op.getRequestRetrying.couchbaseGetKeyInput ≠ k) (result : GetResult) :
    st.KeyStep k (.getCallback op result)
      ({ st with gets := st.gets.erase op }.handlePollResult op result) := by
  have hconcerns : ¬ st.Concerns k (.getCallback op result) :=
    fun hs => hne hs.2.1.2
  have hpolls := polls_erase (k := k) hop
  rw [if_neg fun hpoll => hne hpoll.2, Multiset.zero_add] at hpolls
  have hheld : st.Held op.getRequestRetrying.couchbaseGetKeyInput op.getRequestRetrying :=
    h.polls _ op (Multiset.mem_filter.2 ⟨List.mem_append_left _ hop, hsub, rfl⟩)
  cases result with
  | success document cas =>
      cases hitem : st.getAndSubscribeCacheHash op.getRequestRetrying.couchbaseGetKeyInput with
      | none =>
          simp only [handlePollResult, hitem]
          exact h.idle [] hconcerns rfl hpolls.symm rfl (List.append_nil _).symm (by simp)
      | some item =>
          simp only [handlePollResult, hitem]
          refine h.idle _ hconcerns (setItem_of_ne hne.symm _) hpolls.symm rfl rfl fun p hp => ?_
          obtain ⟨a, r, hr, rfl⟩ := (h.items _ item hitem).exists_of_mem_getCallback hp
          exact .inr (.inr ⟨_, r, hne, hr.2, rfl⟩)
  | keyENOENT =>
      refine h.idle [op.getRequestRetrying.respondWithoutDocument false] hconcerns
        (modifyItem_of_ne hne.symm _) ?_ (requestsFor_modifyItem _ _) (posted_modifyItem _ _)
        fun p hp => ?_
      · rw [handlePollResult, polls_modifyItem]
        exact hpolls.symm
      · obtain rfl := List.mem_singleton.1 hp
        exact .inr (.inr ⟨_, _, hne, hheld, rfl⟩)
  | eligibleForExponentialBackoff =>
      refine h.idle [] hconcerns rfl ?_ rfl (List.append_nil _).symm (by simp)
      exact polls_perm (List.perm_middle.trans ((List.perm_cons_erase hop).symm.append_right _))
  | otherError =>
      refine h.idle [] hconcerns (modifyItem_of_ne hne.symm _) ?_ (requestsFor_modifyItem _ _) ?_
        (by simp)
      · rw [handlePollResult, polls_modifyItem]
        exact hpolls.symm
      · rw [List.append_nil]
        exact posted_modifyItem _ _

/-- A get that is no poll is answered. -/
lemma keyStep_handleSingleGetResult (h : st.Identified) (hacc : st.Accounts []) {op : RetryingGet}
    (hop : op ∈ st.gets) (hsub : ¬ op.getRequestRetrying.subscribes) (result : GetResult) :
    st.KeyStep k (.getCallback op result)
      ({ st with gets := st.gets.erase op }.handleSingleGetResult op result) := by
  have hconcerns : ¬ st.Concerns k (.getCallback op result) :=
    fun hs => hsub hs.2.1.1
  have hpolls := polls_erase (k := k) hop
  rw [if_neg fun hpoll => hsub hpoll.1, Multiset.zero_add] at hpolls
  have haccepted : op.getRequestRetrying.number ∈ st.accepted := by
    refine hacc.ledger.mem_accepted _ ?_
    have hperm := singles_erase hop
    rw [RetryingGet.single, if_neg hsub] at hperm
    have hmem : op.getRequestRetrying.number ∈ singles st.gets :=
      hperm.mem_iff.2 List.mem_cons_self
    simp [outstanding, hmem]
  have hothers (p : Posted) (hp : p.1 = op.getRequestRetrying.number) :
      ∀ p' ∈ [p], st.IsOther k p'.1 := by
    intro p' hp'
    obtain rfl := List.mem_singleton.1 hp'
    exact .inl (hp ▸ haccepted)
  cases result with
  | success document cas => exact h.idle _ hconcerns rfl hpolls.symm rfl rfl (hothers _ rfl)
  | keyENOENT => exact h.idle _ hconcerns rfl hpolls.symm rfl rfl (hothers _ rfl)
  | eligibleForExponentialBackoff =>
      refine h.idle [] hconcerns rfl ?_ rfl (List.append_nil _).symm (by simp)
      exact polls_perm (List.perm_middle.trans ((List.perm_cons_erase hop).symm.append_right _))
  | otherError => exact h.idle _ hconcerns rfl hpolls.symm rfl rfl (hothers _ rfl)

lemma keyStep_handleStoreResult (h : st.Identified) (hacc : st.Accounts []) {r : StoreRequest}
    (hr : r ∈ st.stores) (result : StoreResult) : st.KeyStep k (.storeCallback r result)
      ({ st with
        stores := st.stores.erase r
        }.handleStoreResult r result).decrementPendingStoreCountAndHandle := by
  have hconcerns : ¬ st.Concerns k (.storeCallback r result) := id
  have haccepted : r.number ∈ st.accepted := by
    refine hacc.ledger.mem_accepted _ ?_
    have hmem := List.mem_map_of_mem (f := StoreRequest.number) hr
    simp only [outstanding, List.nil_append, List.mem_append]
    exact .inl hmem
  have hothers (p : Posted) (hp : p.1 = r.number) : ∀ p' ∈ [p], st.IsOther k p'.1 := by
    intro p' hp'
    obtain rfl := List.mem_singleton.1 hp'
    exact .inl (hp ▸ haccepted)
  unfold decrementPendingStoreCountAndHandle
  obtain ⟨finished, heq, -⟩ := notifyIfNothingIsPending_eq
    { { st with stores := st.stores.erase r }.handleStoreResult r result with
      pendingStoreCount := decrement
        ({ st with stores := st.stores.erase r }.handleStoreResult r result).pendingStoreCount }
  rw [heq]
  cases result with
  | success cas => exact h.idle _ hconcerns rfl rfl rfl rfl (hothers _ rfl)
  | keyEEXISTS cas => exact h.idle _ hconcerns rfl rfl rfl rfl (hothers _ rfl)
  | eligibleForExponentialBackoff =>
      exact h.idle [] hconcerns rfl rfl rfl (List.append_nil _).symm (by simp)
  | otherError cas => exact h.idle _ hconcerns rfl rfl rfl rfl (hothers _ rfl)

/-- A backoff timer fires. -/
lemma keyStep_getTimeoutCallback (h : st.Identified) (hacc : st.Accounts []) {op : RetryingGet}
    (hop : op ∈ st.getsBackingOff) (lcbSuccess : Bool) :
    st.KeyStep k (.getTimeoutCallback op lcbSuccess)
      ({ st with getsBackingOff := st.getsBackingOff.erase op }.scheduleGetRequest op
        lcbSuccess) := by
  have hconcerns : ¬ st.Concerns k (.getTimeoutCallback op lcbSuccess) := id
  have hpolls := polls_eraseBackingOff (k := k) hop
  by_cases hpoll : op.Polls k
  · rw [if_pos hpoll] at hpolls
    cases lcbSuccess with
    | true =>
        refine h.idle [] hconcerns rfl ?_ rfl (List.append_nil _).symm (by simp)
        rw [polls_schedulePoll hpoll, hpolls, if_pos rfl]
    | false => exact .refused op rfl hpoll rfl hpolls rfl
  · rw [if_neg hpoll, Multiset.zero_add] at hpolls
    refine h.keyStep_scheduleGetRequest hconcerns ?_ hpolls.symm ?_ ?_ hpoll ?_ _
    · rfl
    · rfl
    · rfl
    by_cases hsub : op.getRequestRetrying.subscribes
    · have hne : op.getRequestRetrying.couchbaseGetKeyInput ≠ k := fun heq => hpoll ⟨hsub, heq⟩
      have hheld : st.Held op.getRequestRetrying.couchbaseGetKeyInput op.getRequestRetrying :=
        h.polls _ op (Multiset.mem_filter.2 ⟨List.mem_append_right _ hop, hsub, rfl⟩)
      exact .inr (.inr ⟨_, _, hne, hheld, rfl⟩)
    · refine .inl (hacc.ledger.mem_accepted _ ?_)
      have hperm := singles_erase hop
      rw [RetryingGet.single, if_neg hsub] at hperm
      have hmem : op.getRequestRetrying.number ∈ singles st.getsBackingOff :=
        hperm.mem_iff.2 List.mem_cons_self
      simp [outstanding, hmem]

/-- The poll timer of a key fires, and somebody is subscribed. -/
lemma keyStep_poll (h : st.Identified) {k' : Key} {first : App} {lcbSuccess : Bool}
    {item : GetAndSubscribeCacheItem} {r : GetRequest}
    (hitem : st.getAndSubscribeCacheHash k' = some item) (htimer : item.pollingTimeoutTimer)
    (hr : ∃ a, item.subscribers.lookup a = some r ∨ item.newSubscribers.lookup a = some r) :
    st.KeyStep k (.getAndSubscribePollingTimeout k' first lcbSuccess)
      ((st.setItem k' (some { item with
        pollingTimeoutTimer := false
        currentlyFetchingPossiblyNew := true })).scheduleGetRequest ⟨r, st.requestsReceived⟩
        lcbSuccess) := by
  have hheld : st.Held k' r := by
    obtain ⟨a, ha | ha⟩ := hr
    · exact ((h.items k' item hitem a).old r ha).2
    · exact ((h.items k' item hitem a).new r ha).2
  obtain ⟨r₀, hr₀, his⟩ := hheld
  obtain ⟨hsub₀, hkey₀⟩ := of_decide_eq_true (List.mem_filter.1 hr₀).2
  have hkey : r.couchbaseGetKeyInput = k' := his.key.trans hkey₀
  by_cases hk : k' = k
  · subst hk
    refine .poll first lcbSuccess item r rfl hitem htimer hr ?_ ?_ ?_ fun hlcb => ?_
    · rw [hash_scheduleGetRequest]
      exact setItem_self _
    · exact polls_schedulePoll ⟨his.subscribes hsub₀, hkey⟩ _
    · rw [requestsFor, issued_scheduleGetRequest]
      rfl
    · rw [posted_scheduleGetRequest, if_pos hlcb]
      exact List.append_nil _
  · refine h.keyStep_scheduleGetRequest id (setItem_of_ne (Ne.symm hk) _) rfl rfl
      rfl (fun hpoll => hk (hkey.symm.trans hpoll.2)) ?_ _
    exact .inr (.inr ⟨k', r, hk, ⟨r₀, hr₀, his⟩, rfl⟩)

/-- **Key by key.** -/
theorem keyStep (h : st.Identified) (hacc : st.Accounts []) (k : Key) (x : Event) :
    st.KeyStep k x (st.step x) := by
  by_cases hconcerns : st.Concerns k x
  · cases x with
    | eventSlotForWtGet s lcbSuccess =>
        rw [step, eventSlotForWtGet, if_neg (Bool.eq_false_iff.1 hconcerns.1)]
        exact h.keyStep_eventSlotForWtGet hconcerns.1 s lcbSuccess
    | getCallback op result =>
        rw [step, getCallback, if_pos hconcerns.1, handleGetResult, if_pos hconcerns.2.1.1]
        exact (h.keyStep_handlePollResult hconcerns.1 hconcerns.2.1
          result).decrementPendingGetCountAndHandle
    | _ => exact hconcerns.elim
  have hidle {st' : CouchbaseDB}
      (hitem : st'.getAndSubscribeCacheHash = st.getAndSubscribeCacheHash)
      (hpolls : st'.polls k = st.polls k) (hrequests : st'.requestsFor k = st.requestsFor k)
      (hposted : st'.posted = st.posted) : st.KeyStep k x st' :=
    h.idle [] hconcerns (by rw [hitem]) hpolls hrequests (hposted.trans (List.append_nil _).symm)
      (by simp)
  refine step_cases (P := st.KeyStep k x) x ?_ ?_ ?_ ?_ ?_ ?_ ?_ ?_ ?_ ?_
  · exact hidle rfl rfl rfl rfl
  · intro r lcbSuccess _ _
    refine h.keyStep_scheduleStoreRequest hconcerns ?_ ?_ ?_ ?_ (.inr ?_) _
    · rfl
    · rfl
    · rfl
    · rfl
    · rfl
  · rintro s lcbSuccess rfl haccepting
    exact h.keyStep_eventSlotForWtGet haccepting s lcbSuccess
  · rintro r result rfl hr
    exact h.keyStep_handleStoreResult hacc hr result
  · rintro op result rfl hop
    refine KeyStep.decrementPendingGetCountAndHandle ?_
    unfold handleGetResult
    split
    · next hsub =>
        by_cases hkey : op.getRequestRetrying.couchbaseGetKeyInput = k
        · exact h.keyStep_handlePollResult hop ⟨hsub, hkey⟩ result
        · exact h.keyStep_handlePollResult_of_ne hop hsub hkey result
    · next hsub => exact h.keyStep_handleSingleGetResult hacc hop hsub result
  · intro r lcbSuccess _ hr
    refine h.keyStep_scheduleStoreRequest hconcerns ?_ ?_ ?_ ?_ (.inl ?_) _
    · rfl
    · rfl
    · rfl
    · rfl
    · refine hacc.ledger.mem_accepted _ ?_
      have hmem := List.mem_map_of_mem (f := StoreRequest.number) hr
      simp only [outstanding, List.nil_append, List.mem_append]
      exact .inr (.inl hmem)
  · rintro op lcbSuccess rfl hop
    exact h.keyStep_getTimeoutCallback hacc hop lcbSuccess
  · rintro k' first lcbSuccess item rfl hitem htimer hnone hnoNew
    by_cases hk : k' = k
    · subst hk
      exact .delete first lcbSuccess item rfl hitem htimer hnone hnoNew (setItem_self _) rfl rfl rfl
    · exact h.idle [] hconcerns (setItem_of_ne (Ne.symm hk) _) rfl rfl (List.append_nil _).symm
        (by simp)
  · rintro k' first lcbSuccess item r rfl hitem htimer hr
    exact h.keyStep_poll hitem htimer hr
  · intro _
    obtain ⟨finished, heq, -⟩ :=
      notifyIfNothingIsPending_eq { st with noMoreAllowedMuahahaha := true }
    rw [heq]
    exact hidle rfl rfl rfl rfl

end Identified

end CouchbaseDB

end Autobackup.CouchbaseBackend
