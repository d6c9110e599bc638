import Autobackup.CouchbaseBackend.Identified

/-!
# Subscribed keys are polled

Each key that is subscribed to has one poll: a get that is outstanding, or a timer that will start
the next one.  `Chained` says that there are never two.  The answer that the key is absent breaks
the chain and leaves the item behind, and `KeepsPolling` is the condition under which nobody waits
for it.

A timer and a get are both in flight here, as are the answers to gets; the invariant counts them for
each key.  The length of the timers is left out: what matters is that one is armed.
-/

namespace Autobackup.CouchbaseBackend

open AssociationList

/-- The requests that are put into one of the maps of a cache item. -/
def GetAndSubscribeEnum.IsAdded (mode : GetAndSubscribeEnum) : Prop :=
  mode = .getAndSubscribe ∨ mode = .getAndSubscribeJustOne
  deriving Decidable

namespace GetAndSubscribeCacheItem

/-- One of the two maps is not empty. -/
def HasSubscribers (item : GetAndSubscribeCacheItem) : Prop :=
  values item.newSubscribers ≠ [] ∨ values item.subscribers ≠ []
  deriving Decidable

variable {item : GetAndSubscribeCacheItem} {r : GetRequest}

lemma hasSubscribers_hit (hsent : r.getAndSubscribe.IsSent)
    (hsubscribes : r.getAndSubscribe ≠ .justGetDontSubscribe) :
    (item.hit r).1.HasSubscribers ↔ item.HasSubscribers ∨ r.getAndSubscribe.IsAdded := by
  have hself (s : Subscribers) : values (s.insert r.app r) ≠ [] := fun hnil => by
    have hnone := values_eq_nil.1 hnil r.app
    rw [AList.lookup_insert] at hnone
    cases hnone
  unfold hit HasSubscribers GetAndSubscribeEnum.IsAdded
  cases hmode : r.getAndSubscribe with
  | getAndSubscribe =>
      cases item.currentlyFetchingPossiblyNew with
      | true => simp [hself]
      | false => simp [hself]
  | getAndSubscribeChangeSessionId => simp
  | getAndSubscribeUnsubscribe => simp
  | getAndSubscribeJustOne => simp [hself]
  | justGetDontSubscribe => exact absurd hmode hsubscribes
  | getAndSubscribeJustOneNext =>
      rw [hmode] at hsent
      exact hsent.elim
  | getAndSubscribeHardGet =>
      rw [hmode] at hsent
      exact hsent.elim

lemma pollingTimeoutTimer_hit : (item.hit r).1.pollingTimeoutTimer = item.pollingTimeoutTimer := by
  unfold hit
  split
  · rfl
  · rfl
  · rfl
  · split
    · rfl
    · rfl

lemma currentlyFetchingPossiblyNew_hit :
    (item.hit r).1.currentlyFetchingPossiblyNew = item.currentlyFetchingPossiblyNew := by
  unfold hit
  split
  · rfl
  · rfl
  · rfl
  · split
    · rfl
    · rfl

end GetAndSubscribeCacheItem

namespace CouchbaseDB

variable {st : CouchbaseDB} {k : Key} {item : GetAndSubscribeCacheItem}

/-! ## One poll for each key -/

/-- The next update is on its way. -/
def IsPolled (st : CouchbaseDB) (k : Key) (item : GetAndSubscribeCacheItem) : Prop :=
  st.polls k ≠ 0 ∨ item.pollingTimeoutTimer
  deriving Decidable

/-- A key has at most one poll, in flight, waiting or to be started by its timer, and it has none
without an item. -/
structure Chained (st : CouchbaseDB) (k : Key) : Prop where
  missing : st.getAndSubscribeCacheHash k = none → st.polls k = 0
  atMostOne : ∀ item, st.getAndSubscribeCacheHash k = some item →
    (st.polls k).card + (if item.pollingTimeoutTimer then 1 else 0) ≤ 1

lemma Chained.timer_off (h : st.Chained k) (hitem : st.getAndSubscribeCacheHash k = some item)
    (hpolls : st.polls k ≠ 0) : item.pollingTimeoutTimer = false := by
  have hone := h.atMostOne item hitem
  have hpos := Multiset.card_pos.2 hpolls
  by_contra htimer
  rw [if_pos (Bool.eq_true_of_not_eq_false htimer)] at hone
  omega

lemma Chained.polls_of_timer (h : st.Chained k) (hitem : st.getAndSubscribeCacheHash k = some item)
    (htimer : item.pollingTimeoutTimer) : st.polls k = 0 := by
  by_contra hpolls
  rw [h.timer_off hitem hpolls] at htimer
  cases htimer

/-- Nothing is left of the poll that was answered. -/
lemma Chained.polls_of_cons (h : st.Chained k) {op : RetryingGet} {polls : Multiset RetryingGet}
    (hpolls : st.polls k = op ::ₘ polls) :
    polls = 0 ∧ ∃ item, st.getAndSubscribeCacheHash k = some item ∧
      item.pollingTimeoutTimer = false := by
  cases hitem : st.getAndSubscribeCacheHash k with
  | none =>
      have hnone := h.missing hitem
      rw [hpolls] at hnone
      exact absurd hnone (Multiset.cons_ne_zero)
  | some item =>
      have hone := h.atMostOne item hitem
      rw [hpolls, Multiset.card_cons] at hone
      refine ⟨Multiset.card_eq_zero.1 (by omega), item, rfl, ?_⟩
      exact h.timer_off hitem (hpolls ▸ Multiset.cons_ne_zero)

lemma Chained.step (h : st.Chained k) {x : Event} {st' : CouchbaseDB}
    (hstep : st.KeyStep k x st') : st'.Chained k := by
  have hno (hpolls : st'.polls k = 0) : st'.Chained k := by
    refine ⟨fun _ => hpolls, fun item _ => ?_⟩
    rw [hpolls, Multiset.card_zero]
    split <;> omega
  have hnew {op : RetryingGet} {lcbSuccess : Bool}
      (hpolls : st'.polls k = (if lcbSuccess then {op} else 0) + st.polls k)
      (hzero : st.polls k = 0)
      (hitem : ∃ item, st'.getAndSubscribeCacheHash k = some item ∧
        item.pollingTimeoutTimer = false) : st'.Chained k := by
    obtain ⟨item, hitem, htimer⟩ := hitem
    rw [hzero, Multiset.add_zero] at hpolls
    refine ⟨fun hmissing => absurd (hitem.symm.trans hmissing) (by simp), fun item' hitem' => ?_⟩
    rw [hitem] at hitem'
    obtain rfl := Option.some.inj hitem'
    rw [hpolls, htimer]
    cases lcbSuccess with
    | true => simp
    | false => simp
  cases hstep with
  | idle answers item polls =>
      exact ⟨fun hmissing => polls ▸ h.missing (item ▸ hmissing),
        fun item' hitem' => polls ▸ h.atMostOne item' (item ▸ hitem')⟩
  | hit r lcb item event accepting key mode before after polls =>
      refine ⟨fun hmissing => absurd (after.symm.trans hmissing) (by simp), fun item' hitem' => ?_⟩
      rw [after] at hitem'
      obtain rfl := Option.some.inj hitem'
      rw [polls, GetAndSubscribeCacheItem.pollingTimeoutTimer_hit]
      exact h.atMostOne item before
  | miss r lcb event key mode before after polls => exact hno (polls.trans (h.missing before))
  | subscribe r lcb event key mode before after polls =>
      exact hnew polls (h.missing before) ⟨_, after, rfl⟩
  | success op document cas item event inFlight key before after polls =>
      exact hno (h.polls_of_cons polls).1
  | lost op document cas event inFlight key before after polls =>
      exact hno (h.polls_of_cons polls).1
  | keyENOENT op event inFlight key after polls => exact hno (h.polls_of_cons polls).1
  | otherError op event inFlight key after polls => exact hno (h.polls_of_cons polls).1
  | refused op event key after polls => exact hno (h.polls_of_cons polls).1
  | delete first lcb item event before timer none newNone after polls =>
      exact hno (polls.trans (h.polls_of_timer before timer))
  | poll first lcb item r event before timer held after polls =>
      exact hnew polls (h.polls_of_timer before timer) ⟨_, after, rfl⟩

/-! ## Who is left behind -/

/-- **Every subscribed key is being polled.**  A get that is outstanding counts, and so does the
timer that starts the next one. -/
def PollsSubscribed (st : CouchbaseDB) : Prop :=
  ∀ k item, st.getAndSubscribeCacheHash k = some item → item.HasSubscribers → st.IsPolled k item

/-- Nobody is subscribed, no poll is on its way, and so nothing will ever delete the item. -/
def LeftBehind (st : CouchbaseDB) (k : Key) (item : GetAndSubscribeCacheItem) : Prop :=
  ¬ item.HasSubscribers ∧ ¬ st.IsPolled k item
  deriving Decidable

/-- The condition: when a poll learns that the key is absent, nobody but its requester is
subscribed, and nobody subscribes to an item that was left behind then. -/
def KeepsPolling (st : CouchbaseDB) : Event → Prop
  | .eventSlotForWtGet r _ =>
      st.noMoreAllowedMuahahaha = false → r.1.getAndSubscribe.IsAdded →
        ∀ item ∈ st.getAndSubscribeCacheHash r.1.couchbaseGetKeyInput,
          ¬ st.LeftBehind r.1.couchbaseGetKeyInput item
  | .getCallback op .keyENOENT =>
      op ∈ st.gets → op.getRequestRetrying.subscribes →
        ∀ item ∈ st.getAndSubscribeCacheHash op.getRequestRetrying.couchbaseGetKeyInput,
          ¬ { item with newSubscribers :=
            item.newSubscribers.erase op.getRequestRetrying.app }.HasSubscribers
  | _ => True

instance (st : CouchbaseDB) (x : Event) : Decidable (st.KeepsPolling x) := by
  unfold KeepsPolling
  split <;> infer_instance

end CouchbaseDB

/-- `lcb_get` does not refuse. -/
def Event.Schedules : Event → Prop
  | .eventSlotForWtGet _ lcbSuccess | .getTimeoutCallback _ lcbSuccess
  | .getAndSubscribePollingTimeout _ _ lcbSuccess => lcbSuccess
  | _ => True

instance : DecidablePred Event.Schedules := fun x => by
  unfold Event.Schedules
  split <;> infer_instance

namespace CouchbaseDB

variable {st : CouchbaseDB} {k : Key} {item : GetAndSubscribeCacheItem} {x : Event}

/-- A poll was just scheduled. -/
lemma isPolled_of_add {st' : CouchbaseDB} {op : RetryingGet} {lcbSuccess : Bool}
    (hpolls : st'.polls k = (if lcbSuccess then {op} else 0) + st.polls k) (hlcb : lcbSuccess) :
    st'.IsPolled k item := by
  refine .inl fun hzero => ?_
  rw [hpolls, if_pos hlcb, Multiset.singleton_add] at hzero
  exact Multiset.cons_ne_zero hzero

/-- One key, where the condition holds. -/
lemma PollsSubscribed.keyStep (hP : st.PollsSubscribed) (hx : x.Schedules)
    (hok : st.KeepsPolling x) {st' : CouchbaseDB} (hstep : st.KeyStep k x st')
    (hitem : st'.getAndSubscribeCacheHash k = some item) (hsubscribers : item.HasSubscribers) :
    st'.IsPolled k item := by
  cases hstep with
  | idle unconcerned same polls =>
      unfold IsPolled
      rw [polls]
      exact hP k item (same ▸ hitem) hsubscribers
  | hit r lcb item' event accepting key mode before after polls =>
      subst event key
      rw [after] at hitem
      obtain rfl := Option.some.inj hitem
      unfold IsPolled
      rw [polls, GetAndSubscribeCacheItem.pollingTimeoutTimer_hit]
      rcases (GetAndSubscribeCacheItem.hasSubscribers_hit (r := st.numbered r.1) r.2 mode).1
        hsubscribers with hold | hadded
      · exact hP _ item' before hold
      · have hnot := hok accepting hadded item' before
        by_contra hunpolled
        exact hnot ⟨fun hold => hunpolled (hP _ item' before hold), hunpolled⟩
  | miss r lcb event key mode before after =>
      rw [after] at hitem
      cases hitem
  | subscribe r lcb event key mode before after polls =>
      subst event
      exact isPolled_of_add polls hx
  | success op document cas item' event inFlight key before after =>
      rw [after] at hitem
      obtain rfl := Option.some.inj hitem
      exact .inr rfl
  | lost op document cas event inFlight key before after =>
      rw [after] at hitem
      cases hitem
  | keyENOENT op event inFlight key after =>
      subst event
      obtain ⟨hsub, rfl⟩ := key
      rw [after] at hitem
      obtain ⟨item', hitem', rfl⟩ := Option.map_eq_some_iff.1 hitem
      exact absurd hsubscribers (hok inFlight hsub item' hitem')
  | otherError op event inFlight key after =>
      rw [after] at hitem
      obtain ⟨item', -, rfl⟩ := Option.map_eq_some_iff.1 hitem
      exact .inr rfl
  | refused op event =>
      subst event
      cases hx
  | delete first lcb item' event before timer none newNone after =>
      rw [after] at hitem
      cases hitem
  | poll first lcb item' r event before timer held after polls =>
      subst event
      exact isPolled_of_add polls hx

/-- The condition is necessary. -/
lemma keepsPolling_of_pollsSubscribed (hchained : ∀ k, st.Chained k)
    (hstep : ∀ k, st.KeyStep k x (st.step x)) (hP : (st.step x).PollsSubscribed) :
    st.KeepsPolling x := by
  unfold KeepsPolling
  split
  · next r lcb =>
      rintro haccepting hadded item hitem ⟨-, hunpolled⟩
      have hmode : r.1.getAndSubscribe ≠ .justGetDontSubscribe := by
        rcases hadded with hadded | hadded <;> simp [hadded]
      cases hstep r.1.couchbaseGetKeyInput with
      | idle unconcerned => exact unconcerned ⟨haccepting, hmode, rfl⟩
      | hit r' lcb' item' event accepting key mode before after polls =>
          cases event
          obtain rfl := Option.some.inj (before.symm.trans hitem)
          have hsent : (st.numbered r.1).getAndSubscribe.IsSent := r.2
          have hsubscribers : (item'.hit (st.numbered r.1)).1.HasSubscribers :=
            (GetAndSubscribeCacheItem.hasSubscribers_hit hsent hmode).2 (.inr hadded)
          have hpolled := hP _ _ after hsubscribers
          unfold IsPolled at hpolled
          rw [polls, GetAndSubscribeCacheItem.pollingTimeoutTimer_hit] at hpolled
          exact hunpolled hpolled
      | miss r' lcb' event key mode before => exact absurd (before.symm.trans hitem) (by simp)
      | subscribe r' lcb' event key mode before => exact absurd (before.symm.trans hitem) (by simp)
      | _ => contradiction
  · next op =>
      rintro hop hsub item hitem hsubscribers
      cases hstep op.getRequestRetrying.couchbaseGetKeyInput with
      | idle unconcerned => exact unconcerned ⟨hop, ⟨hsub, rfl⟩, by simp⟩
      | keyENOENT op' event inFlight key after polls =>
          cases event
          have hafter := after.trans (congrArg _ hitem)
          obtain ⟨hzero, item', hitem', htimer⟩ := (hchained _).polls_of_cons polls
          obtain rfl := Option.some.inj (hitem'.symm.trans hitem)
          rcases hP _ _ hafter hsubscribers with hpolls | hpolled
          · exact hpolls hzero
          · rw [show item'.pollingTimeoutTimer = true from hpolled] at htimer
            cases htimer
      | success op' document cas item' event => cases event
      | lost op' document cas event => cases event
      | otherError op' event => cases event
      | _ => contradiction
  · trivial

/-! ## Runs -/

/-- What holds in every state. -/
structure Ordered (st : CouchbaseDB) : Prop where
  accounts : st.Accounts []
  identified : st.Identified
  chained : ∀ k, st.Chained k

lemma Ordered.keyStep (h : st.Ordered) (k : Key) (x : Event) : st.KeyStep k x (st.step x) :=
  h.identified.keyStep h.accounts k x

lemma Ordered.step (h : st.Ordered) (x : Event) : (st.step x).Ordered where
  accounts := h.accounts.step x
  identified := h.identified.step h.accounts x
  chained k := (h.chained k).step (h.keyStep k x)

lemma ordered_start : Ordered {} where
  accounts := accounts_start
  identified := .start
  chained k := ⟨fun _ => rfl, by simp⟩

/-- **A subscribed key is always being polled**, in every state of a run, if and only if no answer
that a key is absent leaves a subscriber behind or is followed by one.

A subscriber whose key is not polled waits for ever and is not told.  The answer that a key is
absent arms no timer, which is right when nobody is subscribed any more; the condition is about
those who are, or who come after it and rely on the item that it leaves behind. -/
theorem subscribed_keys_polled_iff (events : List Event) (hlcb : ∀ x ∈ events, x.Schedules) :
    Machine.HoldsThroughout step PollsSubscribed {} events ↔
      Machine.StaysWithin step KeepsPolling {} events := by
  refine Machine.holdsThroughout_iff_staysWithin (I := Ordered) Event.Schedules
    (fun st x _ hI _ _ => hI.step x) (fun st x hx hI hP => ⟨fun hP' => ?_, fun hok => ?_⟩) hlcb
    ordered_start ?_
  · exact keepsPolling_of_pollsSubscribed hI.chained (fun k => hI.keyStep k x) hP'
  · exact fun k item hitem hsubscribers => hP.keyStep hx hok (hI.keyStep k x) hitem hsubscribers
  · exact fun k item hitem => absurd hitem (by simp)

/-- Two applications subscribe to a key before couchbase says that it is absent. -/
def subscribeToAbsentKey : List Event :=
  [.eventSlotForWtGet ⟨⟨0, "one", 1, "k", true, .getAndSubscribe⟩, trivial⟩ true,
    .eventSlotForWtGet ⟨⟨0, "two", 2, "k", true, .getAndSubscribe⟩, trivial⟩ true,
    .getCallback ⟨⟨0, "one", 1, "k", true, .getAndSubscribe⟩, 1⟩ .keyENOENT]

theorem not_subscribed_keys_polled : ¬ ∀ events, (∀ x ∈ events, x.Schedules) →
    Machine.HoldsThroughout step PollsSubscribed {} events := by
  intro hpolled
  have hfinal := (hpolled subscribeToAbsentKey (by decide)).run
  have hfrozen : ∃ item ∈ (Machine.run step {} subscribeToAbsentKey).getAndSubscribeCacheHash "k",
      item.HasSubscribers ∧ ¬ (Machine.run step {} subscribeToAbsentKey).IsPolled "k" item := by
    decide +kernel
  obtain ⟨item, hitem, hsubscribers, hunpolled⟩ := hfrozen
  exact hunpolled (hfinal "k" item hitem hsubscribers)

/-- An application subscribes to a key, and the first poll finds the document. -/
def subscribeToKey : List Event :=
  [.eventSlotForWtGet ⟨⟨0, "one", 1, "k", true, .getAndSubscribe⟩, trivial⟩ true,
    .getCallback ⟨⟨0, "one", 1, "k", true, .getAndSubscribe⟩, 1⟩ (.success "document" 7),
    .getAndSubscribePollingTimeout "k" 1 true]

theorem subscribed_keys_polled_subscribeToKey :
    Machine.HoldsThroughout step PollsSubscribed {} subscribeToKey :=
  (subscribed_keys_polled_iff subscribeToKey (by decide)).2 (by decide +kernel)

end CouchbaseDB

end Autobackup.CouchbaseBackend
