import Autobackup.CouchbaseBackend.KeyStep

/-!
# The requests stay identified

`Identified` holds in every state of the backend: requests are numbered in the order in which they
arrive, and whatever the backend holds for a key is a request for it that has arrived.
-/

namespace Autobackup.CouchbaseBackend.CouchbaseDB

variable {st st' : CouchbaseDB} {k : Key}

/-- The gets that have arrived. -/
lemma issued_step (st : CouchbaseDB) (x : Event) :
    ((st.step x).issued = st.issued ∧ st.requestsReceived ≤ (st.step x).requestsReceived) ∨
      ∃ r : GetRequest, r.number = st.requestsReceived ∧ r.getAndSubscribe.IsSent ∧
        (st.step x).issued = st.issued ++ [r] ∧
          (st.step x).requestsReceived = st.requestsReceived + 1 := by
  let P (st' : CouchbaseDB) : Prop :=
    (st'.issued = st.issued ∧ st.requestsReceived ≤ st'.requestsReceived) ∨
      ∃ r : GetRequest, r.number = st.requestsReceived ∧ r.getAndSubscribe.IsSent ∧
        st'.issued = st.issued ++ [r] ∧ st'.requestsReceived = st.requestsReceived + 1
  have hsame {st' : CouchbaseDB} (hissued : st'.issued = st.issued)
      (hreceived : st'.requestsReceived = st.requestsReceived) : P st' :=
    .inl ⟨hissued, Nat.le_of_eq hreceived.symm⟩
  have hnotify {st' : CouchbaseDB} (hissued : st'.issued = st.issued)
      (hreceived : st'.requestsReceived = st.requestsReceived) :
      P st'.notifyIfNothingIsPending := by
    obtain ⟨finished, heq, -⟩ := st'.notifyIfNothingIsPending_eq
    rw [heq]
    exact hsame hissued hreceived
  refine step_cases (P := P) x (hsame rfl rfl) ?_ ?_ ?_ ?_ ?_ ?_ ?_ ?_ ?_
  · intro r lcbSuccess _ _
    refine .inl ?_
    cases lcbSuccess <;> exact ⟨rfl, Nat.le_succ _⟩
  · intro s lcbSuccess _ _
    have hnew {st' : CouchbaseDB} (hissued : st'.issued = st.issued ++ [st.numbered s.1])
        (hreceived : st'.requestsReceived = st.requestsReceived + 1) : P st' :=
      .inr ⟨st.numbered s.1, rfl, s.2, hissued, hreceived⟩
    refine handleGetRequest_cases (P := P) (st.numbered s.1) lcbSuccess ?_ ?_ ?_ ?_ ?_ s.2
    · intro _
      cases lcbSuccess <;> exact hnew rfl rfl
    · exact fun _ _ _ => hnew rfl rfl
    · exact fun _ _ => hnew rfl rfl
    · intro _ _
      cases lcbSuccess <;> exact hnew rfl rfl
    · intro _ _
      cases lcbSuccess <;> exact hnew rfl rfl
  · intro r result _ _
    have hhandles := handles_handleStoreResult { st with stores := st.stores.erase r } r result
    exact hnotify hhandles.issued hhandles.received
  · intro op result _ _
    have hhandles := handles_handleGetResult { st with gets := st.gets.erase op } op result
    exact hnotify hhandles.issued hhandles.received
  · intro r lcbSuccess _ _
    cases lcbSuccess <;> exact hsame rfl rfl
  · intro op lcbSuccess _ _
    cases lcbSuccess <;> exact hsame rfl rfl
  · exact fun _ _ _ _ _ _ _ _ _ => hsame rfl rfl
  · intro k first lcbSuccess item r _ _ _ _
    cases lcbSuccess <;> exact hsame rfl rfl
  · exact fun _ => hnotify rfl rfl

/-- Only the number of the next request can be accepted. -/
lemma accepted_step (st : CouchbaseDB) (x : Event) : ∃ accepted : List ℕ,
    (st.step x).accepted = st.accepted ++ accepted ∧ ∀ n ∈ accepted, n = st.requestsReceived := by
  let P (st' : CouchbaseDB) : Prop := ∃ accepted : List ℕ,
    st'.accepted = st.accepted ++ accepted ∧ ∀ n ∈ accepted, n = st.requestsReceived
  have hsame {st' : CouchbaseDB} (h : st'.accepted = st.accepted) : P st' :=
    ⟨[], h.trans (List.append_nil _).symm, by simp⟩
  have hnotify {st' : CouchbaseDB} (h : st'.accepted = st.accepted) :
      P st'.notifyIfNothingIsPending := by
    obtain ⟨finished, heq, -⟩ := st'.notifyIfNothingIsPending_eq
    rw [heq]
    exact hsame h
  have hnew {st' : CouchbaseDB} (h : st'.accepted = st.accepted ++ [st.requestsReceived]) : P st' :=
    ⟨_, h, fun n hn => List.mem_singleton.1 hn⟩
  refine step_cases (P := P) x (hsame rfl) ?_ ?_ ?_ ?_ ?_ ?_ ?_ ?_ ?_
  · intro r lcbSuccess _ _
    cases lcbSuccess <;> exact hnew rfl
  · intro s lcbSuccess _ _
    have hschedule (st' : CouchbaseDB) (r : GetRequest) (h : st'.accepted = st.accepted)
        (hr : r.number = st.requestsReceived) : P (st'.scheduleNewGetRequest r lcbSuccess) := by
      unfold scheduleNewGetRequest
      by_cases hsub : r.subscribes
      · refine hsame ?_
        rw [accepted_scheduleGetRequest, if_pos hsub, h]
      · refine hnew ?_
        rw [accepted_scheduleGetRequest, if_neg hsub, h, hr]
    refine handleGetRequest_cases (P := P) (st.numbered s.1) lcbSuccess ?_ ?_ ?_ ?_ ?_ s.2
    · exact fun _ => hschedule _ _ rfl rfl
    · exact fun _ _ _ => hsame rfl
    · exact fun _ _ => hsame rfl
    · exact fun _ _ => hschedule _ _ rfl rfl
    · exact fun _ _ => hschedule _ _ rfl rfl
  · intro r result _ _
    exact hnotify
      (handles_handleStoreResult { st with stores := st.stores.erase r } r result).accepted
  · intro op result _ _
    exact hnotify (handles_handleGetResult { st with gets := st.gets.erase op } op result).accepted
  · intro r lcbSuccess _ _
    cases lcbSuccess <;> exact hsame rfl
  · intro op lcbSuccess _ _
    cases lcbSuccess <;> exact hsame rfl
  · exact fun _ _ _ _ _ _ _ _ _ => hsame rfl
  · intro k first lcbSuccess item r _ _ _ _
    cases lcbSuccess <;> exact hsame rfl
  · exact fun _ => hnotify rfl

/-- Whether an earlier request is accepted does not change. -/
lemma mem_accepted_step (h : st.Identified) {r : GetRequest} (hr : r ∈ st.requestsFor k)
    (x : Event) : r.number ∈ (st.step x).accepted ↔ r.number ∈ st.accepted := by
  obtain ⟨accepted, heq, hnew⟩ := st.accepted_step x
  have hlt := h.received r (List.mem_filter.1 hr).1
  rw [heq, List.mem_append, or_iff_left]
  intro hmem
  have hnumber := hnew _ hmem
  omega

lemma held_mono (hrequests : st.requestsFor k ⊆ st'.requestsFor k) {r : GetRequest}
    (hr : st.Held k r) : st'.Held k r := by
  obtain ⟨r₀, hr₀, his⟩ := hr
  exact ⟨r₀, hrequests hr₀, his⟩

lemma requestsFor_step (st : CouchbaseDB) (k : Key) (x : Event) :
    st.requestsFor k ⊆ (st.step x).requestsFor k := by
  intro r hr
  obtain ⟨hissued, hkey⟩ := List.mem_filter.1 hr
  refine List.mem_filter.2 ⟨?_, hkey⟩
  rcases st.issued_step x with ⟨heq, -⟩ | ⟨r', -, -, heq, -⟩
  · exact heq ▸ hissued
  · exact heq ▸ List.mem_append_left _ hissued

/-- The request is held by the key as it has arrived. -/
lemma held_of_mem {r : GetRequest} (hr : r ∈ st.requestsFor k) : st.Held k r := ⟨r, hr, .inl rfl⟩

lemma Held.next {r : GetRequest} (h : st.Held k r)
    (hmode : r.getAndSubscribe = .getAndSubscribeJustOne) :
    st.Held k { r with getAndSubscribe := .getAndSubscribeJustOneNext } := by
  obtain ⟨r₀, hr₀, rfl | ⟨-, rfl⟩⟩ := h
  · exact ⟨r, hr₀, .inr ⟨hmode, rfl⟩⟩
  · cases hmode

namespace Identified

lemma items_step (h : st.Identified) (hacc : st.Accounts []) (x : Event) (k : Key)
    (item : GetAndSubscribeCacheItem) (hitem : (st.step x).getAndSubscribeCacheHash k = some item) :
    item.All fun a r => r.app = a ∧ (st.step x).Held k r := by
  have hold (item' : GetAndSubscribeCacheItem)
      (hitem' : st.getAndSubscribeCacheHash k = some item') :
      item'.All fun a r => r.app = a ∧ (st.step x).Held k r :=
    (h.items k item' hitem').imp fun a r hr =>
      ⟨hr.1, held_mono (requestsFor_step st k x) hr.2⟩
  cases h.keyStep hacc k x with
  | idle answers same => exact hold item (same ▸ hitem)
  | hit r lcb item' event accepting key mode before after polls requests =>
      rw [after] at hitem
      refine Option.some.inj hitem ▸ (hold item' before).hit ⟨rfl, held_of_mem ?_⟩
      rw [requests]
      exact List.mem_append_right _ List.mem_cons_self
  | miss r lcb event key mode before after =>
      rw [after] at hitem
      cases hitem
  | subscribe r lcb event key mode before after polls requests =>
      rw [after] at hitem
      refine Option.some.inj hitem ▸ GetAndSubscribeCacheItem.all_new (r := st.numbered r.1)
        ⟨rfl, held_of_mem ?_⟩
      rw [requests]
      exact List.mem_append_right _ List.mem_cons_self
  | success op document cas item' event inFlight key before after =>
      rw [after] at hitem
      refine Option.some.inj hitem ▸ (hold item' before).getCallback ?_ _ _ _
      exact fun a r hr hmode => ⟨hr.1, Held.next hr.2 hmode⟩
  | lost op document cas event inFlight key before after =>
      rw [after] at hitem
      cases hitem
  | keyENOENT op event inFlight key after =>
      rw [after] at hitem
      obtain ⟨item', hitem', rfl⟩ := Option.map_eq_some_iff.1 hitem
      exact (hold item' hitem').erase _
  | otherError op event inFlight key after =>
      rw [after] at hitem
      obtain ⟨item', hitem', rfl⟩ := Option.map_eq_some_iff.1 hitem
      exact hold item' hitem'
  | refused op event key after => exact hold item (after ▸ hitem)
  | delete first lcb item' event before timer none newNone after =>
      rw [after] at hitem
      cases hitem
  | poll first lcb item' r event before timer held after =>
      rw [after] at hitem
      exact Option.some.inj hitem ▸ hold item' before

lemma polls_step (h : st.Identified) (hacc : st.Accounts []) (x : Event) (k : Key)
    (op : RetryingGet) (hop : op ∈ (st.step x).polls k) :
    (st.step x).Held k op.getRequestRetrying := by
  have hold (hop : op ∈ st.polls k) : (st.step x).Held k op.getRequestRetrying :=
    held_mono (requestsFor_step st k x) (h.polls k op hop)
  have hnew {new : RetryingGet} {lcbSuccess : Bool}
      (hpolls : (st.step x).polls k = (if lcbSuccess then {new} else 0) + st.polls k)
      (hheld : (st.step x).Held k new.getRequestRetrying) :
      (st.step x).Held k op.getRequestRetrying := by
    rw [hpolls, Multiset.mem_add] at hop
    rcases hop with hop | hop
    · cases lcbSuccess with
      | true =>
          obtain rfl := Multiset.mem_singleton.1 hop
          exact hheld
      | false => cases hop
    · exact hold hop
  have hless {answered : RetryingGet} (hpolls : st.polls k = answered ::ₘ (st.step x).polls k) :
      (st.step x).Held k op.getRequestRetrying :=
    hold (hpolls ▸ Multiset.mem_cons_of_mem hop)
  cases h.keyStep hacc k x with
  | idle answers item polls => exact hold (polls ▸ hop)
  | hit r lcb item event accepting key mode before after polls => exact hold (polls ▸ hop)
  | miss r lcb event key mode before after polls => exact hold (polls ▸ hop)
  | subscribe r lcb event key mode before after polls requests =>
      refine hnew polls (held_of_mem ?_)
      rw [requests]
      exact List.mem_append_right _ List.mem_cons_self
  | success op' document cas item event inFlight key before after polls => exact hless polls
  | lost op' document cas event inFlight key before after polls => exact hless polls
  | keyENOENT op' event inFlight key after polls => exact hless polls
  | otherError op' event inFlight key after polls => exact hless polls
  | refused op' event key after polls => exact hless polls
  | delete first lcb item event before timer none newNone after polls => exact hold (polls ▸ hop)
  | poll first lcb item r event before timer held after polls =>
      refine hnew polls (held_mono (requestsFor_step st k x) ?_)
      obtain ⟨a, ha | ha⟩ := held
      · exact ((h.items k item before a).old r ha).2
      · exact ((h.items k item before a).new r ha).2

lemma step (h : st.Identified) (hacc : st.Accounts []) (x : Event) : (st.step x).Identified := by
  refine ⟨?_, ?_, ?_, h.items_step hacc x, h.polls_step hacc x⟩
  · rcases st.issued_step x with ⟨heq, hle⟩ | ⟨r', hnumber, -, heq, hreceived⟩
    · exact fun r hr => Nat.lt_of_lt_of_le (h.received r (heq ▸ hr)) hle
    · intro r hr
      rw [heq, List.mem_append, List.mem_singleton] at hr
      rw [hreceived]
      rcases hr with hr | rfl
      · exact Nat.lt_succ_of_lt (h.received r hr)
      · omega
  · rcases st.issued_step x with ⟨heq, -⟩ | ⟨r', -, hsent, heq, -⟩
    · exact heq ▸ h.sent
    · intro r hr
      rw [heq, List.mem_append, List.mem_singleton] at hr
      rcases hr with hr | rfl
      · exact h.sent r hr
      · exact hsent
  · rcases st.issued_step x with ⟨heq, -⟩ | ⟨r', hnumber, -, heq, -⟩
    · exact heq ▸ h.nodup
    · rw [heq, List.map_append, List.map_singleton, List.nodup_append]
      refine ⟨h.nodup, List.nodup_singleton _, fun n hn m hm => ?_⟩
      obtain ⟨r, hr, rfl⟩ := List.mem_map.1 hn
      obtain rfl := List.mem_singleton.1 hm
      have hlt := h.received r hr
      omega

lemma start : Identified {} where
  received := by simp
  sent := by simp
  nodup := List.nodup_nil
  items := by simp
  polls := by simp [CouchbaseDB.polls]

end Identified

end Autobackup.CouchbaseBackend.CouchbaseDB
