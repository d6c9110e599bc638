import Mathlib
import Autobackup.CouchbaseBackend.WantedSubscriptions

/-!
# The current document

Whoever is subscribed has been told the document of the cache item, and no poll tells anybody the
same twice in a row.  Both are `Subscription.Informed`.  A request for one response is answered by
the poll after the next one; it waits among the new subscribers until then, and is lost if another
request of its application takes its place there (`OverwritesNobody`).

A poll is a get whose answer is compared with the CAS of the cache item.  The versions of the
document are a function of their numbers here, and every answer is one of them; that is all that is
asked of couchbase.  Messages from the backend to an application are not lost and come in their
order.
-/

namespace Autobackup.CouchbaseBackend

open AssociationList

/-- The CAS values that polls have told. -/
def polledCAS (responses : List Response) : List (Option ℕ) :=
  (responses.filter (·.polledAt.isSome)).map (·.cas)

lemma polledCAS_append (responses responses' : List Response) :
    polledCAS (responses ++ responses') = polledCAS responses ++ polledCAS responses' := by
  unfold polledCAS
  rw [List.filter_append, List.map_append]

/-- A poll tells its CAS. -/
lemma polledCAS_respondWithCAS (r : GetRequest) (document : String) (cas polledAt : ℕ) :
    polledCAS [(r.respondWithCAS document cas (some polledAt)).2] = [some cas] := rfl

namespace Subscription

variable {s : Subscription} {r : GetRequest}

/-- Who is told of the document that a poll has found, which has changed or not. -/
def told (s : Subscription) (changed : Bool) : List GetRequest :=
  (s.process.new.filter (·.getAndSubscribe ≠ .getAndSubscribeJustOne)).toList ++
    if changed then s.process.old.toList else []

/-- The subscription is told the item's document, each CAS once in a row, and what waits has not
been told anything. -/
structure Informed (s : Subscription) (responses : ℕ → List Response) (document : String)
    (cas : ℕ) : Prop where
  unsubscribes : s.unsubscribes = []
  changes : ∀ r ∈ s.changes, Plain r
  old : ∀ r, s.old = some r → Plain r
  waiting : ∀ r, s.new = some r ∨ r ∈ s.changes → responses r.number = []
  current : ∀ r, s.old = some r → ∃ polledAt,
    (responses r.number).getLast? = some ⟨document, some cas, true, false, polledAt⟩
  lastPolled : ∀ r, s.old = some r → ∀ c ∈ (polledCAS (responses r.number)).getLast?, c = some cas

end Subscription

namespace GetAndSubscribeCacheItem

variable {item : GetAndSubscribeCacheItem} {a : App} {n : ℕ}

/-- The queues do not concern the document. -/
lemma document_processRequests :
    item.processRequests.document = item.document ∧
      item.processRequests.documentCAS = item.documentCAS := by
  have hfoldr (f : GetRequest → GetAndSubscribeCacheItem → GetAndSubscribeCacheItem)
      (hf : ∀ r item, (f r item).document = item.document ∧
        (f r item).documentCAS = item.documentCAS)
      (requests : List GetRequest) (item : GetAndSubscribeCacheItem) :
      (requests.foldr f item).document = item.document ∧
        (requests.foldr f item).documentCAS = item.documentCAS := by
    induction requests with
    | nil => exact ⟨rfl, rfl⟩
    | cons r rest ih =>
        rw [List.foldr_cons]
        exact ⟨(hf r _).1.trans ih.1, (hf r _).2.trans ih.2⟩
  have hunsubscribes := hfoldr (fun r item => item.processUnsubscribeRequest r) (fun r item => by
    unfold processUnsubscribeRequest
    split
    · exact ⟨rfl, rfl⟩
    · exact ⟨rfl, rfl⟩) item.unsubscribeRequestsToProcessMomentarily item
  have hchanges := hfoldr (fun r item => item.processChangeSessionIdRequest r) (fun r item => by
    unfold processChangeSessionIdRequest
    split
    · exact ⟨rfl, rfl⟩
    · split
      · exact ⟨rfl, rfl⟩
      · exact ⟨rfl, rfl⟩)
  exact ⟨(hchanges _ _).1.trans hunsubscribes.1, (hchanges _ _).2.trans hunsubscribes.2⟩

/-- What a poll tells one request. -/
lemma filter_getCallback (h : item.All fun a' r => r.number = n → a' = a) (document : String)
    (cas polledAt : ℕ) : (item.getCallback document cas polledAt).2.filter (·.1 = n) =
      (((item.of a).told (item.documentCAS ≠ cas)).filter (·.number = n)).map
        (·.respondWithCAS document cas (some polledAt)) := by
  have hall : item.processRequests.All fun a' r => r.number = n → a' = a :=
    fun a' => of_processRequests ▸ (h a').process
  have hnew : (item.of a).process.new = item.processRequests.newSubscribers.lookup a :=
    congrArg Subscription.new of_processRequests.symm
  have hold : (item.of a).process.old = item.processRequests.subscribers.lookup a :=
    congrArg Subscription.old of_processRequests.symm
  unfold getCallback Subscription.told
  rw [List.filter_map, hnew, hold]
  refine congrArg _ ?_
  rw [List.filter_append, List.filter_append, List.filter_filter,
    document_processRequests.2]
  refine congrArg₂ _ ?_ ?_
  · rw [filter_values (a := a), ← Option.toList_filter, Option.filter_filter]
    · congr 2
      funext r
      exact Bool.and_comm _ _
    · intro a' r hr hn
      rw [Bool.and_eq_true] at hn
      exact (hall a').new r hr (of_decide_eq_true hn.1)
  · by_cases hchanged : item.documentCAS ≠ cas
    · rw [if_pos hchanged, if_pos (decide_eq_true hchanged), ← Option.toList_filter]
      exact filter_values fun a' r hr hn => (hall a').old r hr (of_decide_eq_true hn)
    · rw [if_neg hchanged, if_neg (by simpa using hchanged)]
      rfl

end GetAndSubscribeCacheItem

namespace Subscription

variable {s : Subscription} {r : GetRequest}

/-! ## The queue of session ids -/

lemma new_changeSessionId (h : s.newest.isSome) : (s.changeSessionId r).new = some r := by
  unfold changeSessionId
  cases hnew : s.new with
  | some r' => simp
  | none =>
      cases hold : s.old with
      | some r' => simp
      | none => simp [newest, hnew, hold] at h

lemma old_changeSessionId :
    (s.changeSessionId r).old = s.old ∨ (s.changeSessionId r).old = none := by
  unfold changeSessionId
  split
  · exact .inl rfl
  · split
    · exact .inr rfl
    · exact .inl rfl

lemma processUnsubscribes_eq_self (h : s.unsubscribes = []) : s.processUnsubscribes = s := by
  unfold processUnsubscribes
  rw [h]
  rfl

lemma old_process (h : s.unsubscribes = []) : s.process.old = s.old ∨ s.process.old = none := by
  change s.processUnsubscribes.processChanges.old = s.old ∨
    s.processUnsubscribes.processChanges.old = none
  rw [processUnsubscribes_eq_self h]
  unfold processChanges
  induction s.changes with
  | nil => exact .inl rfl
  | cons r rest ih =>
      rw [List.foldr_cons]
      rcases old_changeSessionId (s := rest.foldr (fun r s => s.changeSessionId r) s) (r := r)
        with hsame | hnone
      · rw [hsame]
        exact ih
      · exact .inr hnone

/-- Nothing is queued. -/
lemma process_of_noChanges (h : s.unsubscribes = []) (hchanges : s.changes = []) :
    s.process.new = s.new ∧ s.process.old = s.old := by
  change s.processUnsubscribes.processChanges.new = s.new ∧
    s.processUnsubscribes.processChanges.old = s.old
  rw [processUnsubscribes_eq_self h, processChanges, hchanges]
  exact ⟨rfl, rfl⟩

/-- A queued change of the session id becomes the new entry. -/
lemma new_process_of_changes (h : s.unsubscribes = []) (hchanges : s.changes ≠ [])
    (hnewest : s.newest.isSome) : ∃ r ∈ s.changes, s.process.new = some r := by
  have hfoldr (changes : List GetRequest) :
      (changes.foldr (fun r s => s.changeSessionId r) s).newest.isSome := by
    induction changes with
    | nil => exact hnewest
    | cons r rest ih =>
        rw [List.foldr_cons, newest_changeSessionId, Option.isSome_map]
        exact ih
  change ∃ r ∈ s.changes, s.processUnsubscribes.processChanges.new = some r
  rw [processUnsubscribes_eq_self h, processChanges]
  cases hcases : s.changes with
  | nil => exact absurd hcases hchanges
  | cons r rest => exact ⟨r, List.mem_cons_self, new_changeSessionId (hfoldr rest)⟩

/-- The new entry comes from the new ones or from the queue. -/
lemma new_process (h : s.unsubscribes = []) (hr : s.process.new = some r) :
    s.new = some r ∨ r ∈ s.changes := by
  by_cases hchanges : s.changes = []
  · rw [(process_of_noChanges h hchanges).1] at hr
    exact .inl hr
  · by_cases hnewest : s.newest.isSome
    · obtain ⟨r', hr', hprocess⟩ := new_process_of_changes h hchanges hnewest
      rw [hprocess] at hr
      exact .inr (Option.some.inj hr ▸ hr')
    · have hnone : s.process.newest = none := by
        rw [newest_process, h]
        rw [Option.not_isSome_iff_eq_none] at hnewest
        simp [hnewest]
      have hprocess := (Option.or_eq_none_iff.1 hnone).1
      rw [hr] at hprocess
      cases hprocess

/-! ## What a poll tells -/

section Informed

variable {responses responses' : ℕ → List Response} {document : String} {cas : ℕ} {changed : Bool}

/-- What is going to be told was not told before, or is the old entry. -/
lemma Informed.responses_new (h : s.Informed responses document cas)
    (hr : s.process.new = some r) : responses r.number = [] :=
  h.waiting r (new_process h.unsubscribes hr)

lemma Informed.process_old (h : s.Informed responses document cas) (hr : s.process.old = some r) :
    s.old = some r := by
  rcases old_process h.unsubscribes with hsame | hnone
  · rw [← hsame, hr]
  · rw [hr] at hnone
    cases hnone

lemma Informed.responses_old (h : s.Informed responses document cas) (hr : s.old = some r) :
    responses r.number ≠ [] := by
  intro hnil
  obtain ⟨polledAt, hlast⟩ := h.current r hr
  rw [hnil] at hlast
  cases hlast

variable (changed) in
/-- The new entry is told, unless it waits for the next poll. -/
lemma Informed.filter_told_new (h : s.Informed responses document cas)
    (hr : s.process.new = some r) : (s.told changed).filter (·.number = r.number) =
      if r.getAndSubscribe = .getAndSubscribeJustOne then [] else [r] := by
  have hold : (if changed then s.process.old.toList else []).filter (·.number = r.number) = [] := by
    refine List.filter_eq_nil_iff.2 fun r' hr' => ?_
    split at hr'
    · have hold := h.process_old (Option.mem_toList.1 hr')
      intro heq
      exact h.responses_old hold (of_decide_eq_true heq ▸ h.responses_new hr)
    · cases hr'
  unfold told
  rw [List.filter_append, hold, List.append_nil, hr]
  by_cases hmode : r.getAndSubscribe = .getAndSubscribeJustOne
  · simp [hmode]
  · rw [if_neg hmode, Option.filter_some_pos (by simpa using hmode)]
    simp

variable (changed) in
/-- The old entry is told of a change. -/
lemma Informed.filter_told_old (h : s.Informed responses document cas)
    (hr : s.process.old = some r) : (s.told changed).filter (·.number = r.number) =
      if changed then [r] else [] := by
  have hnew : (s.process.new.filter
      (·.getAndSubscribe ≠ .getAndSubscribeJustOne)).toList.filter (·.number = r.number) = [] := by
    refine List.filter_eq_nil_iff.2 fun r' hr' => ?_
    have hnew := (Option.filter_eq_some_iff.1 (Option.mem_toList.1 hr')).1
    intro heq
    refine h.responses_old (h.process_old hr) ?_
    rw [← of_decide_eq_true heq]
    exact h.responses_new hnew
  unfold told
  rw [List.filter_append, hnew, List.nil_append, hr]
  cases changed with
  | true => simp
  | false => simp

/-- Nobody else is told. -/
lemma filter_told_eq_nil {n : ℕ} (hnew : ∀ r, s.process.new = some r → r.number ≠ n)
    (hold : ∀ r, s.process.old = some r → r.number ≠ n) :
    (s.told changed).filter (·.number = n) = [] := by
  refine List.filter_eq_nil_iff.2 fun r hr => ?_
  rw [decide_eq_true_iff]
  rcases List.mem_append.1 hr with hr | hr
  · exact hnew r (Option.filter_eq_some_iff.1 (Option.mem_toList.1 hr)).1
  · split at hr
    · exact hold r (Option.mem_toList.1 hr)
    · cases hr

lemma plain_of_makeOld {r' : GetRequest} (h : GetAndSubscribeCacheItem.makeOld r' = some r) :
    r' = r ∧ Plain r := by
  unfold GetAndSubscribeCacheItem.makeOld at h
  split at h
  · cases h
  · cases h
  · next hone hnext => exact ⟨Option.some.inj h, Option.some.inj h ▸ ⟨hone, hnext⟩⟩

lemma eq_of_makeNext {r' : GetRequest} (h : GetAndSubscribeCacheItem.makeNext r' = some r) :
    r'.getAndSubscribe = .getAndSubscribeJustOne ∧
      r = { r' with getAndSubscribe := .getAndSubscribeJustOneNext } := by
  unfold GetAndSubscribeCacheItem.makeNext at h
  split at h
  · next hmode => exact ⟨hmode, (Option.some.inj h).symm⟩
  · cases h

/-- **A poll** that finds the document `document'` of the CAS `cas'`. -/
theorem Informed.polled (h : s.Informed responses document cas) {document' : String} {cas' : ℕ}
    (polledAt : ℕ) (hdocument : cas = cas' → document = document')
    (hresponses : ∀ r, s.process.new = some r ∨ s.process.old = some r →
      responses' r.number = responses r.number ++
        ((s.told (cas ≠ cas')).filter (·.number = r.number)).map
          (fun r => (r.respondWithCAS document' cas' (some polledAt)).2)) :
    s.polled.Informed responses' document' cas' := by
  -- what is known of an entry that stays an old one
  have hold (r : GetRequest) (hr : s.process.old = some r) :
      (∃ polledAt, (responses' r.number).getLast? =
        some ⟨document', some cas', true, false, polledAt⟩) ∧
          ∀ c ∈ (polledCAS (responses' r.number)).getLast?, c = some cas' := by
    have hbefore := h.process_old hr
    rw [hresponses r (.inr hr), h.filter_told_old _ hr]
    by_cases hchanged : cas = cas'
    · obtain ⟨polledAt, hlast⟩ := h.current r hbefore
      rw [if_neg (by simpa using hchanged), List.map_nil, List.append_nil, hlast, ← hchanged,
        hdocument hchanged]
      exact ⟨⟨polledAt, rfl⟩, h.lastPolled r hbefore⟩
    · rw [if_pos (by simpa using hchanged), List.map_singleton, List.getLast?_concat]
      refine ⟨⟨some polledAt, rfl⟩, fun c hc => ?_⟩
      rw [polledCAS_append, polledCAS_respondWithCAS, List.getLast?_concat] at hc
      exact (Option.mem_some_iff.1 hc).symm
  have hnew (r : GetRequest) (hr : s.process.new = some r) :
      responses' r.number = if r.getAndSubscribe = .getAndSubscribeJustOne then [] else
        [(r.respondWithCAS document' cas' (some polledAt)).2] := by
    rw [hresponses r (.inl hr), h.filter_told_new _ hr, h.responses_new hr, List.nil_append]
    split
    · rfl
    · rfl
  have hentry (r : GetRequest) (hr : s.polled.old = some r) :
      Plain r ∧ (s.process.new = some r ∨ s.process.old = some r) := by
    rcases Option.or_eq_some_iff.1 hr with hmake | ⟨-, hr⟩
    · obtain ⟨r', hr', hmake⟩ := Option.bind_eq_some_iff.1 hmake
      obtain ⟨rfl, hplain⟩ := plain_of_makeOld hmake
      exact ⟨hplain, .inl hr'⟩
    · exact ⟨h.old r (h.process_old hr), .inr hr⟩
  refine ⟨rfl, by simp [Subscription.polled, process], fun r hr => (hentry r hr).1, ?_, ?_, ?_⟩
  · rintro r (hr | hr)
    · obtain ⟨r', hr', hmake⟩ := Option.bind_eq_some_iff.1 hr
      obtain ⟨hmode, rfl⟩ := eq_of_makeNext hmake
      exact (hnew r' hr').trans (if_pos hmode)
    · simp [Subscription.polled, process] at hr
  · intro r hr
    obtain ⟨hplain, hr | hr⟩ := hentry r hr
    · rw [hnew r hr, if_neg hplain.1]
      exact ⟨some polledAt, rfl⟩
    · exact (hold r hr).1
  · intro r hr
    obtain ⟨hplain, hr | hr⟩ := hentry r hr
    · rw [hnew r hr, if_neg hplain.1, polledCAS_respondWithCAS]
      exact fun c hc => (Option.mem_some_iff.1 hc).symm
    · exact (hold r hr).2

/-- Of what is held, the responses are the same. -/
lemma Informed.congr (h : s.Informed responses document cas)
    (hresponses : ∀ r, s.new = some r ∨ s.old = some r ∨ r ∈ s.changes →
      responses' r.number = responses r.number) : s.Informed responses' document cas where
  unsubscribes := h.unsubscribes
  changes := h.changes
  old := h.old
  waiting r hr := by
    rw [hresponses r (hr.imp_right .inr), h.waiting r hr]
  current r hr := by
    rw [hresponses r (.inr (.inl hr))]
    exact h.current r hr
  lastPolled r hr := by
    rw [hresponses r (.inr (.inl hr))]
    exact h.lastPolled r hr

lemma informed_new {new : Option GetRequest} (hnew : ∀ r, new = some r → responses r.number = []) :
    Informed { new := new } responses document cas where
  unsubscribes := rfl
  changes := by simp
  old := by simp
  waiting r hr := hnew r (hr.resolve_right (by simp))
  current := by simp
  lastPolled := by simp

/-- **A request**, which is told the document at once if it subscribes while no poll is on its
way. -/
theorem Informed.hit (h : s.Informed responses document cas) (hsent : r.getAndSubscribe.IsSent)
    (hunsubscribe : r.getAndSubscribe ≠ .getAndSubscribeUnsubscribe)
    (hsubscribes : r.getAndSubscribe ≠ .justGetDontSubscribe) (fetching : Bool)
    (hresponses : responses r.number =
      if r.getAndSubscribe = .getAndSubscribe ∧ fetching = false then
        [(r.respondWithCAS document cas none).2] else []) :
    (s.hit fetching r).Informed responses document cas := by
  -- an entry of the new ones was told nothing
  have hnew (hnil : responses r.number = []) :
      { s with new := some r }.Informed responses document cas := by
    refine ⟨h.unsubscribes, h.changes, h.old, ?_, h.current, h.lastPolled⟩
    rintro r' (hr' | hr')
    · exact Option.some.inj hr' ▸ hnil
    · exact h.waiting r' (.inr hr')
  unfold Subscription.hit
  cases hmode : r.getAndSubscribe with
  | getAndSubscribe =>
      have hplain : Plain r := ⟨by simp [hmode], by simp [hmode]⟩
      rw [hmode] at hresponses
      cases fetching with
      | true => exact hnew (hresponses.trans (if_neg (by simp)))
      | false =>
          rw [if_pos ⟨rfl, rfl⟩] at hresponses
          refine ⟨h.unsubscribes, h.changes, ?_, h.waiting, ?_, ?_⟩
          · exact fun r' hr' => Option.some.inj hr' ▸ hplain
          · intro r' hr'
            obtain rfl := Option.some.inj hr'
            rw [hresponses]
            exact ⟨none, rfl⟩
          · intro r' hr' c hc
            obtain rfl := Option.some.inj hr'
            rw [hresponses] at hc
            cases hc
  | getAndSubscribeChangeSessionId =>
      have hplain : Plain r := ⟨by simp [hmode], by simp [hmode]⟩
      rw [hmode, if_neg (by simp)] at hresponses
      refine ⟨h.unsubscribes, ?_, h.old, ?_, h.current, h.lastPolled⟩
      · intro r' hr'
        rcases List.mem_append.1 hr' with hr' | hr'
        · exact h.changes r' hr'
        · exact List.mem_singleton.1 hr' ▸ hplain
      · rintro r' (hr' | hr')
        · exact h.waiting r' (.inl hr')
        · rcases List.mem_append.1 hr' with hr' | hr'
          · exact h.waiting r' (.inr hr')
          · exact List.mem_singleton.1 hr' ▸ hresponses
  | getAndSubscribeJustOne =>
      rw [hmode, if_neg (by simp)] at hresponses
      exact hnew hresponses
  | getAndSubscribeUnsubscribe => exact absurd hmode hunsubscribe
  | justGetDontSubscribe => exact absurd hmode hsubscribes
  | getAndSubscribeJustOneNext => exact absurd hsent (by simp [hmode, GetAndSubscribeEnum.IsSent])
  | getAndSubscribeHardGet => exact absurd hsent (by simp [hmode, GetAndSubscribeEnum.IsSent])

end Informed

end Subscription

namespace CouchbaseDB

/-- What was posted to one request, by its number. -/
def responses (st : CouchbaseDB) (n : ℕ) : List Response :=
  (st.posted.filter (·.1 = n)).map (·.2)

/-- The request is among the new subscribers and was told nothing. -/
def Waits (st : CouchbaseDB) (r : GetRequest) : Prop :=
  (∃ item ∈ st.getAndSubscribeCacheHash r.couchbaseGetKeyInput,
    ∃ r' ∈ item.newSubscribers.lookup r.app, r'.number = r.number) ∧ st.responses r.number = []

/-- The request has exactly one response, the result of a poll that was started later. -/
def AnsweredOnce (st : CouchbaseDB) (r : GetRequest) : Prop :=
  ∃ response polledAt, st.responses r.number = [response] ∧ response.polledAt = some polledAt ∧
    r.number < polledAt

/-- A request for one response that has found the key cached. -/
def WantsOne (st : CouchbaseDB) (k : Key) (r : GetRequest) : Prop :=
  r ∈ st.requestsFor k ∧ r.getAndSubscribe = .getAndSubscribeJustOne ∧ r.number ∉ st.accepted
  deriving Decidable

/-- **No subscriber misses the current document** of the key.

Each subscriber was told the document that the item has, no poll has told anybody the same twice in
a row, and who wants one response waits for it or has had it once. -/
structure KeepsInformed (k : Key) (st : CouchbaseDB) : Prop where
  current : ∀ item ∈ st.getAndSubscribeCacheHash k, ∀ a, ∀ r ∈ item.subscribers.lookup a,
    ∃ response ∈ (st.responses r.number).getLast?,
      response.couchbaseDocument = item.document ∧ response.cas = some item.documentCAS
  noRepeat : ∀ r ∈ st.requestsFor k, r.number ∉ st.accepted →
    (polledCAS (st.responses r.number)).IsChain (· ≠ ·)
  justOne : ∀ r, st.WantsOne k r → st.Waits r ∨ st.AnsweredOnce r

/-- The entry waits for its one response. -/
def WaitsForOne (r : GetRequest) : Prop :=
  r.getAndSubscribe = .getAndSubscribeJustOne ∨ r.getAndSubscribe = .getAndSubscribeJustOneNext
  deriving Decidable

/-- The condition: no request takes the place of one of the same application that waits for its
one response. -/
def OverwritesNobody (k : Key) (st : CouchbaseDB) (x : Event) : Prop :=
  match x with
  | .eventSlotForWtGet r _ =>
      st.noMoreAllowedMuahahaha = false → r.1.couchbaseGetKeyInput = k →
        ∀ item ∈ st.getAndSubscribeCacheHash k,
          r.1.getAndSubscribe = .getAndSubscribeJustOne ∨
            r.1.getAndSubscribe = .getAndSubscribe ∧ item.currentlyFetchingPossiblyNew →
              ∀ r' ∈ item.newSubscribers.lookup r.1.app, ¬ WaitsForOne r'
  | .getCallback op (.success _ _) =>
      op ∈ st.gets → op.Polls k → ∀ item ∈ st.getAndSubscribeCacheHash k,
        ∀ r ∈ item.changeSessionIdRequestsToProcessMomentarily,
          ∀ r' ∈ item.newSubscribers.lookup r.app, ¬ WaitsForOne r'
  | _ => True

instance (k : Key) (st : CouchbaseDB) (x : Event) : Decidable (st.OverwritesNobody k x) :=
  match x with
  | .eventSlotForWtGet r _ =>
      inferInstanceAs (Decidable (st.noMoreAllowedMuahahaha = false →
        r.1.couchbaseGetKeyInput = k → ∀ item ∈ st.getAndSubscribeCacheHash k, _ →
          ∀ r' ∈ item.newSubscribers.lookup r.1.app, ¬ WaitsForOne r'))
  | .getCallback op (.success _ _) =>
      inferInstanceAs (Decidable (op ∈ st.gets → op.Polls k →
        ∀ item ∈ st.getAndSubscribeCacheHash k,
          ∀ r ∈ item.changeSessionIdRequestsToProcessMomentarily,
            ∀ r' ∈ item.newSubscribers.lookup r.app, ¬ WaitsForOne r'))
  | .getCallback _ .keyENOENT | .getCallback _ .eligibleForExponentialBackoff
  | .getCallback _ .otherError
  | .eventSlotForWtStore _ _ | .storeCallback _ _ | .storeTimeoutCallback _ _
  | .getTimeoutCallback _ _ | .getAndSubscribePollingTimeout _ _ _
  | .beginStoppingCouchbaseCleanly => .isTrue trivial

end CouchbaseDB

/-- What happens to a key that exists and whose document has the versions `version`, where nobody
unsubscribes. -/
def Event.OnVersions (k : Key) (version : ℕ → String) (x : Event) : Prop :=
  x.Schedules ∧ match x with
    | .eventSlotForWtGet r _ =>
        r.1.couchbaseGetKeyInput = k → r.1.getAndSubscribe ≠ .getAndSubscribeUnsubscribe
    | .getCallback op (.success document cas) => op.Polls k → cas ≠ 0 ∧ document = version cas
    | .getCallback op .keyENOENT => ¬ op.Polls k
    | _ => True

instance (k : Key) (version : ℕ → String) : DecidablePred (Event.OnVersions k version) := fun x =>
  @instDecidableAnd _ _ inferInstance <|
    match x with
    | .eventSlotForWtGet r _ =>
        inferInstanceAs (Decidable (r.1.couchbaseGetKeyInput = k →
          r.1.getAndSubscribe ≠ .getAndSubscribeUnsubscribe))
    | .getCallback op (.success document cas) =>
        inferInstanceAs (Decidable (op.Polls k → cas ≠ 0 ∧ document = version cas))
    | .getCallback op .keyENOENT => inferInstanceAs (Decidable (¬ op.Polls k))
    | .getCallback _ .eligibleForExponentialBackoff | .getCallback _ .otherError
    | .eventSlotForWtStore _ _ | .storeCallback _ _ | .storeTimeoutCallback _ _
    | .getTimeoutCallback _ _ | .getAndSubscribePollingTimeout _ _ _
    | .beginStoppingCouchbaseCleanly => .isTrue trivial

namespace CouchbaseDB

variable {st st' : CouchbaseDB} {k : Key} {a : App} {x : Event} {version : ℕ → String}

/-- The document of the cache item and its CAS. -/
def document (st : CouchbaseDB) (k : Key) : String × ℕ :=
  match st.getAndSubscribeCacheHash k with
  | none => ("", 0)
  | some item => (item.document, item.documentCAS)

/-- The request needs this many answered polls to be answered. -/
def Due (st : CouchbaseDB) (k : Key) (r : GetRequest) : ℕ → Prop
  | 0 => st.AnsweredOnce r
  | 1 => (st.part k r.app).new = some { r with getAndSubscribe := .getAndSubscribeJustOneNext } ∧
      st.responses r.number = []
  | 2 => (st.part k r.app).new = some r ∧ st.responses r.number = []
  | _ => False

/-- What holds in every state, as long as nobody is overwritten. -/
structure Current (version : ℕ → String) (k : Key) (st : CouchbaseDB) : Prop where
  parts : ∀ a, (st.part k a).Informed st.responses (st.document k).1 (st.document k).2
  document : (st.document k).2 ≠ 0 → (st.document k).1 = version (st.document k).2
  next : ∀ a r, (st.part k a).new = some r → r.getAndSubscribe = .getAndSubscribeJustOneNext →
    ∀ op ∈ st.polls k, r.number < op.startedAt
  noRepeat : ∀ r ∈ st.requestsFor k, r.number ∉ st.accepted →
    (polledCAS (st.responses r.number)).IsChain (· ≠ ·)
  due : ∀ r, st.WantsOne k r → ∃ j ≤ 2, st.Due k r j

/-- What an event that answers so many polls leaves. -/
structure Advances (version : ℕ → String) (k : Key) (st st' : CouchbaseDB) (answered : ℕ) :
    Prop where
  current : st'.Current version k
  due : ∀ r, st.WantsOne k r → ∀ j, st.Due k r j → st'.Due k r (j - answered)

lemma document_of_some {item : GetAndSubscribeCacheItem}
    (hitem : st.getAndSubscribeCacheHash k = some item) :
    st.document k = (item.document, item.documentCAS) := by
  unfold document
  rw [hitem]

lemma responses_of_posted {posted : List Posted} (h : st'.posted = st.posted ++ posted) (n : ℕ) :
    st'.responses n = st.responses n ++ (posted.filter (·.1 = n)).map (·.2) := by
  unfold responses
  rw [h, List.filter_append, List.map_append]

lemma responses_of_eq (h : st'.posted = st.posted) (n : ℕ) : st'.responses n = st.responses n := by
  unfold responses
  rw [h]

/-- Nothing was posted to a request that has not arrived. -/
lemma responses_requestsReceived (h : st.Accounts []) : st.responses st.requestsReceived = [] := by
  unfold responses
  rw [List.filter_eq_nil_iff.2, List.map_nil]
  intro p hp hn
  have hlt := h.answered_received p.1 (List.mem_map_of_mem hp)
  have heq := of_decide_eq_true hn
  omega

/-- What an application's part holds is a request of that application which takes part in the
subscriptions. -/
lemma Ordered.held (h : st.Ordered) {r : GetRequest} (hr : (st.part k a).new = some r ∨
    (st.part k a).old = some r ∨ r ∈ (st.part k a).changes) :
    r.app = a ∧ r.number ∉ st.accepted ∧ ∃ r₀ ∈ st.requestsFor k, r.Is r₀ := by
  cases hitem : st.getAndSubscribeCacheHash k with
  | none =>
      rw [part_of_none hitem] at hr
      simp at hr
  | some item =>
      rw [part_of_some hitem] at hr
      have hheld := h.identified.items k item hitem a
      have hsubscribes := h.accounts.items k item hitem a
      rcases hr with hr | hr | hr
      · exact ⟨(hheld.new r hr).1, (hsubscribes.new r hr).not_accepted, (hheld.new r hr).2⟩
      · exact ⟨(hheld.old r hr).1, (hsubscribes.old r hr).not_accepted, (hheld.old r hr).2⟩
      · exact ⟨(hheld.changes r hr).1, (hsubscribes.changes r hr).not_accepted,
          (hheld.changes r hr).2⟩

/-- What was posted before the event is all that was posted to those who take part. -/
def SameResponses (st : CouchbaseDB) (k : Key) (st' : CouchbaseDB) : Prop :=
  ∀ r ∈ st.requestsFor k, r.number ∉ st.accepted → st'.responses r.number = st.responses r.number

lemma TellsOthers.sameResponses (h : st.TellsOthers k st') : st.SameResponses k st' := by
  obtain ⟨posted, hposted, hothers⟩ := h
  intro r hr haccepted
  rw [responses_of_posted hposted, List.filter_eq_nil_iff.2, List.map_nil, List.append_nil]
  exact fun p hp hn => hothers p hp r hr haccepted (of_decide_eq_true hn)

lemma SameResponses.held (h : st.SameResponses k st') (hI : st.Ordered) {r : GetRequest}
    (hr : (st.part k a).new = some r ∨ (st.part k a).old = some r ∨ r ∈ (st.part k a).changes) :
    st'.responses r.number = st.responses r.number := by
  obtain ⟨-, haccepted, r₀, hr₀, his⟩ := hI.held hr
  rw [his.number] at haccepted ⊢
  exact h r₀ hr₀ haccepted

lemma Due.of_eq {r : GetRequest} {j : ℕ} (h : st.Due k r j)
    (hmode : r.getAndSubscribe = .getAndSubscribeJustOne)
    (hkept : ∀ r', (st.part k r.app).new = some r' → WaitsForOne r' →
      (st'.part k r.app).new = some r')
    (hresponses : st'.responses r.number = st.responses r.number) : st'.Due k r j := by
  match j with
  | 0 =>
      obtain ⟨response, polledAt, heq, hpolled⟩ := h
      exact ⟨response, polledAt, hresponses.trans heq, hpolled⟩
  | 1 => exact ⟨hkept _ h.1 (.inr rfl), hresponses.trans h.2⟩
  | 2 => exact ⟨hkept _ h.1 (.inl hmode), hresponses.trans h.2⟩
  | _ + 3 => exact h.elim

/-- An event that tells those who take part nothing, and that may bring a new request. -/
lemma Current.of_sameResponses (h : st.Current version k) (hI : st.Ordered)
    (arrived : List GetRequest)
    (hrequests : (st.step x).requestsFor k = st.requestsFor k ++ arrived)
    (hsame : st.SameResponses k (st.step x))
    (hparts : ∀ a, ((st.step x).part k a).Informed (st.step x).responses
      ((st.step x).document k).1 ((st.step x).document k).2)
    (hdocument : ((st.step x).document k).2 ≠ 0 →
      ((st.step x).document k).1 = version ((st.step x).document k).2)
    (hnext : ∀ a r, ((st.step x).part k a).new = some r →
      r.getAndSubscribe = .getAndSubscribeJustOneNext →
        ∀ op ∈ (st.step x).polls k, r.number < op.startedAt)
    (hkept : ∀ a r', (st.part k a).new = some r' → WaitsForOne r' →
      ((st.step x).part k a).new = some r')
    (harrived : ∀ r ∈ arrived, polledCAS ((st.step x).responses r.number) = [] ∧
      ((st.step x).WantsOne k r → ∃ j ≤ 2, (st.step x).Due k r j)) :
    Advances version k st (st.step x) 0 := by
  have hdue (r : GetRequest) (hwants : st.WantsOne k r) (j : ℕ) (hj : st.Due k r j) :
      (st.step x).Due k r j :=
    hj.of_eq hwants.2.1 (hkept _) (hsame r hwants.1 hwants.2.2)
  refine ⟨⟨hparts, hdocument, hnext, fun r hr haccepted => ?_, fun r hwants => ?_⟩, hdue⟩
  · rw [hrequests, List.mem_append] at hr
    rcases hr with hr | hr
    · rw [mem_accepted_step hI.identified hr] at haccepted
      rw [hsame r hr haccepted]
      exact h.noRepeat r hr haccepted
    · rw [(harrived r hr).1]
      exact List.IsChain.nil
  · have hr := hwants.1
    rw [hrequests, List.mem_append] at hr
    rcases hr with hr | hr
    · obtain ⟨-, hmode, haccepted⟩ := hwants
      rw [mem_accepted_step hI.identified hr] at haccepted
      obtain ⟨j, hle, hj⟩ := h.due r ⟨hr, hmode, haccepted⟩
      exact ⟨j, hle, hdue r ⟨hr, hmode, haccepted⟩ j hj⟩
    · exact (harrived r hr).2 hwants

/-- An event after which the key holds the same. -/
lemma Current.frame (h : st.Current version k) (hI : st.Ordered)
    (hparts : ∀ a, (st.step x).part k a = st.part k a)
    (hdocument : (st.step x).document k = st.document k)
    (hpolls : ∀ op ∈ (st.step x).polls k, op ∈ st.polls k ∨ op.startedAt = st.requestsReceived)
    (hrequests : (st.step x).requestsFor k = st.requestsFor k)
    (hsame : st.SameResponses k (st.step x)) : Advances version k st (st.step x) 0 := by
  refine h.of_sameResponses hI [] (hrequests.trans (List.append_nil _).symm) hsame
    (fun a => ?_) ?_ ?_ (fun a r' hr' _ => by rw [hparts, hr']) (by simp)
  · rw [hparts, hdocument]
    exact (h.parts a).congr fun r hr => hsame.held hI hr
  · rw [hdocument]
    exact h.document
  · intro a r hr hmode op hop
    rw [hparts] at hr
    rcases hpolls op hop with hop | hstarted
    · exact h.next a r hr hmode op hop
    · obtain ⟨-, -, r₀, hr₀, his⟩ := hI.held (.inl hr)
      rw [hstarted, his.number]
      exact hI.identified.received r₀ (List.mem_filter.1 hr₀).1

end CouchbaseDB

namespace GetAndSubscribeCacheItem

variable {item : GetAndSubscribeCacheItem} {r : GetRequest}

lemma document_hit : (item.hit r).1.document = item.document ∧
    (item.hit r).1.documentCAS = item.documentCAS := by
  unfold hit
  split
  · exact ⟨rfl, rfl⟩
  · exact ⟨rfl, rfl⟩
  · exact ⟨rfl, rfl⟩
  · split
    · exact ⟨rfl, rfl⟩
    · exact ⟨rfl, rfl⟩

lemma document_getCallback (document : String) (cas polledAt : ℕ) :
    (item.getCallback document cas polledAt).1.document =
      if item.documentCAS ≠ cas then document else item.document := by
  unfold getCallback
  dsimp only
  rw [document_processRequests.1, document_processRequests.2]

/-- Who subscribes while no poll is on its way is told at once. -/
lemma snd_hit (hsent : r.getAndSubscribe.IsSent)
    (hsubscribes : r.getAndSubscribe ≠ .justGetDontSubscribe) : (item.hit r).2 =
      if r.getAndSubscribe = .getAndSubscribe ∧ item.currentlyFetchingPossiblyNew = false then
        [r.respondWithCAS item.document item.documentCAS none] else [] := by
  unfold hit
  cases hmode : r.getAndSubscribe with
  | getAndSubscribe =>
      cases item.currentlyFetchingPossiblyNew with
      | true => rfl
      | false => rfl
  | getAndSubscribeChangeSessionId => rfl
  | getAndSubscribeUnsubscribe => rfl
  | getAndSubscribeJustOne => rfl
  | justGetDontSubscribe => exact absurd hmode hsubscribes
  | getAndSubscribeJustOneNext => exact absurd hsent (by simp [hmode, GetAndSubscribeEnum.IsSent])
  | getAndSubscribeHardGet => exact absurd hsent (by simp [hmode, GetAndSubscribeEnum.IsSent])

end GetAndSubscribeCacheItem

namespace Subscription

variable {s : Subscription} {r : GetRequest}

/-- What a request does to the new entry. -/
lemma new_hit (hsent : r.getAndSubscribe.IsSent)
    (hsubscribes : r.getAndSubscribe ≠ .justGetDontSubscribe) (fetching : Bool) :
    (s.hit fetching r).new =
      if r.getAndSubscribe = .getAndSubscribeJustOne ∨
        r.getAndSubscribe = .getAndSubscribe ∧ fetching then some r else s.new := by
  unfold Subscription.hit
  cases hmode : r.getAndSubscribe with
  | getAndSubscribe =>
      cases fetching with
      | true => simp
      | false => simp
  | getAndSubscribeChangeSessionId => simp
  | getAndSubscribeUnsubscribe => simp
  | getAndSubscribeJustOne => simp
  | justGetDontSubscribe => exact absurd hmode hsubscribes
  | getAndSubscribeJustOneNext => exact absurd hsent (by simp [hmode, GetAndSubscribeEnum.IsSent])
  | getAndSubscribeHardGet => exact absurd hsent (by simp [hmode, GetAndSubscribeEnum.IsSent])

end Subscription

namespace CouchbaseDB

variable {st : CouchbaseDB} {k : Key} {x : Event} {version : ℕ → String}

/-- **A request that finds the key cached**, where it overwrites nobody. -/
lemma Current.hit (h : st.Current version k) (hI : st.Ordered) {r : SentRequest}
    {item : GetAndSubscribeCacheItem} (hmode : r.1.getAndSubscribe ≠ .justGetDontSubscribe)
    (hunsubscribe : r.1.getAndSubscribe ≠ .getAndSubscribeUnsubscribe)
    (hok : r.1.getAndSubscribe = .getAndSubscribeJustOne ∨
      r.1.getAndSubscribe = .getAndSubscribe ∧ item.currentlyFetchingPossiblyNew →
        ∀ r' ∈ item.newSubscribers.lookup r.1.app, ¬ WaitsForOne r')
    (hbefore : st.getAndSubscribeCacheHash k = some item)
    (hafter : (st.step x).getAndSubscribeCacheHash k = some (item.hit (st.numbered r.1)).1)
    (hpolls : (st.step x).polls k = st.polls k)
    (hrequests : (st.step x).requestsFor k = st.requestsFor k ++ [st.numbered r.1])
    (hposted : (st.step x).posted = st.posted ++ (item.hit (st.numbered r.1)).2) :
    Advances version k st (st.step x) 0 := by
  have hpart (a : App) : (st.step x).part k a = if a = r.1.app then
      (st.part k a).hit item.currentlyFetchingPossiblyNew (st.numbered r.1) else st.part k a := by
    rw [part_of_some hafter, part_of_some hbefore]
    exact GetAndSubscribeCacheItem.of_hit
  have hnew : ((st.step x).part k r.1.app).new =
      if r.1.getAndSubscribe = .getAndSubscribeJustOne ∨
        r.1.getAndSubscribe = .getAndSubscribe ∧ item.currentlyFetchingPossiblyNew then
          some (st.numbered r.1) else (st.part k r.1.app).new := by
    rw [hpart, if_pos rfl]
    exact Subscription.new_hit (r := st.numbered r.1) r.2 hmode _
  have hdocument : (st.step x).document k = st.document k := by
    rw [document_of_some hafter, document_of_some hbefore,
      GetAndSubscribeCacheItem.document_hit.1, GetAndSubscribeCacheItem.document_hit.2]
  have hsame : st.SameResponses k (st.step x) := by
    intro r' hr' _
    rw [responses_of_posted hposted, List.filter_eq_nil_iff.2, List.map_nil, List.append_nil]
    intro p hp hn
    have hnumber := GetAndSubscribeCacheItem.fst_of_mem_hit hp
    have hlt := hI.identified.received r' (List.mem_filter.1 hr').1
    rw [of_decide_eq_true hn] at hnumber
    exact Nat.ne_of_lt hlt hnumber
  have hresponses : (st.step x).responses st.requestsReceived =
      if r.1.getAndSubscribe = .getAndSubscribe ∧ item.currentlyFetchingPossiblyNew = false then
        [((st.numbered r.1).respondWithCAS item.document item.documentCAS none).2] else [] := by
    have hsnd : (item.hit (st.numbered r.1)).2 =
        if r.1.getAndSubscribe = .getAndSubscribe ∧ item.currentlyFetchingPossiblyNew = false then
          [(st.numbered r.1).respondWithCAS item.document item.documentCAS none] else [] :=
      GetAndSubscribeCacheItem.snd_hit (r := st.numbered r.1) r.2 hmode
    rw [responses_of_posted hposted, responses_requestsReceived hI.accounts, hsnd]
    by_cases hnow : r.1.getAndSubscribe = .getAndSubscribe ∧
        item.currentlyFetchingPossiblyNew = false
    · rw [if_pos hnow, if_pos hnow]
      simp [GetRequest.respondWithCAS, numbered]
    · rw [if_neg hnow, if_neg hnow]
      rfl
  refine h.of_sameResponses hI [st.numbered r.1] hrequests hsame (fun a => ?_) ?_ ?_ ?_ ?_
  · have hcongr := (h.parts a).congr fun r hr => hsame.held hI hr
    rw [hdocument, hpart]
    split
    · refine hcongr.hit (r := st.numbered r.1) r.2 hunsubscribe hmode _ ?_
      rw [document_of_some hbefore]
      exact hresponses
    · exact hcongr
  · rw [hdocument]
    exact h.document
  · intro a r' hr' hnext
    rw [hpolls]
    by_cases ha : a = r.1.app
    · subst ha
      rw [hnew] at hr'
      split at hr'
      · obtain rfl := Option.some.inj hr'
        have hsent := r.2
        rw [show r.1.getAndSubscribe = .getAndSubscribeJustOneNext from hnext] at hsent
        exact hsent.elim
      · exact h.next _ r' hr' hnext
    · rw [hpart, if_neg ha] at hr'
      exact h.next a r' hr' hnext
  · intro a r' hr' hwaits
    by_cases ha : a = r.1.app
    · subst ha
      rw [hnew, if_neg]
      · exact hr'
      · intro hoverwrites
        rw [part_of_some hbefore] at hr'
        exact hok hoverwrites r' hr' hwaits
    · rw [hpart, if_neg ha]
      exact hr'
  · intro r' hr'
    obtain rfl := List.mem_singleton.1 hr'
    rw [show (st.numbered r.1).number = st.requestsReceived from rfl]
    refine ⟨?_, fun hwants => ⟨2, Nat.le_refl 2, ?_, ?_⟩⟩
    · rw [hresponses]
      split
      · rfl
      · rfl
    · exact hnew.trans (if_pos (.inl hwants.2.1))
    · refine hresponses.trans (if_neg fun hnow => ?_)
      have hone : r.1.getAndSubscribe = .getAndSubscribeJustOne := hwants.2.1
      rw [hone] at hnow
      cases hnow.1

/-- The requests of one number are those of one application. -/
lemma Identified.all_of_number (h : st.Identified) {item : GetAndSubscribeCacheItem}
    (hitem : st.getAndSubscribeCacheHash k = some item) {r : GetRequest}
    (hr : r ∈ st.requestsFor k) : item.All fun a r' => r'.number = r.number → a = r.app := by
  refine (h.items k item hitem).imp fun a r' hr' hnumber => ?_
  obtain ⟨rfl, r₀, hr₀, his⟩ := hr'
  rw [his.number] at hnumber
  rw [his.app, h.eq_of_number (List.mem_filter.1 hr₀).1 (List.mem_filter.1 hr).1 hnumber]

/-- A request for one response is none of the plain ones. -/
lemma not_plain_of_number (h : st.Identified) {r r₀ r' : GetRequest} (hr : r ∈ st.requestsFor k)
    (hmode : r.getAndSubscribe = .getAndSubscribeJustOne) (hr₀ : r₀ ∈ st.requestsFor k)
    (his : r'.Is r₀) (hnumber : r'.number = r.number) : ¬ Subscription.Plain r' := by
  rw [his.number] at hnumber
  obtain rfl := h.eq_of_number (List.mem_filter.1 hr₀).1 (List.mem_filter.1 hr).1 hnumber
  rcases his with rfl | ⟨-, rfl⟩
  · exact fun hplain => hplain.1 hmode
  · exact fun hplain => hplain.2 rfl

/-- What the poll of a key has found is told. -/
lemma responses_success (hI : st.Ordered) {op : RetryingGet} {document : String} {cas : ℕ}
    {item : GetAndSubscribeCacheItem} (hbefore : st.getAndSubscribeCacheHash k = some item)
    {st' : CouchbaseDB}
    (hposted : st'.posted = st.posted ++ (item.getCallback document cas op.startedAt).2)
    {r : GetRequest} (hr : r ∈ st.requestsFor k) : st'.responses r.number =
      st.responses r.number ++
        (((st.part k r.app).told (item.documentCAS ≠ cas)).filter (·.number = r.number)).map
          (fun r => (r.respondWithCAS document cas (some op.startedAt)).2) := by
  rw [responses_of_posted hposted,
    GetAndSubscribeCacheItem.filter_getCallback (hI.identified.all_of_number hbefore hr),
    List.map_map, part_of_some hbefore]
  rfl

/-- What counts after the queues were processed has arrived. -/
lemma Current.held_process (h : st.Current version k) (hI : st.Ordered) {a : App} {r : GetRequest}
    (hr : (st.part k a).process.new = some r ∨ (st.part k a).process.old = some r) :
    r.app = a ∧ r.number ∉ st.accepted ∧ ∃ r₀ ∈ st.requestsFor k, r.Is r₀ := by
  refine hI.held ?_
  rcases hr with hr | hr
  · rcases Subscription.new_process (h.parts a).unsubscribes hr with hnew | hchanges
    · exact .inl hnew
    · exact .inr (.inr hchanges)
  · exact .inr (.inl ((h.parts a).process_old hr))

/-- The new entry that waits for its one response is still there when the poll tells. -/
lemma Current.process_new_of_waits (h : st.Current version k)
    {item : GetAndSubscribeCacheItem} (hbefore : st.getAndSubscribeCacheHash k = some item)
    (hok : ∀ r ∈ item.changeSessionIdRequestsToProcessMomentarily,
      ∀ r' ∈ item.newSubscribers.lookup r.app, ¬ WaitsForOne r') {a : App} {r : GetRequest}
    (hr : (st.part k a).new = some r) (hwaits : WaitsForOne r) :
    (st.part k a).process.new = some r := by
  have hchanges : (st.part k a).changes = [] := by
    refine List.eq_nil_iff_forall_not_mem.2 fun r' hr' => ?_
    rw [part_of_some hbefore] at hr hr'
    obtain ⟨hmem, happ⟩ := List.mem_filter.1 hr'
    refine hok r' hmem r ?_ hwaits
    rw [of_decide_eq_true happ]
    exact hr
  rw [(Subscription.process_of_noChanges (h.parts a).unsubscribes hchanges).1, hr]

/-- **A poll brings everybody one further** that waits for one response. -/
lemma Current.due_success (h : st.Current version k) (hI : st.Ordered) {op : RetryingGet}
    {document : String} {cas : ℕ} {item : GetAndSubscribeCacheItem}
    (hok : ∀ r ∈ item.changeSessionIdRequestsToProcessMomentarily,
      ∀ r' ∈ item.newSubscribers.lookup r.app, ¬ WaitsForOne r')
    (hbefore : st.getAndSubscribeCacheHash k = some item) {st' : CouchbaseDB}
    (hpart : ∀ a, st'.part k a = (st.part k a).polled) (hop : op ∈ st.polls k)
    (hposted : st'.posted = st.posted ++ (item.getCallback document cas op.startedAt).2)
    {r : GetRequest} (hwants : st.WantsOne k r) {j : ℕ} (hj : st.Due k r j) :
    st'.Due k r (j - 1) := by
  obtain ⟨hr, hmode, haccepted⟩ := hwants
  have hparts := h.parts r.app
  have hresponses := responses_success hI hbefore hposted hr
  match j with
  | 0 =>
      -- it was answered, and is not held any more
      obtain ⟨response, polledAt, heq, hpolled⟩ := hj
      refine ⟨response, polledAt, ?_, hpolled⟩
      rw [hresponses, Subscription.filter_told_eq_nil, heq]
      · rfl
      · intro r' hr' hnumber
        have hnil := hparts.responses_new hr'
        rw [hnumber, heq] at hnil
        cases hnil
      · intro r' hr' hnumber
        obtain ⟨-, -, r₀, hr₀, his⟩ := h.held_process hI (.inr hr')
        exact not_plain_of_number hI.identified hr hmode hr₀ his hnumber
          (hparts.old r' (hparts.process_old hr'))
  | 1 =>
      obtain ⟨hnew, hnil⟩ := hj
      have hprocess := h.process_new_of_waits hbefore hok hnew (.inr rfl)
      have htold := hparts.filter_told_new (item.documentCAS ≠ cas) hprocess
      rw [if_neg (by simp)] at htold
      refine ⟨(r.respondWithCAS document cas (some op.startedAt)).2, op.startedAt, ?_, rfl,
        h.next _ _ hnew rfl op hop⟩
      rw [hresponses, hnil, htold]
      rfl
  | 2 =>
      obtain ⟨hnew, hnil⟩ := hj
      have hprocess := h.process_new_of_waits hbefore hok hnew (.inl hmode)
      have htold := hparts.filter_told_new (item.documentCAS ≠ cas) hprocess
      rw [if_pos hmode] at htold
      refine ⟨?_, ?_⟩
      · rw [hpart]
        unfold Subscription.polled
        dsimp only
        rw [hprocess, Option.bind_some, GetAndSubscribeCacheItem.makeNext, hmode]
      · rw [hresponses, hnil, htold]
        rfl
  | _ + 3 => exact hj.elim

/-- Polls tell nobody the same twice in a row. -/
lemma Current.noRepeat_success (h : st.Current version k) (hI : st.Ordered) {op : RetryingGet}
    {document : String} {cas : ℕ} {item : GetAndSubscribeCacheItem}
    (hbefore : st.getAndSubscribeCacheHash k = some item) {st' : CouchbaseDB}
    (hposted : st'.posted = st.posted ++ (item.getCallback document cas op.startedAt).2)
    {r : GetRequest} (hr : r ∈ st.requestsFor k) (haccepted : r.number ∉ st.accepted) :
    (polledCAS (st'.responses r.number)).IsChain (· ≠ ·) := by
  have hparts := h.parts r.app
  have hbefore' := h.noRepeat r hr haccepted
  rw [responses_success hI hbefore hposted hr]
  by_cases hnew : ∃ r', (st.part k r.app).process.new = some r' ∧ r'.number = r.number
  · obtain ⟨r', hr', hnumber⟩ := hnew
    rw [← hnumber, hparts.filter_told_new _ hr', hparts.responses_new hr']
    split
    · exact List.IsChain.nil
    · exact List.IsChain.singleton _
  by_cases hold : ∃ r', (st.part k r.app).process.old = some r' ∧ r'.number = r.number
  · obtain ⟨r', hr', hnumber⟩ := hold
    have hlast := hparts.lastPolled r' (hparts.process_old hr')
    rw [← hnumber] at hbefore' ⊢
    rw [hparts.filter_told_old _ hr']
    by_cases hchanged : item.documentCAS = cas
    · rw [if_neg (by simpa using hchanged), List.map_nil, List.append_nil]
      exact hbefore'
    · rw [if_pos (by simpa using hchanged), List.map_singleton, polledCAS_append,
        polledCAS_respondWithCAS]
      refine List.isChain_append.2 ⟨hbefore', List.IsChain.singleton _, fun c hc c' hc' => ?_⟩
      rw [hlast c hc, document_of_some hbefore]
      obtain rfl := Option.some.inj hc'
      exact fun heq => hchanged (Option.some.inj heq)
  · rw [Subscription.filter_told_eq_nil (fun r' hr' hnumber => hnew ⟨r', hr', hnumber⟩)
      (fun r' hr' hnumber => hold ⟨r', hr', hnumber⟩), List.map_nil, List.append_nil]
    exact hbefore'

/-- **A poll finds the document**, where it overwrites nobody. -/
lemma Current.success (h : st.Current version k) (hI : st.Ordered) {op : RetryingGet}
    {document : String} {cas : ℕ} {item : GetAndSubscribeCacheItem} (hcas : cas ≠ 0)
    (hversion : document = version cas)
    (hok : ∀ r ∈ item.changeSessionIdRequestsToProcessMomentarily,
      ∀ r' ∈ item.newSubscribers.lookup r.app, ¬ WaitsForOne r')
    (hbefore : st.getAndSubscribeCacheHash k = some item)
    (hafter : (st.step x).getAndSubscribeCacheHash k =
      some (item.getCallback document cas op.startedAt).1)
    (hpolls : st.polls k = op ::ₘ (st.step x).polls k)
    (hrequests : (st.step x).requestsFor k = st.requestsFor k)
    (hposted : (st.step x).posted = st.posted ++ (item.getCallback document cas op.startedAt).2) :
    Advances version k st (st.step x) 1 := by
  have hpart (a : App) : (st.step x).part k a = (st.part k a).polled := by
    rw [part_of_some hafter, part_of_some hbefore]
    exact GetAndSubscribeCacheItem.of_getCallback _ _ _
  have hsame : item.documentCAS = cas → item.document = document := by
    intro heq
    have hdocument := h.document
    rw [document_of_some hbefore, heq] at hdocument
    exact (hdocument hcas).trans hversion.symm
  have hdocument : (st.step x).document k = (document, cas) := by
    rw [document_of_some hafter, GetAndSubscribeCacheItem.document_getCallback]
    by_cases hchanged : item.documentCAS = cas
    · rw [if_neg (by simpa using hchanged), hsame hchanged]
      rfl
    · rw [if_pos hchanged]
      rfl
  have hdue (r : GetRequest) (hwants : st.WantsOne k r) (j : ℕ) (hj : st.Due k r j) :
      (st.step x).Due k r (j - 1) :=
    h.due_success hI hok hbefore hpart (hpolls ▸ Multiset.mem_cons_self op _) hposted hwants hj
  refine ⟨⟨fun a => ?_, ?_, ?_, fun r hr haccepted => ?_, fun r hwants => ?_⟩, hdue⟩
  · rw [hpart, hdocument]
    have hparts := h.parts a
    rw [document_of_some hbefore] at hparts
    refine hparts.polled op.startedAt hsame fun r hr => ?_
    obtain ⟨rfl, -, r₀, hr₀, his⟩ := h.held_process hI hr
    rw [his.number, his.app]
    exact responses_success hI hbefore hposted hr₀
  · rw [hdocument]
    exact fun _ => hversion
  · rw [((hI.chained k).polls_of_cons hpolls).1]
    simp
  · rw [hrequests] at hr
    rw [mem_accepted_step hI.identified hr] at haccepted
    exact h.noRepeat_success hI hbefore hposted hr haccepted
  · obtain ⟨hr, hmode, haccepted⟩ := hwants
    rw [hrequests] at hr
    rw [mem_accepted_step hI.identified hr] at haccepted
    obtain ⟨j, hle, hj⟩ := h.due r ⟨hr, hmode, haccepted⟩
    exact ⟨j - 1, by omega, hdue r ⟨hr, hmode, haccepted⟩ j hj⟩

/-- **What an event does**, where nobody is overwritten. -/
theorem Current.advances (h : st.Current version k) (hI : st.Ordered) (hx : x.OnVersions k version)
    (hok : st.OverwritesNobody k x) :
    Advances version k st (st.step x) (if st.AnswersPoll k x then 1 else 0) := by
  have hnothing (hposted : (st.step x).posted = st.posted) : st.SameResponses k (st.step x) :=
    fun r _ _ => responses_of_eq hposted r.number
  have hunheard (hposted : (st.step x).posted = st.posted) :
      (st.step x).responses st.requestsReceived = [] :=
    (responses_of_eq hposted _).trans (responses_requestsReceived hI.accounts)
  cases hI.keyStep k x with
  | idle unconcerned item polls requests posted =>
      have hanswers : ¬ st.AnswersPoll k x := by
        intro hanswers
        unfold AnswersPoll at hanswers
        split at hanswers
        · exact unconcerned ⟨hanswers.1, hanswers.2, by simp⟩
        · exact hanswers
      rw [if_neg hanswers]
      refine h.frame hI (fun a => ?_) ?_ ?_ requests posted.sameResponses
      · unfold part
        rw [item]
      · unfold CouchbaseDB.document
        rw [item]
      · rw [polls]
        exact fun op hop => .inl hop
  | hit r lcb item event accepting key mode before after polls requests posted =>
      subst event
      rw [if_neg (show ¬ st.AnswersPoll k _ from id)]
      exact h.hit hI mode (hx.2 key) (hok accepting key item before) before after polls requests
        posted
  | miss r lcb event key mode before after polls requests accepted posted =>
      subst event
      rw [if_neg (show ¬ st.AnswersPoll k _ from id)]
      refine h.of_sameResponses hI [st.numbered r.1] requests (hnothing (posted hx.1))
        (fun a => ?_) ?_ ?_ ?_ ?_
      · rw [part_of_none after]
        exact Subscription.informed_new (by simp)
      · intro hcas
        unfold CouchbaseDB.document at hcas
        rw [after] at hcas
        exact absurd rfl hcas
      · intro a r' hr'
        rw [part_of_none after] at hr'
        cases hr'
      · intro a r' hr'
        rw [part_of_none before] at hr'
        cases hr'
      · intro r' hr'
        obtain rfl := List.mem_singleton.1 hr'
        refine ⟨congrArg polledCAS (hunheard (posted hx.1)), fun hwants => ?_⟩
        exact absurd (accepted hwants.2.1) hwants.2.2
  | subscribe r lcb event key mode before after polls requests posted =>
      subst event
      rw [if_neg (show ¬ st.AnswersPoll k _ from id)]
      have hpart (a : App) : (CouchbaseDB.step st (.eventSlotForWtGet r lcb)).part k a =
          { new := if a = r.1.app then some (st.numbered r.1) else none } :=
        (part_of_some after).trans (GetAndSubscribeCacheItem.of_new (r := st.numbered r.1))
      refine h.of_sameResponses hI [st.numbered r.1] requests (hnothing (posted hx.1))
        (fun a => ?_) ?_ ?_ ?_ ?_
      · rw [hpart]
        refine Subscription.informed_new fun r' hr' => ?_
        split at hr'
        · obtain rfl := Option.some.inj hr'
          exact hunheard (posted hx.1)
        · cases hr'
      · intro hcas
        rw [document_of_some after] at hcas
        exact absurd rfl hcas
      · intro a r' hr' hnext
        rw [hpart] at hr'
        dsimp only at hr'
        split at hr'
        · obtain rfl := Option.some.inj hr'
          exact absurd (mode.symm.trans hnext) (by simp)
        · cases hr'
      · intro a r' hr'
        rw [part_of_none before] at hr'
        cases hr'
      · intro r' hr'
        obtain rfl := List.mem_singleton.1 hr'
        refine ⟨congrArg polledCAS (hunheard (posted hx.1)), fun hwants => ?_⟩
        exact absurd (mode.symm.trans hwants.2.1) (by simp)
  | success op document cas item event inFlight key before after polls requests posted =>
      subst event
      rw [if_pos ⟨inFlight, key⟩]
      exact h.success hI (hx.2 key).1 (hx.2 key).2 (hok inFlight key item before) before after
        polls requests posted
  | lost op document cas event inFlight key before after polls =>
      rw [(hI.chained k).missing before] at polls
      exact absurd polls.symm Multiset.cons_ne_zero
  | keyENOENT op event inFlight key =>
      subst event
      exact absurd key hx.2
  | otherError op event inFlight key after polls requests posted =>
      subst event
      rw [if_neg (show ¬ st.AnswersPoll k _ from id)]
      refine h.frame hI (fun a => ?_) ?_ ?_ requests (hnothing posted)
      · unfold part
        rw [after]
        cases st.getAndSubscribeCacheHash k with
        | none => rfl
        | some item => rfl
      · unfold CouchbaseDB.document
        rw [after]
        cases st.getAndSubscribeCacheHash k with
        | none => rfl
        | some item => rfl
      · rw [polls]
        exact fun op' hop' => .inl (Multiset.mem_cons_of_mem hop')
  | refused op event =>
      subst event
      exact absurd hx.1 (by simp [Event.Schedules])
  | delete first lcb item event before timer none newNone after polls requests posted =>
      subst event
      rw [if_neg (show ¬ st.AnswersPoll k _ from id)]
      refine h.of_sameResponses hI [] (requests.trans (List.append_nil _).symm) (hnothing posted)
        (fun a => ?_) ?_ ?_ ?_ (by simp)
      · rw [part_of_none after]
        exact Subscription.informed_new (by simp)
      · intro hcas
        unfold CouchbaseDB.document at hcas
        rw [after] at hcas
        exact absurd rfl hcas
      · intro a r' hr'
        rw [part_of_none after] at hr'
        cases hr'
      · intro a r' hr'
        rw [part_of_some before] at hr'
        exact absurd ((newNone a).symm.trans hr') (by simp)
  | poll first lcb item r event before timer held after polls requests posted =>
      subst event
      rw [if_neg (show ¬ st.AnswersPoll k _ from id)]
      refine h.frame hI (fun a => ?_) ?_ ?_ requests (hnothing (posted hx.1))
      · rw [part_of_some after, part_of_some before]
        rfl
      · rw [document_of_some after, document_of_some before]
      · intro op hop
        rw [polls, Multiset.mem_add] at hop
        refine hop.symm.imp_right fun hnew => ?_
        split at hnew
        · rw [Multiset.mem_singleton.1 hnew]
        · cases hnew

/-- What waits for its one response is a request that has found the key cached. -/
lemma Ordered.wantsOne (h : st.Ordered) {a : App} {r : GetRequest}
    (hr : (st.part k a).new = some r) (hwaits : WaitsForOne r) :
    ∃ r₀, st.WantsOne k r₀ ∧ r₀.app = a ∧ r.number = r₀.number := by
  obtain ⟨happ, haccepted, r₀, hr₀, his⟩ := h.held (.inl hr)
  refine ⟨r₀, ⟨hr₀, ?_, his.number ▸ haccepted⟩, his.app.symm.trans happ, his.number⟩
  rcases his with rfl | ⟨hmode, -⟩
  · refine hwaits.resolve_right fun hnext => ?_
    have hsent := h.identified.sent r (List.mem_filter.1 hr₀).1
    rw [hnext] at hsent
    exact hsent
  · exact hmode

lemma Current.keepsInformed (h : st.Current version k) : st.KeepsInformed k where
  current item hitem a r hr := by
    have hparts := h.parts a
    rw [part_of_some hitem, document_of_some hitem] at hparts
    obtain ⟨polledAt, hlast⟩ := hparts.current r hr
    exact ⟨_, hlast, rfl, rfl⟩
  noRepeat := h.noRepeat
  justOne r hwants := by
    obtain ⟨j, hle, hdue⟩ := h.due r hwants
    have hwaits {r' : GetRequest} (hnew : (st.part k r.app).new = some r')
        (hnumber : r'.number = r.number) (hnil : st.responses r.number = []) : st.Waits r := by
      obtain ⟨-, hkey⟩ := of_decide_eq_true (List.mem_filter.1 hwants.1).2
      refine ⟨?_, hnil⟩
      rw [hkey]
      cases hitem : st.getAndSubscribeCacheHash k with
      | none =>
          rw [part_of_none hitem] at hnew
          cases hnew
      | some item =>
          rw [part_of_some hitem] at hnew
          exact ⟨item, rfl, r', hnew, hnumber⟩
    match j with
    | 0 => exact .inr hdue
    | 1 => exact .inl (hwaits hdue.1 rfl hdue.2)
    | 2 => exact .inl (hwaits hdue.1 rfl hdue.2)

/-- A request that was overwritten is lost. -/
lemma not_keepsInformed {r : GetRequest} (hwants : st.WantsOne k r)
    (hnil : st.responses r.number = [])
    (hgone : ∀ r', (st.part k r.app).new = some r' → r'.number ≠ r.number) :
    ¬ st.KeepsInformed k := by
  intro hP
  rcases hP.justOne r hwants with ⟨⟨item, hitem, r', hr', hnumber⟩, -⟩ | ⟨response, -, heq, -⟩
  · obtain ⟨-, hkey⟩ := of_decide_eq_true (List.mem_filter.1 hwants.1).2
    rw [hkey] at hitem
    refine hgone r' ?_ hnumber
    rw [part_of_some hitem]
    exact hr'
  · rw [hnil] at heq
    cases heq

lemma WantsOne.step (h : st.Identified) {r : GetRequest} (hwants : st.WantsOne k r) (x : Event) :
    (st.step x).WantsOne k r :=
  ⟨requestsFor_step st k x hwants.1, hwants.2.1,
    fun haccepted => hwants.2.2 ((mem_accepted_step h hwants.1 x).1 haccepted)⟩

/-- **The condition is necessary.** -/
lemma Current.overwritesNobody (h : st.Current version k) (hI : st.Ordered)
    (hP : (st.step x).KeepsInformed k) : st.OverwritesNobody k x := by
  have hstep := hI.keyStep k x
  unfold OverwritesNobody
  split
  · next r lcb =>
      intro haccepting hkey item hitem hoverwrites r' hr' hwaits
      have hmode : r.1.getAndSubscribe ≠ .justGetDontSubscribe := by
        rcases hoverwrites with hone | ⟨hone, -⟩ <;> simp [hone]
      have hpart : (st.part k r.1.app).new = some r' := by
        rw [part_of_some hitem]
        exact hr'
      obtain ⟨r₀, hwants, happ, hnumber⟩ := hI.wantsOne hpart hwaits
      have hlt := hI.identified.received r₀ (List.mem_filter.1 hwants.1).1
      cases hstep with
      | idle unconcerned => exact unconcerned ⟨haccepting, hmode, hkey⟩
      | hit r'' lcb' item' event accepting key mode before after polls requests posted =>
          cases event
          obtain rfl := Option.some.inj (before.symm.trans hitem)
          refine not_keepsInformed (hwants.step hI.identified _) ?_ (fun new hnew => ?_) hP
          · rw [responses_of_posted posted, List.filter_eq_nil_iff.2, List.map_nil,
              List.append_nil, ← hnumber]
            · exact (h.parts _).waiting r' (.inl hpart)
            · intro p hp hn
              have hfst := GetAndSubscribeCacheItem.fst_of_mem_hit hp
              rw [of_decide_eq_true hn] at hfst
              exact Nat.ne_of_lt hlt hfst
          · have hhit := Subscription.new_hit (s := item'.of r.1.app) (r := st.numbered r.1) r.2
              hmode item'.currentlyFetchingPossiblyNew
            rw [if_pos (by exact hoverwrites)] at hhit
            rw [happ, part_of_some after, GetAndSubscribeCacheItem.of_hit, if_pos (by rfl),
              hhit] at hnew
            obtain rfl := Option.some.inj hnew
            exact Nat.ne_of_gt hlt
      | miss r'' lcb' event key mode before => exact absurd (before.symm.trans hitem) (by simp)
      | subscribe r'' lcb' event key mode before => exact absurd (before.symm.trans hitem) (by simp)
      | _ => contradiction
  · next op document cas =>
      intro hop hpolls item hitem r hr r' hr' hwaits
      have hpart : (st.part k r.app).new = some r' := by
        rw [part_of_some hitem]
        exact hr'
      obtain ⟨r₀, hwants, happ, hnumber⟩ := hI.wantsOne hpart hwaits
      have hparts := h.parts r₀.app
      have hchanges : r ∈ (st.part k r₀.app).changes := by
        rw [part_of_some hitem]
        exact List.mem_filter.2 ⟨hr, by simp [happ]⟩
      have hnewest : (st.part k r₀.app).newest.isSome := by
        rw [happ, Subscription.newest, hpart]
        rfl
      obtain ⟨first, hfirst, hprocess⟩ := Subscription.new_process_of_changes hparts.unsubscribes
        (List.ne_nil_of_mem hchanges) hnewest
      have hother {r'' : GetRequest} (hr'' : (st.part k r₀.app).process.new = some r'' ∨
          (st.part k r₀.app).process.old = some r'') (hplain : Subscription.Plain r'') :
          r''.number ≠ r₀.number := by
        obtain ⟨-, -, r₁, hr₁, his⟩ := h.held_process hI hr''
        exact fun heq => not_plain_of_number hI.identified hwants.1 hwants.2.1 hr₁ his heq hplain
      obtain ⟨hafter, -⟩ := part_of_answersPoll (x := .getCallback op (.success document cas))
        ⟨hop, hpolls⟩ hstep
      cases hstep with
      | idle unconcerned => exact unconcerned ⟨hop, hpolls, by simp⟩
      | success op' document' cas' item' event inFlight key before after polls requests posted =>
          cases event
          obtain rfl := Option.some.inj (before.symm.trans hitem)
          refine not_keepsInformed (hwants.step hI.identified _) ?_ (fun new hnew => ?_) hP
          · rw [responses_success hI before posted hwants.1, Subscription.filter_told_eq_nil,
              List.map_nil, List.append_nil, ← hnumber]
            · exact (h.parts _).waiting r' (.inl hpart)
            · intro r'' hr''
              obtain rfl := Option.some.inj (hprocess.symm.trans hr'')
              exact hother (.inl hr'') (hparts.changes _ hfirst)
            · exact fun r'' hr'' => hother (.inr hr'') (hparts.old r'' (hparts.process_old hr''))
          · rw [hafter] at hnew
            obtain ⟨first', hfirst', hmake⟩ := Option.bind_eq_some_iff.1 hnew
            obtain rfl := Option.some.inj (hprocess.symm.trans hfirst')
            exact absurd (Subscription.eq_of_makeNext hmake).1 (hparts.changes _ hfirst).1
      | lost op' document' cas' event inFlight key before =>
          exact absurd (before.symm.trans hitem) (by simp)
      | keyENOENT op' event => cases event
      | otherError op' event => cases event
      | _ => contradiction
  · trivial

/-! ## Runs -/

lemma current_start (version : ℕ → String) (k : Key) : Current version k {} where
  parts a := Subscription.informed_new (by simp)
  document := by simp [CouchbaseDB.document]
  next a r hr := by cases hr
  noRepeat := by simp [requestsFor]
  due r hwants := by simp [WantsOne, requestsFor] at hwants

lemma Current.run (h : st.Current version k) (hI : st.Ordered) {events : List Event}
    (hdom : ∀ x ∈ events, x.OnVersions k version)
    (hok : Machine.StaysWithin step (OverwritesNobody k) st events) :
    (Machine.run step st events).Ordered ∧ (Machine.run step st events).Current version k := by
  induction events generalizing st with
  | nil => exact ⟨hI, h⟩
  | cons x rest ih =>
      have hadvances := h.advances hI (hdom x List.mem_cons_self) hok.1
      exact ih hadvances.current (hI.step x) (fun y hy => hdom y (List.mem_cons_of_mem x hy)) hok.2

/-- What is due after so many answered polls. -/
lemma Current.due_run (h : st.Current version k) (hI : st.Ordered) {events : List Event}
    (hdom : ∀ x ∈ events, x.OnVersions k version)
    (hok : Machine.StaysWithin step (OverwritesNobody k) st events) {r : GetRequest}
    (hwants : st.WantsOne k r) {j : ℕ} (hj : st.Due k r j) :
    (Machine.run step st events).Due k r
      (j - Machine.count step (fun st x => st.AnswersPoll k x) st events) := by
  induction events generalizing st j with
  | nil => exact hj
  | cons x rest ih =>
      have hadvances := h.advances hI (hdom x List.mem_cons_self) hok.1
      have hrest := ih hadvances.current (hI.step x)
        (fun y hy => hdom y (List.mem_cons_of_mem x hy)) hok.2 (hwants.step hI.identified x)
        (hadvances.due r hwants j hj)
      rw [Machine.count, Nat.sub_add_eq]
      exact hrest

/-- **After two polls** that found the document, a request for one response is answered. -/
def AnswersInTwoPolls (k : Key) (events : List Event) : Prop :=
  ∀ before after r, events = before ++ after → (Machine.run step {} before).WantsOne k r →
    2 ≤ Machine.count step (fun st x => st.AnswersPoll k x) (Machine.run step {} before) after →
      (Machine.run step {} events).AnsweredOnce r

/-- **No subscriber misses the current document**, in every state of a run, if and only if no
request for one response is overwritten.

A page that shows an old document shows an old price.  Overwriting is possible because the new
subscribers are kept in a hash by the application, which has room for one request of each, and a
request for one response takes its place there like a subscription. -/
theorem subscribers_informed_iff (k : Key) (version : ℕ → String) (events : List Event)
    (hdom : ∀ x ∈ events, x.OnVersions k version) :
    Machine.HoldsThroughout step (KeepsInformed k) {} events ∧ AnswersInTwoPolls k events ↔
      Machine.StaysWithin step (OverwritesNobody k) {} events := by
  have hiff : Machine.HoldsThroughout step (KeepsInformed k) {} events ↔
      Machine.StaysWithin step (OverwritesNobody k) {} events :=
    Machine.holdsThroughout_iff_staysWithin (I := fun st => st.Ordered ∧ st.Current version k)
    (Event.OnVersions k version)
    (fun st x hx hI _ hok => ⟨hI.1.step x, (hI.2.advances hI.1 hx hok).current⟩)
    (fun st x hx hI _ => ⟨hI.2.overwritesNobody hI.1,
      fun hok => (hI.2.advances hI.1 hx hok).current.keepsInformed⟩)
    hdom ⟨ordered_start, current_start version k⟩ (current_start version k).keepsInformed
  refine ⟨fun h => hiff.1 h.1, fun hok => ⟨hiff.2 hok, ?_⟩⟩
  rintro before after r rfl hwants hcount
  obtain ⟨hbefore, hafter⟩ := Machine.staysWithin_append.1 hok
  obtain ⟨hI, hcurrent⟩ := (current_start version k).run ordered_start
    (fun x hx => hdom x (List.mem_append_left _ hx)) hbefore
  obtain ⟨j, hle, hj⟩ := hcurrent.due r hwants
  have hdue := hcurrent.due_run hI (fun x hx => hdom x (List.mem_append_right _ hx))
    hafter hwants hj
  rw [Nat.sub_eq_zero_of_le (by omega)] at hdue
  rw [Machine.run_append]
  exact hdue

/-- An application without JavaScript asks twice for a cached key. -/
def askTwice : List Event :=
  subscribeToKey ++
    [.eventSlotForWtGet ⟨⟨1, "two", 2, "k", true, .getAndSubscribeJustOne⟩, trivial⟩ true,
      .eventSlotForWtGet ⟨⟨2, "two", 2, "k", true, .getAndSubscribeJustOne⟩, trivial⟩ true]

theorem not_subscribers_informed : ¬ ∀ k version events,
    (∀ x ∈ events, Event.OnVersions k version x) →
      Machine.HoldsThroughout step (KeepsInformed k) {} events ∧ AnswersInTwoPolls k events := by
  intro hinformed
  have hfinal := (hinformed "k" (fun _ => "document") askTwice (by decide)).1.run
  refine not_keepsInformed (r := ⟨1, "two", 2, "k", true, .getAndSubscribeJustOne⟩) ?_ ?_ ?_ hfinal
  · decide +kernel
  · decide +kernel
  · decide +kernel

/-- It asks once, and two polls follow. -/
def askOnce : List Event :=
  subscribeToKey ++
    [.eventSlotForWtGet ⟨⟨1, "two", 2, "k", true, .getAndSubscribeJustOne⟩, trivial⟩ true,
      .getCallback ⟨⟨0, "one", 1, "k", true, .getAndSubscribe⟩, 1⟩ (.success "document 8" 8),
      .getAndSubscribePollingTimeout "k" 1 true,
      .getCallback ⟨⟨0, "one", 1, "k", true, .getAndSubscribe⟩, 2⟩ (.success "document 9" 9)]

/-- The document of a CAS, in the runs on the key "k". -/
def versions (cas : ℕ) : String :=
  if cas = 7 then "document" else if cas = 8 then "document 8" else "document 9"

theorem subscribers_informed_askOnce :
    Machine.HoldsThroughout step (KeepsInformed "k") {} askOnce ∧ AnswersInTwoPolls "k" askOnce :=
  (subscribers_informed_iff "k" versions askOnce (by decide)).2 (by decide +kernel)

end CouchbaseDB

end Autobackup.CouchbaseBackend
