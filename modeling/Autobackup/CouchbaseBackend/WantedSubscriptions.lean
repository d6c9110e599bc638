import Mathlib
import Autobackup.CouchbaseBackend.Polling

/-!
# Wanted subscriptions

An application wants to be subscribed if its last request to subscribe or to unsubscribe was one to
subscribe.  Requests to subscribe are entered at once, the others wait for the next poll, and the
queues lose the order in which they came.  `Subscription.InOrder` is what the queues of one
application have to look like so that the poll leaves exactly what the application wants.

Only keys that exist are looked at, so that every poll is answered with a document.  What happens to
a key that is absent is in `Autobackup.CouchbaseBackend.Polling`.
-/

namespace Autobackup.CouchbaseBackend

namespace Subscription

variable {s : Subscription} {r : GetRequest} {wanted : Prop} {session : Option String}

/-- Exactly what is wanted: one entry with the right session id, or none. -/
structure Settled (s : Subscription) (wanted : Prop) (session : Option String) : Prop where
  present : s.new.isSome ∨ s.old.isSome ↔ wanted
  session : ∀ r, s.new = some r ∨ s.old = some r → some r.wtSessionId = session
  notBoth : ¬ (s.new.isSome ∧ s.old.isSome)

/-- What is queued has come in an order that is not lost. -/
def InOrder (s : Subscription) (wanted : Prop) (session : Option String) : Prop :=
  match s.unsubscribes with
  | [] => wanted → ∀ r ∈ s.changes.head?, some r.wtSessionId = session
  | [_] => (s.new.isSome ∧ s.old.isSome ↔ wanted) ∧
      (wanted → ∀ r ∈ s.changes.head?.or s.old, some r.wtSessionId = session)
  | _ => ¬ wanted

instance [Decidable wanted] : Decidable (s.InOrder wanted session) := by
  unfold InOrder
  split <;> infer_instance

/-! ## What a poll leaves -/

/-- The entry that counts.  A new one takes the place of an old one. -/
def newest (s : Subscription) : Option GetRequest := s.new.or s.old

lemma isSome_newest : s.newest.isSome ↔ s.new.isSome ∨ s.old.isSome := by
  unfold newest
  cases s.new <;> simp

lemma newest_changeSessionId : (s.changeSessionId r).newest = s.newest.map fun _ => r := by
  unfold changeSessionId newest
  cases hnew : s.new with
  | some r' => simp
  | none =>
      cases hold : s.old with
      | some r' => simp
      | none => simp [hnew, hold]

/-- The last request to be processed is the first that has come. -/
lemma newest_processChanges :
    s.processChanges.newest = s.newest.map fun r => s.changes.head?.getD r := by
  unfold processChanges
  induction s.changes with
  | nil => simp
  | cons r rest ih =>
      rw [List.foldr_cons, newest_changeSessionId, ih, Option.map_map]
      rfl

lemma newest_unsubscribe : s.unsubscribe.newest = s.new.bind fun _ => s.old := by
  unfold unsubscribe newest
  cases s.new with
  | some r => simp
  | none => simp

lemma newest_unsubscribe_unsubscribe : s.unsubscribe.unsubscribe.newest = none := by
  rw [newest_unsubscribe]
  unfold unsubscribe
  cases s.new with
  | some r => simp
  | none => simp

lemma newest_processUnsubscribes : s.processUnsubscribes.newest =
    match s.unsubscribes with
    | [] => s.newest
    | [_] => s.new.bind fun _ => s.old
    | _ => none := by
  unfold processUnsubscribes
  match s.unsubscribes with
  | [] => rfl
  | [_] => exact newest_unsubscribe
  | _ :: _ :: rest => exact newest_unsubscribe_unsubscribe

lemma changes_processUnsubscribes : s.processUnsubscribes.changes = s.changes := by
  unfold processUnsubscribes
  induction s.unsubscribes with
  | nil => rfl
  | cons r rest ih =>
      rw [List.foldr_cons, unsubscribe]
      split
      · exact ih
      · exact ih

/-- No request of the kind that only wants one response. -/
def Plain (r : GetRequest) : Prop :=
  r.getAndSubscribe ≠ .getAndSubscribeJustOne ∧ r.getAndSubscribe ≠ .getAndSubscribeJustOneNext

lemma makeNext_of_plain (hr : Plain r) : GetAndSubscribeCacheItem.makeNext r = none := by
  unfold GetAndSubscribeCacheItem.makeNext
  split
  · next hmode => exact absurd hmode hr.1
  · rfl

lemma makeOld_of_plain (hr : Plain r) : GetAndSubscribeCacheItem.makeOld r = some r := by
  unfold GetAndSubscribeCacheItem.makeOld
  split
  · next hmode => exact absurd hmode hr.1
  · next hmode => exact absurd hmode hr.2
  · rfl

/-- After a poll there is no new entry, and the old one is what counted before. -/
lemma polled_of_plain (h : s.All Plain) :
    s.polled.new = none ∧ s.polled.old = s.process.newest := by
  have hnew := h.process.new
  unfold polled newest
  dsimp only
  cases hprocess : s.process.new with
  | none => simp
  | some r =>
      have hr := hnew r hprocess
      rw [Option.bind_some, Option.bind_some, makeNext_of_plain hr, makeOld_of_plain hr]
      exact ⟨rfl, rfl⟩

lemma newest_process : s.process.newest = (match s.unsubscribes with
    | [] => s.newest
    | [_] => s.new.bind fun _ => s.old
    | _ => none).map fun r => s.changes.head?.getD r := by
  rw [← newest_processUnsubscribes, ← changes_processUnsubscribes, ← newest_processChanges]
  rfl

lemma settled_polled_iff (h : s.All Plain) : s.polled.Settled wanted session ↔
    (s.process.newest.isSome ↔ wanted) ∧
      ∀ r, s.process.newest = some r → some r.wtSessionId = session := by
  obtain ⟨hnew, hold⟩ := polled_of_plain h
  constructor
  · intro hsettled
    have hpresent := hsettled.present
    rw [hnew, hold] at hpresent
    refine ⟨by simpa using hpresent, fun r hr => hsettled.session r (.inr ?_)⟩
    rw [hold, hr]
  · rintro ⟨hpresent, hsession⟩
    refine ⟨?_, fun r hr => ?_, ?_⟩
    · rw [hnew, hold]
      simpa using hpresent
    · rw [hnew, hold] at hr
      exact hsession r (by simpa using hr)
    · rw [hnew]
      simp

/-! ## Between two polls -/

/-- What is known of an application's part of an item between two polls, where the last poll has
left exactly what it wanted then. -/
structure Tracked (s : Subscription) (fetching : Bool) (wanted : Prop) (session : Option String) :
    Prop where
  plain : s.All Plain
  present : s.unsubscribes = [] → s.newest.isSome → wanted
  wanted : wanted → s.newest.isSome
  session : s.unsubscribes = [] → s.changes = [] →
    ∀ r, s.newest = some r → some r.wtSessionId = session
  fetching : fetching = false → s.new = none

/-- **The queues decide** what the next poll leaves. -/
theorem Tracked.settled_polled_iff {fetching : Bool} (h : s.Tracked fetching wanted session) :
    s.polled.Settled wanted session ↔ s.InOrder wanted session := by
  rw [Subscription.settled_polled_iff h.plain, newest_process]
  unfold InOrder
  match hunsubscribes : s.unsubscribes with
  | [] =>
      have hpresent : s.newest.isSome ↔ wanted := ⟨h.present hunsubscribes, h.wanted⟩
      rw [Option.isSome_map, and_iff_right hpresent]
      constructor
      · intro hsession hwanted first hfirst
        obtain ⟨r, hr⟩ := Option.isSome_iff_exists.1 (h.wanted hwanted)
        apply hsession
        rw [hr, Option.map_some, hfirst, Option.getD_some]
      · intro hfirst r' hr'
        obtain ⟨r, hr, rfl⟩ := Option.map_eq_some_iff.1 hr'
        cases hchanges : s.changes with
        | nil => exact h.session hunsubscribes hchanges r hr
        | cons first rest =>
            refine hfirst (hpresent.1 (Option.isSome_of_eq_some hr)) _ ?_
            rw [hchanges]
            rfl
  | [_] =>
      have hboth : ((s.new.bind fun _ => s.old).map fun r => s.changes.head?.getD r).isSome ↔
          s.new.isSome ∧ s.old.isSome := by
        cases s.new <;> simp
      rw [hboth]
      refine and_congr_right fun hwanted => ⟨fun hsession hw r hr => ?_, fun hfirst r' hr' => ?_⟩
      · obtain ⟨hnew, hold⟩ := hwanted.2 hw
        obtain ⟨new, hnew⟩ := Option.isSome_iff_exists.1 hnew
        obtain ⟨old, hold⟩ := Option.isSome_iff_exists.1 hold
        apply hsession
        rw [hold] at hr
        rw [hnew, hold, Option.bind_some, Option.map_some]
        cases hchanges : s.changes.head? with
        | none => simpa [hchanges] using hr
        | some first => simpa [hchanges] using hr
      · obtain ⟨old, hold, rfl⟩ := Option.map_eq_some_iff.1 hr'
        obtain ⟨new, hnew, hold⟩ := Option.bind_eq_some_iff.1 hold
        refine hfirst (hwanted.1 (by simp [hnew, hold])) _ ?_
        rw [hold]
        cases s.changes.head? with
        | none => rfl
        | some first => rfl
  | _ :: _ :: rest => simp

section Tracked

variable {fetching : Bool}

lemma Tracked.empty (hwanted : ¬ wanted) (session : Option String) :
    Tracked {} fetching wanted session where
  plain := ⟨by simp, by simp, by simp, by simp⟩
  present := by simp [newest]
  wanted hw := absurd hw hwanted
  session := by simp [newest]
  fetching _ := rfl

/-- The poll timer fires. -/
lemma Tracked.fetch (h : s.Tracked fetching wanted session) : s.Tracked true wanted session :=
  ⟨h.plain, h.present, h.wanted, h.session, by simp⟩

/-- The poll has left what is wanted. -/
lemma Tracked.polled (h : s.All Plain) (hsettled : s.polled.Settled wanted session) :
    s.polled.Tracked fetching wanted session where
  plain := h.polled fun r hr hmode => absurd hmode hr.1
  present _ hnewest := hsettled.present.1 (isSome_newest.1 hnewest)
  wanted hw := isSome_newest.2 (hsettled.present.2 hw)
  session _ _ r hr := by
    refine hsettled.session r ?_
    rcases Option.or_eq_some_iff.1 hr with hnew | ⟨-, hold⟩
    · exact .inl hnew
    · exact .inr hold
  fetching _ := (polled_of_plain h).1

/-- The application subscribes. -/
lemma Tracked.subscribe (h : s.Tracked fetching wanted session)
    (hmode : r.getAndSubscribe = .getAndSubscribe) :
    (s.hit fetching r).Tracked fetching True (some r.wtSessionId) := by
  have hplain : Plain r := ⟨by simp [hmode], by simp [hmode]⟩
  have hnewest : (s.hit fetching r).newest = some r := by
    unfold Subscription.hit newest
    rw [hmode]
    cases fetching with
    | true => simp
    | false => simp [h.fetching rfl]
  refine ⟨h.plain.hit hplain fetching, fun _ _ => trivial, fun _ => by rw [hnewest]; rfl,
    fun _ _ r' hr' => ?_, fun hfetching => ?_⟩
  · rw [hnewest] at hr'
    rw [Option.some.inj hr']
  · subst hfetching
    simp [Subscription.hit, hmode, h.fetching rfl]

lemma Tracked.single (hmode : r.getAndSubscribe = .getAndSubscribe) :
    Tracked { new := some r } true True (some r.wtSessionId) := by
  have hempty : Tracked {} true False none := Tracked.empty not_false none
  have hsubscribe := hempty.subscribe hmode
  unfold Subscription.hit at hsubscribe
  rw [hmode] at hsubscribe
  exact hsubscribe

lemma Tracked.changeSessionId (h : s.Tracked fetching wanted session)
    (hmode : r.getAndSubscribe = .getAndSubscribeChangeSessionId) (session' : Option String) :
    (s.hit fetching r).Tracked fetching wanted session' := by
  have hplain : Plain r := ⟨by simp [hmode], by simp [hmode]⟩
  have hhit : s.hit fetching r = { s with changes := s.changes ++ [r] } := by
    simp [Subscription.hit, hmode]
  have hall := h.plain.hit hplain fetching
  rw [hhit] at hall ⊢
  exact ⟨hall, h.present, h.wanted, fun _ hchanges => by simp at hchanges, h.fetching⟩

lemma Tracked.unsubscribe (h : s.Tracked fetching wanted session)
    (hmode : r.getAndSubscribe = .getAndSubscribeUnsubscribe) (session' : Option String) :
    (s.hit fetching r).Tracked fetching False session' := by
  have hplain : Plain r := ⟨by simp [hmode], by simp [hmode]⟩
  have hhit : s.hit fetching r = { s with unsubscribes := s.unsubscribes ++ [r] } := by
    simp [Subscription.hit, hmode]
  have hall := h.plain.hit hplain fetching
  rw [hhit] at hall ⊢
  exact ⟨hall, fun hnone => by simp at hnone, False.elim, fun hnone => by simp at hnone, h.fetching⟩

end Tracked

end Subscription

namespace CouchbaseDB

/-- What the backend holds for a key of one application. -/
def part (st : CouchbaseDB) (k : Key) (a : App) : Subscription :=
  match st.getAndSubscribeCacheHash k with
  | none => {}
  | some item => item.of a

def fetching (st : CouchbaseDB) (k : Key) : Bool :=
  match st.getAndSubscribeCacheHash k with
  | none => false
  | some item => item.currentlyFetchingPossiblyNew

/-- The last request of an application for a key, among those of some kinds. -/
def lastRequest (st : CouchbaseDB) (k : Key) (a : App) (kinds : List GetAndSubscribeEnum) :
    Option GetRequest :=
  ((st.requestsFor k).filter fun r => r.app = a ∧ r.getAndSubscribe ∈ kinds).getLast?

/-- The last subscribe or unsubscribe request of the application was a subscribe. -/
def Wants (st : CouchbaseDB) (k : Key) (a : App) : Prop :=
  (st.lastRequest k a [.getAndSubscribe, .getAndSubscribeUnsubscribe]).map (·.getAndSubscribe) =
    some .getAndSubscribe
  deriving Decidable

/-- The session id of the application's last subscribe or change-session-id request. -/
def lastSessionId (st : CouchbaseDB) (k : Key) (a : App) : Option String :=
  (st.lastRequest k a [.getAndSubscribe, .getAndSubscribeChangeSessionId]).map (·.wtSessionId)

/-- **Exactly the wanted subscriptions** of the key are kept.

Wanted is what the last request of an application says, with the session that it was made for. -/
def KeepsWanted (st : CouchbaseDB) (k : Key) : Prop :=
  ∀ a, (st.part k a).Settled (st.Wants k a) (st.lastSessionId k a)

/-- A poll of the key finds a document. -/
def AnswersPoll (st : CouchbaseDB) (k : Key) : Event → Prop
  | .getCallback op (.success _ _) => op ∈ st.gets ∧ op.Polls k
  | _ => False

instance (st : CouchbaseDB) (k : Key) : DecidablePred (st.AnswersPoll k) := fun x => by
  unfold AnswersPoll
  split <;> infer_instance

/-- The condition: when a poll is answered, the queues of every application are in order.  The
queues are those of the state before the poll, and they are looked at for each application on its
own. -/
def QueuesInOrder (k : Key) (st : CouchbaseDB) (x : Event) : Prop :=
  st.AnswersPoll k x → ∀ r ∈ st.requestsFor k,
    (st.part k r.app).InOrder (st.Wants k r.app) (st.lastSessionId k r.app)
  deriving Decidable

end CouchbaseDB

/-- What happens to a key that exists, where nobody uses the kind that only wants one response. -/
def Event.OnExistingKey (k : Key) : Event → Prop
  | .eventSlotForWtGet r _ =>
      r.1.couchbaseGetKeyInput = k → r.1.getAndSubscribe ≠ .getAndSubscribeJustOne
  | .getCallback op result => op.Polls k → result ≠ .keyENOENT
  | _ => True

instance (k : Key) : DecidablePred (Event.OnExistingKey k) := fun x =>
  match x with
  | .eventSlotForWtGet r _ =>
      inferInstanceAs (Decidable (r.1.couchbaseGetKeyInput = k →
        r.1.getAndSubscribe ≠ .getAndSubscribeJustOne))
  | .getCallback op result =>
      inferInstanceAs (Decidable (op.Polls k → result ≠ .keyENOENT))
  | .eventSlotForWtStore _ _ | .storeCallback _ _ | .storeTimeoutCallback _ _
  | .getTimeoutCallback _ _ | .getAndSubscribePollingTimeout _ _ _
  | .beginStoppingCouchbaseCleanly => .isTrue trivial

namespace CouchbaseDB

variable {st st' : CouchbaseDB} {k : Key} {a : App} {x : Event}

lemma lastRequest_of_eq (h : st'.requestsFor k = st.requestsFor k)
    (kinds : List GetAndSubscribeEnum) : st'.lastRequest k a kinds = st.lastRequest k a kinds := by
  unfold lastRequest
  rw [h]

lemma lastRequest_of_append {r : GetRequest} (h : st'.requestsFor k = st.requestsFor k ++ [r])
    (kinds : List GetAndSubscribeEnum) : st'.lastRequest k a kinds =
      if r.app = a ∧ r.getAndSubscribe ∈ kinds then some r else st.lastRequest k a kinds := by
  unfold lastRequest
  rw [h, List.filter_append]
  by_cases hr : r.app = a ∧ r.getAndSubscribe ∈ kinds
  · simp [hr]
  · simp [hr]

/-- What is known of every application's part between two polls. -/
def Tracks (st : CouchbaseDB) (k : Key) : Prop :=
  ∀ a, (st.part k a).Tracked (st.fetching k) (st.Wants k a) (st.lastSessionId k a)

/-- No request for the key has arrived. -/
lemma tracks_of_eq (hrequests : st'.requestsFor k = st.requestsFor k)
    (h : ∀ a, (st'.part k a).Tracked (st'.fetching k) (st.Wants k a) (st.lastSessionId k a)) :
    st'.Tracks k := by
  intro a
  have ha := h a
  unfold Wants lastSessionId at ha ⊢
  rw [lastRequest_of_eq hrequests, lastRequest_of_eq hrequests]
  exact ha

lemma Tracks.of_eq (h : st.Tracks k)
    (hitem : st'.getAndSubscribeCacheHash k = st.getAndSubscribeCacheHash k)
    (hrequests : st'.requestsFor k = st.requestsFor k) : st'.Tracks k := by
  refine tracks_of_eq hrequests fun a => ?_
  have ha := h a
  unfold part fetching at ha ⊢
  rw [hitem]
  exact ha

lemma part_of_some {item : GetAndSubscribeCacheItem}
    (hitem : st.getAndSubscribeCacheHash k = some item) : st.part k a = item.of a := by
  unfold part
  rw [hitem]

lemma part_of_none (hitem : st.getAndSubscribeCacheHash k = none) : st.part k a = {} := by
  unfold part
  rw [hitem]

lemma fetching_of_some {item : GetAndSubscribeCacheItem}
    (hitem : st.getAndSubscribeCacheHash k = some item) :
    st.fetching k = item.currentlyFetchingPossiblyNew := by
  unfold fetching
  rw [hitem]

/-- Without an item nobody wants to be subscribed. -/
lemma Tracks.not_wants (h : st.Tracks k) (hitem : st.getAndSubscribeCacheHash k = none) :
    ¬ st.Wants k a := by
  intro hwants
  have hnewest := (h a).wanted hwants
  rw [part_of_none hitem] at hnewest
  cases hnewest

/-- An application whose part of the item is empty. -/
lemma Tracks.tracked_empty {session : Option String} {fetching : Bool} (h : st.Tracks k)
    (hempty : (st.part k a).newest = none) :
    Subscription.Tracked {} fetching (st.Wants k a) session := by
  refine .empty (fun hwants => ?_) session
  have hnewest := (h a).wanted hwants
  rw [hempty] at hnewest
  cases hnewest

/-- A request for the key arrives. -/
lemma Tracks.request (h : st.Tracks k) {r : GetRequest} (hsent : r.getAndSubscribe.IsSent)
    (hmode : r.getAndSubscribe ≠ .justGetDontSubscribe)
    (hone : r.getAndSubscribe ≠ .getAndSubscribeJustOne)
    (hpart : st'.part k a = if a = r.app then (st.part k a).hit (st.fetching k) r else st.part k a)
    (hfetching : st'.fetching k = st.fetching k)
    (hrequests : st'.requestsFor k = st.requestsFor k ++ [r]) :
    (st'.part k a).Tracked (st'.fetching k) (st'.Wants k a) (st'.lastSessionId k a) := by
  by_cases ha : a = r.app
  · subst ha
    rw [if_pos rfl] at hpart
    have hr := h r.app
    unfold Wants lastSessionId at hr ⊢
    rw [hpart, hfetching, lastRequest_of_append hrequests, lastRequest_of_append hrequests]
    cases hkind : r.getAndSubscribe with
    | getAndSubscribe => simpa [hkind] using hr.subscribe hkind
    | getAndSubscribeChangeSessionId => simpa [hkind] using hr.changeSessionId hkind _
    | getAndSubscribeUnsubscribe => simpa [hkind] using hr.unsubscribe hkind _
    | justGetDontSubscribe => exact absurd hkind hmode
    | getAndSubscribeJustOne => exact absurd hkind hone
    | getAndSubscribeJustOneNext => exact absurd hsent (by simp [hkind, GetAndSubscribeEnum.IsSent])
    | getAndSubscribeHardGet => exact absurd hsent (by simp [hkind, GetAndSubscribeEnum.IsSent])
  · rw [if_neg ha] at hpart
    have hother := h a
    unfold Wants lastSessionId at hother ⊢
    rw [hpart, hfetching, lastRequest_of_append hrequests, lastRequest_of_append hrequests,
      if_neg fun hr => ha hr.1.symm, if_neg fun hr => ha hr.1.symm]
    exact hother

/-- What the poll has found is told to every part. -/
lemma part_of_answersPoll (hanswers : st.AnswersPoll k x) (hstep : st.KeyStep k x st') :
    (∀ a, st'.part k a = (st.part k a).polled) ∧ st'.requestsFor k = st.requestsFor k := by
  unfold AnswersPoll at hanswers
  split at hanswers
  · next op document cas =>
      cases hstep with
      | idle unconcerned => exact absurd ⟨hanswers.1, hanswers.2, by simp⟩ unconcerned
      | success op' document' cas' item event inFlight key before after polls requests =>
          refine ⟨fun a => ?_, requests⟩
          rw [part_of_some after, part_of_some before]
          exact GetAndSubscribeCacheItem.of_getCallback _ _ _
      | lost op' document' cas' event inFlight key before after polls requests =>
          refine ⟨fun a => ?_, requests⟩
          rw [part_of_none after, part_of_none before]
          rfl
      | keyENOENT op' event => cases event
      | otherError op' event => cases event
      | _ => contradiction
  · exact hanswers.elim

/-- **What an event does to the parts of one key**, if its poll leaves what is wanted. -/
lemma Tracks.keyStep (h : st.Tracks k) (hx : x.OnExistingKey k)
    (hkeeps : st.AnswersPoll k x → st'.KeepsWanted k) (hstep : st.KeyStep k x st') :
    st'.Tracks k := by
  by_cases hanswers : st.AnswersPoll k x
  · obtain ⟨hpart, hrequests⟩ := part_of_answersPoll hanswers hstep
    refine tracks_of_eq hrequests fun a => ?_
    have hsettled := hkeeps hanswers a
    unfold Wants lastSessionId at hsettled ⊢
    rw [hpart, lastRequest_of_eq hrequests, lastRequest_of_eq hrequests] at hsettled
    rw [hpart]
    exact .polled (h a).plain hsettled
  have hgone (hafter : st'.getAndSubscribeCacheHash k = none)
      (hrequests : st'.requestsFor k = st.requestsFor k)
      (hempty : ∀ a, (st.part k a).newest = none) : st'.Tracks k := by
    refine tracks_of_eq hrequests fun a => ?_
    rw [part_of_none hafter]
    exact h.tracked_empty (hempty a)
  cases hstep with
  | idle unconcerned item polls requests => exact h.of_eq item requests
  | hit r lcb item event accepting key mode before after polls requests =>
      subst event
      intro a
      refine h.request (r := st.numbered r.1) r.2 mode (hx key) ?_ ?_ requests
      · rw [part_of_some after, part_of_some before, fetching_of_some before]
        exact GetAndSubscribeCacheItem.of_hit
      · rw [fetching_of_some after, fetching_of_some before]
        exact GetAndSubscribeCacheItem.currentlyFetchingPossiblyNew_hit
  | miss r lcb event key mode before after polls requests =>
      intro a
      rw [part_of_none after]
      refine .empty (fun hwants => ?_) _
      unfold Wants at hwants
      rw [lastRequest_of_append requests] at hwants
      split at hwants
      · exact mode.2 (Option.some.inj hwants)
      · exact h.not_wants before hwants
  | subscribe r lcb event key mode before after polls requests =>
      intro a
      have hempty (session : Option String) :
          Subscription.Tracked {} true (st.Wants k a) session := .empty (h.not_wants before) session
      have hpart : st'.part k a = { new := if a = r.1.app then some (st.numbered r.1) else none } :=
        (part_of_some after).trans (GetAndSubscribeCacheItem.of_new (r := st.numbered r.1))
      rw [hpart, fetching_of_some after]
      unfold Wants at hempty
      unfold Wants lastSessionId
      rw [lastRequest_of_append requests, lastRequest_of_append requests]
      by_cases ha : a = r.1.app
      · have hmode : (st.numbered r.1).getAndSubscribe = .getAndSubscribe := mode
        have happ : (st.numbered r.1).app = a := ha.symm
        rw [if_pos ha, if_pos ⟨happ, by simp [hmode]⟩, if_pos ⟨happ, by simp [hmode]⟩,
          Option.map_some, Option.map_some, hmode]
        simp only [eq_self]
        exact .single hmode
      · rw [if_neg ha, if_neg fun hr => ha hr.1.symm, if_neg fun hr => ha hr.1.symm]
        exact hempty _
  | success op document cas item event inFlight key before after polls requests =>
      subst event
      exact absurd ⟨inFlight, key⟩ hanswers
  | lost op document cas event inFlight key before after polls requests =>
      exact hgone after requests fun a => by rw [part_of_none before]; rfl
  | keyENOENT op event inFlight key =>
      subst event
      exact absurd rfl (hx key)
  | otherError op event inFlight key after polls requests =>
      refine tracks_of_eq requests fun a => ?_
      have ha := h a
      unfold part fetching at ha ⊢
      rw [after]
      cases hitem : st.getAndSubscribeCacheHash k with
      | none =>
          rw [hitem] at ha
          exact ha
      | some item =>
          rw [hitem] at ha
          exact ha
  | refused op event key after polls requests => exact h.of_eq after requests
  | delete first lcb item event before timer none newNone after polls requests =>
      refine hgone after requests fun a => ?_
      rw [part_of_some before]
      exact Option.or_eq_none_iff.2 ⟨newNone a, none a⟩
  | poll first lcb item r event before timer held after polls requests =>
      refine tracks_of_eq requests fun a => ?_
      have ha := h a
      rw [part_of_some before] at ha
      rw [part_of_some after, fetching_of_some after]
      exact ha.fetch

/-- An application that has sent no request for the key. -/
lemma inOrder_of_no_request (hid : st.Identified)
    (hnone : ∀ r ∈ st.requestsFor k, r.app ≠ a) :
    (st.part k a).InOrder (st.Wants k a) (st.lastSessionId k a) := by
  have hnot : ¬ st.Wants k a := by
    unfold Wants lastRequest
    rw [List.filter_eq_nil_iff.2 fun r hr => by simp [hnone r hr]]
    simp
  have hunsubscribes : (st.part k a).unsubscribes = [] := by
    cases hitem : st.getAndSubscribeCacheHash k with
    | none => rw [part_of_none hitem]
    | some item =>
        rw [part_of_some hitem]
        refine List.eq_nil_iff_forall_not_mem.2 fun r hr => ?_
        obtain ⟨happ, r₀, hr₀, his⟩ := (hid.items k item hitem a).unsubscribes r hr
        exact hnone r₀ hr₀ (his.app.symm.trans happ)
  unfold Subscription.InOrder
  rw [hunsubscribes]
  exact fun hwants => absurd hwants hnot

/-- **The condition is exact** for one answer. -/
lemma Tracks.keepsWanted_iff (h : st.Tracks k) (hid : st.Identified) (hanswers : st.AnswersPoll k x)
    (hstep : st.KeyStep k x st') : st'.KeepsWanted k ↔ ∀ r ∈ st.requestsFor k,
      (st.part k r.app).InOrder (st.Wants k r.app) (st.lastSessionId k r.app) := by
  have hall : (∀ r ∈ st.requestsFor k,
      (st.part k r.app).InOrder (st.Wants k r.app) (st.lastSessionId k r.app)) ↔
        ∀ a, (st.part k a).InOrder (st.Wants k a) (st.lastSessionId k a) := by
    refine ⟨fun hr a => ?_, fun ha r _ => ha r.app⟩
    by_cases hnone : ∀ r ∈ st.requestsFor k, r.app ≠ a
    · exact inOrder_of_no_request hid hnone
    · push Not at hnone
      obtain ⟨r, hmem, rfl⟩ := hnone
      exact hr r hmem
  rw [hall]
  refine forall_congr' fun a => ?_
  obtain ⟨hpart, hrequests⟩ := part_of_answersPoll hanswers hstep
  rw [← (h a).settled_polled_iff, hpart]
  unfold Wants lastSessionId
  rw [lastRequest_of_eq hrequests, lastRequest_of_eq hrequests]

/-- **Exactly the wanted subscriptions are kept**, after every answered poll of a run, if and only
if every answered poll finds the queues in order.

A subscription that is kept though nobody wants it polls its key until the backend ends, and one
that is dropped though it is wanted leaves a page that never changes again.  The condition is about
the queues in front of a poll, and so is one that the answered poll can be asked for. -/
theorem wanted_subscriptions_kept_iff (k : Key) (events : List Event)
    (hexists : ∀ x ∈ events, x.OnExistingKey k) :
    Machine.StaysWithin step (fun st x => st.AnswersPoll k x → (st.step x).KeepsWanted k) {}
        events ↔ Machine.StaysWithin step (QueuesInOrder k) {} events := by
  refine Machine.staysWithin_congr (I := fun st => st.Ordered ∧ st.Tracks k)
    (Event.OnExistingKey k) (fun st x hx hI hkeeps => ?_) (fun st x hx hI => ?_) hexists
    ⟨ordered_start, fun a => ?_⟩
  · exact ⟨hI.1.step x, hI.2.keyStep hx hkeeps (hI.1.keyStep k x)⟩
  · exact imp_congr_right fun hanswers =>
      hI.2.keepsWanted_iff hI.1.identified hanswers (hI.1.keyStep k x)
  · exact .empty (by simp [Wants, lastRequest, requestsFor]) _

/-- An application subscribes, unsubscribes, and subscribes again before the next poll. -/
def subscribeAgain : List Event :=
  [.eventSlotForWtGet ⟨⟨0, "one", 1, "k", true, .getAndSubscribe⟩, trivial⟩ true,
    .getCallback ⟨⟨0, "one", 1, "k", true, .getAndSubscribe⟩, 1⟩ (.success "document" 7),
    .eventSlotForWtGet ⟨⟨1, "one", 1, "k", true, .getAndSubscribeUnsubscribe⟩, trivial⟩ true,
    .eventSlotForWtGet ⟨⟨2, "one", 1, "k", true, .getAndSubscribe⟩, trivial⟩ true,
    .getAndSubscribePollingTimeout "k" 1 true,
    .getCallback ⟨⟨2, "one", 1, "k", true, .getAndSubscribe⟩, 3⟩ (.success "document" 7)]

theorem not_wanted_subscriptions_kept : ¬ ∀ k events, (∀ x ∈ events, x.OnExistingKey k) →
    Machine.StaysWithin step (fun st x => st.AnswersPoll k x → (st.step x).KeepsWanted k) {}
      events := by
  intro hkept
  have hsteps := hkept "k" subscribeAgain (by decide)
  have hsettled := hsteps.2.2.2.2.2.1 (by decide +kernel) 1
  have habsent := hsettled.present.2 (by decide +kernel)
  exact absurd habsent (by decide +kernel)

/-- One application changes its session id while another one unsubscribes. -/
def changeSessionId : List Event :=
  subscribeToKey ++
    [.eventSlotForWtGet ⟨⟨1, "two", 2, "k", true, .getAndSubscribe⟩, trivial⟩ true,
      .eventSlotForWtGet ⟨⟨2, "three", 1, "k", true, .getAndSubscribeChangeSessionId⟩, trivial⟩
        true,
      .eventSlotForWtGet ⟨⟨3, "two", 2, "k", true, .getAndSubscribeUnsubscribe⟩, trivial⟩ true,
      .getCallback ⟨⟨0, "one", 1, "k", true, .getAndSubscribe⟩, 1⟩ (.success "document" 8)]

theorem wanted_subscriptions_kept_changeSessionId :
    Machine.StaysWithin step (fun st x => st.AnswersPoll "k" x → (st.step x).KeepsWanted "k") {}
      changeSessionId :=
  (wanted_subscriptions_kept_iff "k" changeSessionId (by decide)).2 (by decide +kernel)

end CouchbaseDB

end Autobackup.CouchbaseBackend
