import Autobackup.CouchbaseBackend.CacheItem

/-!
# One application's part of a cache item

The requests of different applications do not meet in a cache item: `item.of a` is all that it holds
of the application `a`, and what happens to the item happens to every such part by itself.  The
theorems below say so, operation by operation, with the same words for the operations on the parts.
-/

namespace Autobackup.CouchbaseBackend

open AssociationList

/-- What a cache item holds of one application. -/
structure Subscription where
  new : Option GetRequest := none
  old : Option GetRequest := none
  unsubscribes : List GetRequest := []
  changes : List GetRequest := []
  deriving DecidableEq

namespace Subscription

def unsubscribe (s : Subscription) : Subscription :=
  if s.new.isSome then { s with new := none } else { s with old := none }

def changeSessionId (s : Subscription) (r : GetRequest) : Subscription :=
  if s.new.isSome then { s with new := some r }
  else if s.old.isSome then { s with old := none, new := some r }
  else s

def processUnsubscribes (s : Subscription) : Subscription :=
  s.unsubscribes.foldr (fun _ s => s.unsubscribe) s

def processChanges (s : Subscription) : Subscription :=
  s.changes.foldr (fun r s => s.changeSessionId r) s

def process (s : Subscription) : Subscription :=
  { s.processUnsubscribes.processChanges with unsubscribes := [], changes := [] }

/-- A poll has found a document. -/
def polled (s : Subscription) : Subscription :=
  { s.process with
    new := s.process.new.bind GetAndSubscribeCacheItem.makeNext
    old := (s.process.new.bind GetAndSubscribeCacheItem.makeOld).or s.process.old }

/-- A request of the application, where the item is fetching or not. -/
def hit (s : Subscription) (fetching : Bool) (r : GetRequest) : Subscription :=
  match r.getAndSubscribe with
  | .getAndSubscribeChangeSessionId => { s with changes := s.changes ++ [r] }
  | .getAndSubscribeUnsubscribe => { s with unsubscribes := s.unsubscribes ++ [r] }
  | .getAndSubscribeJustOne => { s with new := some r }
  | _ => if ¬ fetching then { s with old := some r } else { s with new := some r }

/-- All requests satisfy `p`. -/
structure All (p : GetRequest → Prop) (s : Subscription) : Prop where
  new : ∀ r, s.new = some r → p r
  old : ∀ r, s.old = some r → p r
  unsubscribes : ∀ r ∈ s.unsubscribes, p r
  changes : ∀ r ∈ s.changes, p r

section All

variable {p : GetRequest → Prop} {s : Subscription} {r : GetRequest}

lemma All.unsubscribe (h : s.All p) : s.unsubscribe.All p := by
  unfold Subscription.unsubscribe
  split
  · exact ⟨by simp, h.old, h.unsubscribes, h.changes⟩
  · exact ⟨h.new, by simp, h.unsubscribes, h.changes⟩

lemma All.changeSessionId (h : s.All p) (hr : p r) : (s.changeSessionId r).All p := by
  have hnew : ∀ r', some r = some r' → p r' := fun r' hr' => Option.some.inj hr' ▸ hr
  unfold Subscription.changeSessionId
  split
  · exact ⟨hnew, h.old, h.unsubscribes, h.changes⟩
  · split
    · exact ⟨hnew, by simp, h.unsubscribes, h.changes⟩
    · exact h

lemma All.foldr_changeSessionId (h : s.All p) {changes : List GetRequest}
    (hchanges : ∀ r ∈ changes, p r) : (changes.foldr (fun r s => s.changeSessionId r) s).All p := by
  induction changes with
  | nil => exact h
  | cons r rest ih =>
      have hrest := ih fun r' hr' => hchanges r' (List.mem_cons_of_mem r hr')
      exact hrest.changeSessionId (hchanges r List.mem_cons_self)

lemma All.process (h : s.All p) : s.process.All p := by
  have hunsubscribes : s.processUnsubscribes.All p := by
    unfold processUnsubscribes
    induction s.unsubscribes with
    | nil => exact h
    | cons r rest ih => exact ih.unsubscribe
  have hchanges : s.processUnsubscribes.processChanges.All p :=
    hunsubscribes.foldr_changeSessionId hunsubscribes.changes
  exact ⟨hchanges.new, hchanges.old, by simp [Subscription.process], by simp [Subscription.process]⟩

lemma All.polled (h : s.All p)
    (hnext : ∀ r, p r → r.getAndSubscribe = .getAndSubscribeJustOne →
      p { r with getAndSubscribe := .getAndSubscribeJustOneNext }) : s.polled.All p := by
  have hprocess := h.process
  refine ⟨fun r hr => ?_, fun r hr => ?_, hprocess.unsubscribes, hprocess.changes⟩
  · obtain ⟨r', hr', hmake⟩ := Option.bind_eq_some_iff.1 hr
    unfold GetAndSubscribeCacheItem.makeNext at hmake
    split at hmake
    · next hmode => exact Option.some.inj hmake ▸ hnext r' (hprocess.new r' hr') hmode
    · cases hmake
  · rcases Option.or_eq_some_iff.1 hr with hmake | ⟨-, hold⟩
    · obtain ⟨r', hr', hmake⟩ := Option.bind_eq_some_iff.1 hmake
      unfold GetAndSubscribeCacheItem.makeOld at hmake
      split at hmake
      · cases hmake
      · cases hmake
      · exact Option.some.inj hmake ▸ hprocess.new r' hr'
    · exact hprocess.old r hold

lemma All.hit (h : s.All p) (hr : p r) (fetching : Bool) : (s.hit fetching r).All p := by
  have hself : ∀ r', some r = some r' → p r' := fun r' hr' => Option.some.inj hr' ▸ hr
  have happend {rest : List GetRequest} (hrest : ∀ r' ∈ rest, p r') : ∀ r' ∈ rest ++ [r], p r' := by
    intro r' hr'
    rw [List.mem_append, List.mem_singleton] at hr'
    rcases hr' with hr' | rfl
    · exact hrest r' hr'
    · exact hr
  unfold Subscription.hit
  split
  · exact ⟨h.new, h.old, h.unsubscribes, happend h.changes⟩
  · exact ⟨h.new, h.old, happend h.unsubscribes, h.changes⟩
  · exact ⟨hself, h.old, h.unsubscribes, h.changes⟩
  · split
    · exact ⟨h.new, hself, h.unsubscribes, h.changes⟩
    · exact ⟨hself, h.old, h.unsubscribes, h.changes⟩

end All

end Subscription

namespace GetAndSubscribeCacheItem

/-- The part of one application. -/
def of (item : GetAndSubscribeCacheItem) (a : App) : Subscription where
  new := item.newSubscribers.lookup a
  old := item.subscribers.lookup a
  unsubscribes := item.unsubscribeRequestsToProcessMomentarily.filter (·.app = a)
  changes := item.changeSessionIdRequestsToProcessMomentarily.filter (·.app = a)

variable {item : GetAndSubscribeCacheItem} {r : GetRequest} {a : App}

lemma of_hit : (item.hit r).1.of a =
    if a = r.app then (item.of a).hit item.currentlyFetchingPossiblyNew r else item.of a := by
  unfold hit Subscription.hit
  by_cases ha : a = r.app
  · rw [if_pos ha]
    subst ha
    cases r.getAndSubscribe <;> cases item.currentlyFetchingPossiblyNew <;>
      simp [of]
  · rw [if_neg ha]
    have hne : ¬ r.app = a := fun h => ha h.symm
    cases r.getAndSubscribe <;> cases item.currentlyFetchingPossiblyNew <;>
      simp [of, ha, hne]

lemma of_processUnsubscribeRequest : (item.processUnsubscribeRequest r).of a =
    if r.app = a then (item.of a).unsubscribe else item.of a := by
  unfold processUnsubscribeRequest Subscription.unsubscribe
  by_cases ha : r.app = a
  · rw [if_pos ha]
    subst ha
    by_cases hnew : (item.newSubscribers.lookup r.app).isSome
    · rw [if_pos hnew, if_pos (by exact hnew)]
      simp [of]
    · rw [if_neg hnew, if_neg (by exact hnew)]
      simp [of]
  · have hne : ¬ a = r.app := fun h => ha h.symm
    rw [if_neg ha]
    split
    · simp [of, hne]
    · simp [of, hne]

lemma of_processChangeSessionIdRequest : (item.processChangeSessionIdRequest r).of a =
    if r.app = a then (item.of a).changeSessionId r else item.of a := by
  unfold processChangeSessionIdRequest Subscription.changeSessionId
  by_cases ha : r.app = a
  · rw [if_pos ha]
    subst ha
    by_cases hnew : (item.newSubscribers.lookup r.app).isSome
    · rw [if_pos hnew, if_pos (by exact hnew)]
      simp [of]
    · by_cases hold : (item.subscribers.lookup r.app).isSome
      · rw [if_neg hnew, if_pos hold, if_neg (by exact hnew), if_pos (by exact hold)]
        simp [of]
      · rw [if_neg hnew, if_neg hold, if_neg (by exact hnew), if_neg (by exact hold)]
  · have hne : ¬ a = r.app := fun h => ha h.symm
    rw [if_neg ha]
    split
    · simp [of, hne]
    · split
      · simp [of, hne]
      · rfl

/-- A fold over requests is a fold over the requests of every application. -/
lemma of_foldr {f : GetRequest → GetAndSubscribeCacheItem → GetAndSubscribeCacheItem}
    {g : GetRequest → Subscription → Subscription}
    (hf : ∀ item r, (f r item).of a = if r.app = a then g r (item.of a) else item.of a)
    (requests : List GetRequest) (item : GetAndSubscribeCacheItem) :
    (requests.foldr f item).of a = (requests.filter (·.app = a)).foldr g (item.of a) := by
  induction requests with
  | nil => rfl
  | cons r rest ih =>
      rw [List.foldr_cons, hf, ih]
      by_cases ha : r.app = a
      · rw [if_pos ha, List.filter_cons_of_pos (by simpa using ha), List.foldr_cons]
      · rw [if_neg ha, List.filter_cons_of_neg (by simpa using ha)]

lemma of_processRequests : item.processRequests.of a = (item.of a).process := by
  have hunsubscribes := of_foldr (a := a)
    (f := fun r item => item.processUnsubscribeRequest r) (g := fun _ s => s.unsubscribe)
    (fun _ _ => of_processUnsubscribeRequest) item.unsubscribeRequestsToProcessMomentarily item
  set item' := item.unsubscribeRequestsToProcessMomentarily.foldr
    (fun r item => item.processUnsubscribeRequest r) item with hitem'
  have hchanges := of_foldr (a := a)
    (f := fun r item => item.processChangeSessionIdRequest r) (g := fun r s => s.changeSessionId r)
    (fun _ _ => of_processChangeSessionIdRequest) item'.changeSessionIdRequestsToProcessMomentarily
    item'
  have hprocessed : (item.of a).processUnsubscribes = item'.of a := hunsubscribes.symm
  unfold Subscription.process Subscription.processChanges
  rw [hprocessed]
  unfold processRequests
  dsimp only
  rw [← hitem']
  rw [show (item'.of a).changes =
    item'.changeSessionIdRequestsToProcessMomentarily.filter (·.app = a) from rfl, ← hchanges]
  rfl

lemma of_getCallback (document : String) (cas polledAt : ℕ) :
    (item.getCallback document cas polledAt).1.of a = (item.of a).polled := by
  unfold Subscription.polled
  rw [← of_processRequests]
  simp [getCallback, of]

/-! ## All requests of an item -/

/-- All requests of the item satisfy `p`, which may depend on the application they are held
under. -/
def All (p : App → GetRequest → Prop) (item : GetAndSubscribeCacheItem) : Prop :=
  ∀ a, (item.of a).All (p a)

variable {p : App → GetRequest → Prop}

lemma All.imp {q : App → GetRequest → Prop} (h : item.All p) (hpq : ∀ a r, p a r → q a r) :
    item.All q := fun a =>
  ⟨fun r hr => hpq a r ((h a).new r hr), fun r hr => hpq a r ((h a).old r hr),
    fun r hr => hpq a r ((h a).unsubscribes r hr), fun r hr => hpq a r ((h a).changes r hr)⟩

lemma All.hit (h : item.All p) (hr : p r.app r) : (item.hit r).1.All p := by
  intro a
  rw [of_hit]
  split
  · next ha =>
      subst ha
      exact (h r.app).hit hr _
  · exact h a

lemma All.getCallback (h : item.All p)
    (hnext : ∀ a r, p a r → r.getAndSubscribe = .getAndSubscribeJustOne →
      p a { r with getAndSubscribe := .getAndSubscribeJustOneNext })
    (document : String) (cas polledAt : ℕ) :
    (item.getCallback document cas polledAt).1.All p := by
  intro a
  rw [of_getCallback]
  exact (h a).polled (hnext a)

lemma All.erase (h : item.All p) (a : App) :
    { item with newSubscribers := item.newSubscribers.erase a }.All p := by
  intro a'
  refine ⟨fun r hr => ?_, (h a').old, (h a').unsubscribes, (h a').changes⟩
  change (item.newSubscribers.erase a).lookup a' = some r at hr
  by_cases ha : a' = a
  · subst ha
    simp at hr
  · rw [AList.lookup_erase_ne ha] at hr
    exact (h a').new r hr

/-- What a new item holds. -/
lemma of_new : of { newSubscribers := (∅ : Subscribers).insert r.app r } a =
    { new := if a = r.app then some r else none } := by
  unfold of
  by_cases ha : a = r.app
  · rw [ha, AList.lookup_insert, if_pos rfl]
    rfl
  · rw [AList.lookup_insert_ne ha, if_neg ha]
    rfl

lemma all_new (hr : p r.app r) : All p { newSubscribers := (∅ : Subscribers).insert r.app r } := by
  intro a
  rw [of_new]
  refine ⟨fun r' hr' => ?_, by simp, by simp, by simp⟩
  dsimp only at hr'
  split at hr'
  · next ha => exact Option.some.inj hr' ▸ ha ▸ hr
  · cases hr'

/-- Only the application that has sent the request is told something at once. -/
lemma fst_of_mem_hit {posted : Posted} (hposted : posted ∈ (item.hit r).2) :
    posted.1 = r.number := by
  unfold GetAndSubscribeCacheItem.hit at hposted
  split at hposted
  · simp at hposted
  · simp at hposted
  · simp at hposted
  · split at hposted
    · obtain rfl := List.mem_singleton.1 hposted
      rfl
    · simp at hposted

/-- Who is told of the document a poll has found. -/
lemma All.exists_of_mem_getCallback (h : item.All p) {document : String} {cas polledAt : ℕ}
    {posted : Posted} (hposted : posted ∈ (item.getCallback document cas polledAt).2) :
    ∃ a r, p a r ∧ posted = r.respondWithCAS document cas (some polledAt) := by
  have hall : item.processRequests.All p := fun a => of_processRequests ▸ (h a).process
  obtain ⟨r, hr, rfl⟩ := List.mem_map.1 hposted
  rcases List.mem_append.1 hr with hr | hr
  · obtain ⟨a, ha⟩ := mem_values.1 (List.mem_filter.1 hr).1
    exact ⟨a, r, (hall a).new r ha, rfl⟩
  · split at hr
    · obtain ⟨a, ha⟩ := mem_values.1 hr
      exact ⟨a, r, (hall a).old r ha, rfl⟩
    · simp at hr

end GetAndSubscribeCacheItem

end Autobackup.CouchbaseBackend
