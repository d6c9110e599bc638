import Autobackup.Foundation.AssociationList

/-!
# What the backend remembers of a key that is subscribed to

The backend polls every key that somebody has subscribed to and keeps a `GetAndSubscribeCacheItem`
for it: the document as the last poll found it, the applications that get every change of it
(`subscribers`), those that want whatever the next poll finds (`newSubscribers`), and the
requests to unsubscribe or to change a session id that have arrived since the last poll.

`GetAndSubscribeCacheItem.hit` is what a request does that finds the item, and
`GetAndSubscribeCacheItem.getCallback` what a document does that a poll has found.
-/

namespace Autobackup.CouchbaseBackend

open AssociationList

/-- A key of couchbase. -/
abbrev Key := String

/-- `AnonymousBitcoinComputingWtGUIPointerForCallback`, the application that has sent a request. -/
abbrev App := ℕ

/-- `GetAndSubscribeEnum` -/
inductive GetAndSubscribeEnum
  | justGetDontSubscribe
  | getAndSubscribe
  | getAndSubscribeChangeSessionId
  | getAndSubscribeUnsubscribe
  /-- No JavaScript, so just one update of the subscription, or a hard get if need be. -/
  | getAndSubscribeJustOne
  /-- The same after one response.  Reserved, no application sends it. -/
  | getAndSubscribeJustOneNext
  /-- The hard get.  Reserved as well. -/
  | getAndSubscribeHardGet
  deriving DecidableEq, Repr

/-- Sent by applications. -/
def GetAndSubscribeEnum.IsSent : GetAndSubscribeEnum → Prop
  | .getAndSubscribeJustOneNext | .getAndSubscribeHardGet => False
  | _ => True

instance : DecidablePred GetAndSubscribeEnum.IsSent := fun mode => by
  cases mode <;> unfold GetAndSubscribeEnum.IsSent <;> infer_instance

/-- `GetCouchbaseDocumentByKeyRequest` -/
structure GetRequest where
  /-- Which one it is: how many requests had arrived before.  For the source that is its address. -/
  number : ℕ := 0
  wtSessionId : String
  app : App
  couchbaseGetKeyInput : Key
  saveCAS : Bool
  getAndSubscribe : GetAndSubscribeEnum
  deriving DecidableEq, Repr

/-- A request as an application sends it. -/
abbrev SentRequest := {r : GetRequest // r.getAndSubscribe.IsSent}

/-- `StoreCouchbaseDocumentByKeyRequest`, without what is only handed on to couchbase. -/
structure StoreRequest where
  number : ℕ := 0
  saveCasOutput : Bool
  deriving DecidableEq, Repr

/-- What `respond` and `respondWithCAS` post to an application. -/
structure Response where
  couchbaseDocument : String := ""
  /-- Nothing is said of the CAS by `respond`. -/
  cas : Option ℕ := none
  lcbOpSuccess : Bool
  dbError : Bool
  /-- Where the response is the result of a poll: how many requests had arrived when that poll was
  started.  The source does not keep it. -/
  polledAt : Option ℕ := none
  deriving DecidableEq, Repr

/-- A response, and the number of the request it is for. -/
abbrev Posted := ℕ × Response

/-- Whether the request takes part in the subscriptions. -/
def GetRequest.subscribes (r : GetRequest) : Bool :=
  r.getAndSubscribe ≠ .justGetDontSubscribe ∧ r.getAndSubscribe ≠ .getAndSubscribeHardGet

/-- `respond` or `respondWithCAS`, where there is no document. -/
def GetRequest.respondWithoutDocument (r : GetRequest) (dbError : Bool) : Posted where
  fst := r.number
  snd := ⟨"", if r.saveCAS then some 0 else none, false, dbError, none⟩

def GetRequest.respondWithDocument (r : GetRequest) (document : String) (cas : ℕ) : Posted where
  fst := r.number
  snd := ⟨document, if r.saveCAS then some cas else none, true, false, none⟩

/-- The response to a subscriber. -/
def GetRequest.respondWithCAS (r : GetRequest) (document : String) (cas : ℕ)
    (polledAt : Option ℕ) : Posted where
  fst := r.number
  snd := ⟨document, some cas, true, false, polledAt⟩

def StoreRequest.respond (r : StoreRequest) (cas : ℕ) (lcbOpSuccess dbError : Bool) : Posted where
  fst := r.number
  snd := ⟨"", if r.saveCasOutput then some cas else none, lcbOpSuccess, dbError, none⟩

/-- `SubscribersType`.  It holds every request under the application that has sent it. -/
abbrev Subscribers := AList fun _ : App => GetRequest

/-- The request that a map begins with.  The source's map is unordered and may begin anywhere, so
the application is an input, which counts where it is in the map. -/
def Subscribers.begin (s : Subscribers) (first : App) : Option GetRequest :=
  (s.lookup first).or (values s).head?

lemma Subscribers.lookup_of_begin {s : Subscribers} {first : App} {r : GetRequest}
    (h : s.begin first = some r) : ∃ a, s.lookup a = some r := by
  rcases Option.or_eq_some_iff.1 h with h | ⟨-, h⟩
  · exact ⟨first, h⟩
  · exact mem_values.1 (List.mem_of_mem_head? h)

lemma Subscribers.begin_eq_none {s : Subscribers} {first : App} :
    s.begin first = none ↔ ∀ a, s.lookup a = none := by
  rw [Subscribers.begin, Option.or_eq_none_iff, List.head?_eq_none_iff, values_eq_nil]
  exact and_iff_right_of_imp fun h => h first

structure GetAndSubscribeCacheItem where
  currentlyFetchingPossiblyNew : Bool := true
  document : String := ""
  documentCAS : ℕ := 0
  newSubscribers : Subscribers := ∅
  subscribers : Subscribers := ∅
  unsubscribeRequestsToProcessMomentarily : List GetRequest := []
  changeSessionIdRequestsToProcessMomentarily : List GetRequest := []
  /-- The timer is armed. -/
  pollingTimeoutTimer : Bool := false
  deriving DecidableEq

namespace GetAndSubscribeCacheItem

/-- A request that finds the item. -/
def hit (item : GetAndSubscribeCacheItem) (r : GetRequest) :
    GetAndSubscribeCacheItem × List Posted :=
  match r.getAndSubscribe with
  | .getAndSubscribeChangeSessionId =>
      ({ item with
        changeSessionIdRequestsToProcessMomentarily :=
          item.changeSessionIdRequestsToProcessMomentarily ++ [r] }, [])
  | .getAndSubscribeUnsubscribe =>
      ({ item with
        unsubscribeRequestsToProcessMomentarily :=
          item.unsubscribeRequestsToProcessMomentarily ++ [r] }, [])
  | .getAndSubscribeJustOne =>
      -- takes the place of whatever the application has among the new subscribers
      ({ item with newSubscribers := item.newSubscribers.insert r.app r }, [])
  | _ =>
      -- between two polls the document is as new as it gets, and is answered at once
      if ¬ item.currentlyFetchingPossiblyNew then
        ({ item with subscribers := item.subscribers.insert r.app r },
          [r.respondWithCAS item.document item.documentCAS none])
      else ({ item with newSubscribers := item.newSubscribers.insert r.app r }, [])

/-- One unsubscribe request.  A second one of the same application does nothing. -/
def processUnsubscribeRequest (item : GetAndSubscribeCacheItem) (r : GetRequest) :
    GetAndSubscribeCacheItem :=
  if (item.newSubscribers.lookup r.app).isSome then
    { item with newSubscribers := item.newSubscribers.erase r.app }
  else { item with subscribers := item.subscribers.erase r.app }

/-- One request to change the session id.  It takes the place of the subscription, if there is
one. -/
def processChangeSessionIdRequest (item : GetAndSubscribeCacheItem) (r : GetRequest) :
    GetAndSubscribeCacheItem :=
  if (item.newSubscribers.lookup r.app).isSome then
    { item with newSubscribers := item.newSubscribers.insert r.app r }
  else if (item.subscribers.lookup r.app).isSome then
    { item with
      subscribers := item.subscribers.erase r.app
      newSubscribers := item.newSubscribers.insert r.app r }
  else item

/-- Both loops take the requests from the back of the vector. -/
def processRequests (item : GetAndSubscribeCacheItem) : GetAndSubscribeCacheItem :=
  let item' := item.unsubscribeRequestsToProcessMomentarily.foldr
    (fun r item => item.processUnsubscribeRequest r) item
  let item'' := item'.changeSessionIdRequestsToProcessMomentarily.foldr
    (fun r item => item.processChangeSessionIdRequest r) item'
  { item'' with
    unsubscribeRequestsToProcessMomentarily := []
    changeSessionIdRequestsToProcessMomentarily := [] }

/-- What becomes an old subscriber. -/
def makeOld (r : GetRequest) : Option GetRequest :=
  match r.getAndSubscribe with
  | .getAndSubscribeJustOne | .getAndSubscribeJustOneNext => none
  | _ => some r

/-- What stays a new subscriber. -/
def makeNext (r : GetRequest) : Option GetRequest :=
  match r.getAndSubscribe with
  | .getAndSubscribeJustOne => some { r with getAndSubscribe := .getAndSubscribeJustOneNext }
  | _ => none

/-- A poll that was started after `polledAt` requests has found a document. -/
def getCallback (item : GetAndSubscribeCacheItem) (document : String) (cas polledAt : ℕ) :
    GetAndSubscribeCacheItem × List Posted :=
  let item := item.processRequests
  let toNew := (values item.newSubscribers).filter (·.getAndSubscribe ≠ .getAndSubscribeJustOne)
  -- old subscribers are only told of a change
  let toOld := if item.documentCAS ≠ cas then values item.subscribers else []
  ({ item with
      currentlyFetchingPossiblyNew := false
      document := if item.documentCAS ≠ cas then document else item.document
      documentCAS := cas
      newSubscribers := filterMap makeNext item.newSubscribers
      subscribers := filterMap makeOld item.newSubscribers ∪ item.subscribers
      pollingTimeoutTimer := true },
    (toNew ++ toOld).map (·.respondWithCAS document cas (some polledAt)))

end GetAndSubscribeCacheItem

end Autobackup.CouchbaseBackend
