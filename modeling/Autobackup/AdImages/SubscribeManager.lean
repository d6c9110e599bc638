import Autobackup.Foundation.AssociationList
import Autobackup.Foundation.Machine
import Mathlib.Logic.Function.Basic

/-!
# Getting ad images and subscribing to them

`AdImageGetAndSubscribeManager` posts the current ad to whoever subscribes, and a new one to all
subscribers, ten at a time.  While it does, the hash that it iterates over is left alone:
subscriptions and unsubscriptions are queued until it is done.

The session infos are on the heap, and each is known by how many were made before it.  In which
order a hash is iterated over is up to the hash.
-/

namespace Autobackup.AdImages

/-- An `AdImageSubscriberIdentifier*`. -/
abbrev Identifier := ℕ

/-- The session id and the callback that a subscriber is posted to. -/
structure Subscription where
  sessionId : String
  getAndSubscriptionUpdateCallback : ℕ
  deriving DecidableEq

structure AdImageSubscriberSessionInfo where
  address : ℕ
  subscription : Subscription
  deriving DecidableEq

/-- What is posted. -/
structure Ad where
  /-- The resource of the image, or zero. -/
  image : ℕ
  url : String
  altAndHover : String
  deriving DecidableEq

abbrev SubscriberHash := AList fun _ : Identifier => AdImageSubscriberSessionInfo

structure AdImageGetAndSubscribeManager where
  subscribers : SubscriberHash := ∅
  currentAd : Ad := ⟨0, "n", ""⟩
  stopping : Bool := false
  currentlyShowingNoAdPlaceholder : Bool := true
  /-- What the iterator has not come to yet. -/
  updateSubscribersHashIterator : Option (List AdImageSubscriberSessionInfo) := none
  queuedSubscriptionRequests : SubscriberHash := ∅
  queuedUnsubscriptionRequests : List Identifier := []
  /-- How many session infos were made, and which of them were deleted. -/
  made : ℕ := 0
  deleted : List ℕ := []
  /-- One was used or deleted after that. -/
  usedAfterDeletion : Bool := false
  images : ℕ := 0
  /-- The calls of `updateSubscribers` in the event queue. -/
  queuedUpdates : ℕ := 0
  batchTimers : ℕ := 0
  /-- The last call of each identifier: what it subscribed with, or that it unsubscribed. -/
  lastCall : Identifier → Option Subscription := fun _ => none
  /-- What was last posted. -/
  lastPosted : Subscription → Option Ad := fun _ => none

namespace AdImageGetAndSubscribeManager

variable (st : AdImageGetAndSubscribeManager)

/-- `WServer::post`. -/
def post (subscription : Subscription) : AdImageGetAndSubscribeManager :=
  { st with lastPosted := Function.update st.lastPosted subscription (some st.currentAd) }

/-- `delete` of what `take` returns. -/
def takeAndDelete (identifier : Identifier) : AdImageGetAndSubscribeManager :=
  match st.subscribers.lookup identifier with
  | none => st
  | some sessionInfo =>
      { st with
        subscribers := st.subscribers.erase identifier
        deleted := sessionInfo.address :: st.deleted
        usedAfterDeletion := st.usedAfterDeletion || sessionInfo.address ∈ st.deleted }

def getAndSubscribe (identifier : Identifier) (subscription : Subscription) :
    AdImageGetAndSubscribeManager :=
  if st.stopping then st
  else
    let sessionInfo : AdImageSubscriberSessionInfo := ⟨st.made, subscription⟩
    let st := { st.post subscription with made := st.made + 1 }
    -- the hash is being iterated over
    if st.updateSubscribersHashIterator.isSome then
      { st with
        queuedSubscriptionRequests := st.queuedSubscriptionRequests.insert identifier sessionInfo }
    else { st with subscribers := st.subscribers.insert identifier sessionInfo }

def unsubscribe (identifier : Identifier) : AdImageGetAndSubscribeManager :=
  if st.updateSubscribersHashIterator.isSome then
    { st with
      queuedUnsubscriptionRequests := st.queuedUnsubscriptionRequests ++ [identifier] }
  else st.takeAndDelete identifier

def beginStopping : AdImageGetAndSubscribeManager :=
  { st with stopping := true, updateSubscribersHashIterator := none }

/-- The reply of the ad server: an error, or the url and the text of the new ad. -/
def handleNetworkRequestRepliedTo : Option (String × String) → AdImageGetAndSubscribeManager
  | none =>
      -- the placeholder is not shown twice
      if st.stopping ∨ st.currentlyShowingNoAdPlaceholder then st
      else
        { st with
          currentlyShowingNoAdPlaceholder := true
          currentAd := { st.currentAd with url := "n" }
          queuedUpdates := st.queuedUpdates + 1 }
  | some (url, altAndHover) =>
      if st.stopping then st
      else
        { st with
          currentlyShowingNoAdPlaceholder := false
          images := st.images + 1
          currentAd := ⟨st.images + 1, url, altAndHover⟩
          queuedUpdates := st.queuedUpdates + 1 }

/-- The iterator is at its end: what was queued is done now. -/
def finishUpdating : AdImageGetAndSubscribeManager :=
  let st := { st with
    updateSubscribersHashIterator := none
    subscribers := st.queuedSubscriptionRequests ∪ st.subscribers
    queuedSubscriptionRequests := ∅ }
  { st.queuedUnsubscriptionRequests.foldl takeAndDelete st with
    queuedUnsubscriptionRequests := [] }

/-- The loop of `updateTenAndScheduleA30msTimeoutUntilAllEmpty`, with what is left of the ten. -/
def updateSome (st : AdImageGetAndSubscribeManager) : ℕ → AdImageGetAndSubscribeManager
  | 0 => { st with batchTimers := st.batchTimers + 1 }
  | left + 1 =>
      match st.updateSubscribersHashIterator with
      | none => st
      | some [] => st.finishUpdating
      | some (sessionInfo :: rest) =>
          updateSome
            { st.post sessionInfo.subscription with
              updateSubscribersHashIterator := some rest
              usedAfterDeletion := st.usedAfterDeletion || sessionInfo.address ∈ st.deleted } left

def updateTenAndScheduleA30msTimeoutUntilAllEmpty : AdImageGetAndSubscribeManager :=
  if st.stopping then st else st.updateSome 10

/-- The hash is iterated over in the order that is given, if that is one. -/
def updateSubscribers (order : List AdImageSubscriberSessionInfo) :
    AdImageGetAndSubscribeManager :=
  if st.stopping then st
  -- the update before this one is not over, and this one is dropped
  else if st.updateSubscribersHashIterator.isSome then st
  else
    let sessionInfos := AssociationList.values st.subscribers
    { st with
      updateSubscribersHashIterator :=
        some (if order.Perm sessionInfos then order else sessionInfos)
    }.updateTenAndScheduleA30msTimeoutUntilAllEmpty

end AdImageGetAndSubscribeManager

inductive Event where
  | getAndSubscribe (identifier : Identifier) (subscription : Subscription)
  | unsubscribe (identifier : Identifier)
  | networkRequestRepliedTo (reply : Option (String × String))
  /-- A queued call of `updateSubscribers` is made. -/
  | updateSubscribers (order : List AdImageSubscriberSessionInfo)
  | batchTimerTimedOut
  | beginStopping

namespace AdImageGetAndSubscribeManager

/-- What the event loop of the manager does with one event.  A part of an iteration is an event too,
so that others may come between two parts. -/
def step (st : AdImageGetAndSubscribeManager) : Event → AdImageGetAndSubscribeManager
  | .getAndSubscribe identifier subscription =>
      { st.getAndSubscribe identifier subscription with
        lastCall := Function.update st.lastCall identifier (some subscription) }
  | .unsubscribe identifier =>
      { st.unsubscribe identifier with
        lastCall := Function.update st.lastCall identifier none }
  | .networkRequestRepliedTo reply => st.handleNetworkRequestRepliedTo reply
  | .updateSubscribers order =>
      if st.queuedUpdates = 0 then st
      else { st with queuedUpdates := st.queuedUpdates - 1 }.updateSubscribers order
  | .batchTimerTimedOut =>
      if st.batchTimers = 0 then st
      else
        { st with
          batchTimers := st.batchTimers - 1
        }.updateTenAndScheduleA30msTimeoutUntilAllEmpty
  | .beginStopping => st.beginStopping

/-- The manager after its construction. -/
def start : AdImageGetAndSubscribeManager := {}

end AdImageGetAndSubscribeManager
end Autobackup.AdImages
