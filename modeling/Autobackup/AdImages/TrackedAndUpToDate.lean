import Autobackup.AdImages.SubscribeManager

/-!
# Subscribers are tracked and kept up to date

What is queued while the hash is iterated over is done afterwards, the subscriptions first.  Who
unsubscribes and subscribes again in that time is unsubscribed in the end.  A new ad that arrives
in that time is not posted to those the iteration has already come by, since `updateSubscribers`
returns when there is an iterator.

`Memory` is what keeps session infos from being used after they were deleted, `Tracking` says who is
subscribed, counting in what is queued.

Subscribers are sessions of the web server, and a message to one is a posted event, which is
delivered later or never.  An iteration tells ten subscribers and goes on after a timer of 30
milliseconds, so everything may happen between two parts of it.  Left out are the image itself and
the request for it; an ad is what its reply is turned into.
-/

namespace Autobackup.AdImages

namespace AdImageGetAndSubscribeManager

/-- No update is in progress, and none is called for. -/
def Quiet (st : AdImageGetAndSubscribeManager) : Prop :=
  st.stopping = false ∧ st.updateSubscribersHashIterator = none ∧ st.queuedUpdates = 0

/-- **Subscribers are tracked and kept up to date.**

Who is subscribed is known from the calls that were made, and what was posted from the messages.
Being up to date is asked for only when nothing is queued and no iteration is going on. -/
structure TrackedAndUpToDate (st : AdImageGetAndSubscribeManager) : Prop where
  intact : st.usedAfterDeletion = false
  /-- The subscribers are those whose last call was `getAndSubscribe`, with what they gave then. -/
  tracked : st.Quiet → ∀ identifier,
    (st.subscribers.lookup identifier).map (·.subscription) = st.lastCall identifier
  upToDate : st.Quiet → ∀ identifier subscription, st.lastCall identifier = some subscription →
    st.lastPosted subscription = some st.currentAd

/-- Each identifier subscribes and unsubscribes in turn.  It is a promise of the callers, who have
one subscription at a time. -/
def Alternates (st : AdImageGetAndSubscribeManager) : Event → Prop
  | .getAndSubscribe identifier _ => st.lastCall identifier = none
  | .unsubscribe identifier => (st.lastCall identifier).isSome
  | _ => True

instance (st : AdImageGetAndSubscribeManager) (x : Event) : Decidable (st.Alternates x) := by
  unfold Alternates
  split <;> infer_instance

/-- The condition: nobody subscribes whose unsubscription is queued; and when `updateSubscribers` is
called during an iteration, all who are subscribed have been posted the current ad or are still to
come. -/
def ReachesEveryone (st : AdImageGetAndSubscribeManager) : Event → Prop
  | .getAndSubscribe identifier _ =>
      st.stopping = false → identifier ∉ st.queuedUnsubscriptionRequests
  | .updateSubscribers _ =>
      st.queuedUpdates ≠ 0 → ∀ rest ∈ st.updateSubscribersHashIterator,
        ∀ identifier subscription, st.lastCall identifier = some subscription →
          st.lastPosted subscription = some st.currentAd ∨
            ∃ sessionInfo ∈ rest, sessionInfo.subscription = subscription
  | _ => True

/-! ## What holds in every state -/

/-- A session info that is still to be used. -/
def Held (st : AdImageGetAndSubscribeManager) (identifier : Identifier)
    (sessionInfo : AdImageSubscriberSessionInfo) : Prop :=
  st.subscribers.lookup identifier = some sessionInfo ∨
    st.queuedSubscriptionRequests.lookup identifier = some sessionInfo

structure Memory (st : AdImageGetAndSubscribeManager) : Prop where
  intact : st.usedAfterDeletion = false
  live : ∀ identifier sessionInfo, st.Held identifier sessionInfo →
    sessionInfo.address < st.made ∧ sessionInfo.address ∉ st.deleted
  made : ∀ address ∈ st.deleted, address < st.made
  single : ∀ identifier sessionInfo other otherInfo, st.Held identifier sessionInfo →
    st.Held other otherInfo → sessionInfo.address = otherInfo.address → identifier = other
  iterated : ∀ rest ∈ st.updateSubscribersHashIterator, ∀ sessionInfo ∈ rest,
    ∃ identifier, st.subscribers.lookup identifier = some sessionInfo
  /-- A subscription is queued of those only that have none. -/
  new : ∀ identifier ∈ st.queuedSubscriptionRequests, identifier ∉ st.subscribers

/-- Who is subscribed, once `queued` have been unsubscribed. -/
def Wanted (st : AdImageGetAndSubscribeManager) (queued : List Identifier) : Prop :=
  ∀ identifier subscription, st.lastCall identifier = some subscription ↔ identifier ∉ queued ∧
    ∃ sessionInfo, st.Held identifier sessionInfo ∧ sessionInfo.subscription = subscription

structure Tracking (st : AdImageGetAndSubscribeManager) : Prop where
  idle : st.updateSubscribersHashIterator = none →
    st.queuedSubscriptionRequests = ∅ ∧ st.queuedUnsubscriptionRequests = []
  wanted : st.Wanted st.queuedUnsubscriptionRequests
  upToDate : st.queuedUpdates = 0 → ∀ identifier subscription,
    st.lastCall identifier = some subscription → st.lastPosted subscription = some st.currentAd ∨
      ∃ rest ∈ st.updateSubscribersHashIterator,
        ∃ sessionInfo ∈ rest, sessionInfo.subscription = subscription

structure Good (st : AdImageGetAndSubscribeManager) : Prop where
  memory : st.Memory
  tracking : st.stopping = false → st.Tracking

variable {st : AdImageGetAndSubscribeManager} {identifier : Identifier}
  {subscription : Subscription}

lemma Good.trackedAndUpToDate (h : st.Good) : st.TrackedAndUpToDate := by
  refine ⟨h.memory.intact, fun ⟨hstopping, hidle, _⟩ identifier => ?_,
    fun ⟨hstopping, hidle, hnone⟩ identifier subscription hcall => ?_⟩
  · have htracking := h.tracking hstopping
    obtain ⟨hempty, hnil⟩ := htracking.idle hidle
    refine Option.ext fun subscription => ?_
    rw [htracking.wanted, hnil, Option.map_eq_some_iff]
    constructor
    · rintro ⟨sessionInfo, hlookup, rfl⟩
      exact ⟨List.not_mem_nil, sessionInfo, .inl hlookup, rfl⟩
    · rintro ⟨-, sessionInfo, hheld, rfl⟩
      refine ⟨sessionInfo, hheld.resolve_right fun hqueued => ?_, rfl⟩
      rw [hempty] at hqueued
      exact absurd hqueued (by simp)
  · rcases (h.tracking hstopping).upToDate hnone identifier subscription hcall with hposted | hrest
    · exact hposted
    · obtain ⟨rest, hrest, -⟩ := hrest
      rw [hidle] at hrest
      cases hrest

/-! ## One subscriber less -/

lemma takeAndDelete_of_none (h : st.subscribers.lookup identifier = none) :
    st.takeAndDelete identifier = st := by
  rw [takeAndDelete, h]

lemma takeAndDelete_of_some {sessionInfo : AdImageSubscriberSessionInfo}
    (h : st.subscribers.lookup identifier = some sessionInfo) :
    st.takeAndDelete identifier =
      { st with
        subscribers := st.subscribers.erase identifier
        deleted := sessionInfo.address :: st.deleted
        usedAfterDeletion := st.usedAfterDeletion || sessionInfo.address ∈ st.deleted } := by
  rw [takeAndDelete, h]

lemma held_takeAndDelete (hnot : identifier ∉ st.queuedSubscriptionRequests)
    {other : Identifier} {sessionInfo : AdImageSubscriberSessionInfo} :
    (st.takeAndDelete identifier).Held other sessionInfo ↔
      other ≠ identifier ∧ st.Held other sessionInfo := by
  have hqueued (heq : other = identifier) :
      st.queuedSubscriptionRequests.lookup other ≠ some sessionInfo := by
    rw [heq, AList.lookup_eq_none.2 hnot]
    simp
  cases hlookup : st.subscribers.lookup identifier with
  | none =>
      rw [takeAndDelete_of_none hlookup]
      refine ⟨fun hheld => ⟨?_, hheld⟩, And.right⟩
      rintro rfl
      rcases hheld with hheld | hheld
      · rw [hlookup] at hheld
        cases hheld
      · exact hqueued rfl hheld
  | some taken =>
      rw [takeAndDelete_of_some hlookup]
      unfold Held
      dsimp only
      by_cases heq : other = identifier
      · rw [heq, AList.lookup_erase]
        subst heq
        simp [hqueued rfl]
      · rw [AList.lookup_erase_ne heq, and_iff_right heq]

/-- **A session info is deleted** when nobody else has it. -/
lemma Memory.takeAndDelete (h : st.Memory) (hidle : st.updateSubscribersHashIterator = none)
    (identifier : Identifier) : (st.takeAndDelete identifier).Memory := by
  cases hlookup : st.subscribers.lookup identifier with
  | none =>
      rw [takeAndDelete_of_none hlookup]
      exact h
  | some taken =>
      have hnot : identifier ∉ st.queuedSubscriptionRequests := fun hqueued =>
        h.new identifier hqueued (AList.lookup_isSome.1 (by rw [hlookup]; rfl))
      have htaken := h.live identifier taken (.inl hlookup)
      have hbefore {other sessionInfo}
          (hheld : (st.takeAndDelete identifier).Held other sessionInfo) :=
        (held_takeAndDelete hnot).1 hheld
      constructor
      case intact =>
        rw [takeAndDelete_of_some hlookup]
        simpa [h.intact] using htaken.2
      case live =>
        intro other sessionInfo hheld
        obtain ⟨hne, hheld⟩ := hbefore hheld
        obtain ⟨hmade, hdeleted⟩ := h.live other sessionInfo hheld
        rw [takeAndDelete_of_some hlookup]
        refine ⟨hmade, fun hmem => ?_⟩
        rcases List.mem_cons.1 hmem with heq | hmem
        · exact hne (h.single _ _ _ _ hheld (.inl hlookup) heq)
        · exact hdeleted hmem
      case made =>
        rw [takeAndDelete_of_some hlookup]
        exact List.forall_mem_cons.2 ⟨htaken.1, h.made⟩
      case single =>
        intro one oneInfo other otherInfo hone hother
        exact h.single _ _ _ _ (hbefore hone).2 (hbefore hother).2
      case iterated =>
        rw [takeAndDelete_of_some hlookup]
        simp [hidle]
      case new =>
        rw [takeAndDelete_of_some hlookup]
        intro other hother hmem
        exact h.new other hother (AList.mem_erase.1 hmem).2

/-- Nothing else is changed by it. -/
lemma takeAndDelete_eq (st : AdImageGetAndSubscribeManager) (identifier : Identifier) :
    ∃ subscribers deleted usedAfterDeletion, st.takeAndDelete identifier =
      { st with
        subscribers := subscribers
        deleted := deleted
        usedAfterDeletion := usedAfterDeletion } := by
  unfold takeAndDelete
  split
  · exact ⟨_, _, _, rfl⟩
  · exact ⟨_, _, _, rfl⟩

/-- **The unsubscriptions that were queued.** -/
lemma foldl_takeAndDelete {queued : List Identifier} (hmemory : st.Memory)
    (hidle : st.updateSubscribersHashIterator = none)
    (hempty : st.queuedSubscriptionRequests = ∅) (hwanted : st.Wanted queued) :
    (queued.foldl takeAndDelete st).Memory ∧ (queued.foldl takeAndDelete st).Wanted [] ∧
      ∃ subscribers deleted usedAfterDeletion, queued.foldl takeAndDelete st =
        { st with
          subscribers := subscribers
          deleted := deleted
          usedAfterDeletion := usedAfterDeletion } := by
  induction queued generalizing st with
  | nil => exact ⟨hmemory, hwanted, _, _, _, rfl⟩
  | cons identifier queued ih =>
      have hnot : identifier ∉ st.queuedSubscriptionRequests := by simp [hempty]
      obtain ⟨subscribers, deleted, used, heq⟩ := takeAndDelete_eq st identifier
      have hnext : (st.takeAndDelete identifier).Wanted queued := by
        intro other subscription
        have hcalls : (st.takeAndDelete identifier).lastCall = st.lastCall := by rw [heq]
        rw [hcalls, hwanted, List.mem_cons, not_or]
        constructor
        · rintro ⟨⟨hne, hqueued⟩, sessionInfo, hheld, hsubscription⟩
          exact ⟨hqueued, sessionInfo, (held_takeAndDelete hnot).2 ⟨hne, hheld⟩, hsubscription⟩
        · rintro ⟨hqueued, sessionInfo, hheld, hsubscription⟩
          obtain ⟨hne, hheld⟩ := (held_takeAndDelete hnot).1 hheld
          exact ⟨⟨hne, hqueued⟩, sessionInfo, hheld, hsubscription⟩
      have hlater := ih (hmemory.takeAndDelete hidle identifier) (by rw [heq]; exact hidle)
        (by rw [heq]; exact hempty) hnext
      obtain ⟨hmemory', hwanted', subscribers', deleted', used', heq'⟩ := hlater
      refine ⟨hmemory', hwanted', subscribers', deleted', used', ?_⟩
      rw [List.foldl_cons, heq', heq]

/-! ## An iteration -/

/-- The state in which the unsubscriptions that were queued are done. -/
def merged (st : AdImageGetAndSubscribeManager) : AdImageGetAndSubscribeManager :=
  { st with
    updateSubscribersHashIterator := none
    subscribers := st.queuedSubscriptionRequests ∪ st.subscribers
    queuedSubscriptionRequests := ∅ }

lemma Memory.held_merged (h : st.Memory) {sessionInfo : AdImageSubscriberSessionInfo} :
    st.merged.Held identifier sessionInfo ↔ st.Held identifier sessionInfo := by
  have hmerged : st.merged.Held identifier sessionInfo ↔
      (st.queuedSubscriptionRequests ∪ st.subscribers).lookup identifier = some sessionInfo := by
    refine or_iff_left ?_
    simp [merged]
  rw [hmerged, AssociationList.lookup_union, Held]
  by_cases hqueued : identifier ∈ st.queuedSubscriptionRequests
  · obtain ⟨queued, hlookup⟩ := Option.isSome_iff_exists.1 (AList.lookup_isSome.2 hqueued)
    rw [hlookup, Option.some_or, AList.lookup_eq_none.2 (h.new identifier hqueued)]
    simp
  · rw [AList.lookup_eq_none.2 hqueued, Option.none_or]
    simp

lemma Memory.merged (h : st.Memory) : st.merged.Memory where
  intact := h.intact
  live := fun identifier sessionInfo hheld => h.live identifier sessionInfo (h.held_merged.1 hheld)
  made := h.made
  single := fun _ _ _ _ hone hother => h.single _ _ _ _ (h.held_merged.1 hone)
    (h.held_merged.1 hother)
  iterated := fun rest hrest => absurd hrest (by simp [AdImageGetAndSubscribeManager.merged])
  new := fun identifier hmem => absurd hmem (by simp [AdImageGetAndSubscribeManager.merged])

/-- **An iteration ends**, and what was queued is done. -/
lemma Good.finishUpdating (h : st.Good) (hstopping : st.stopping = false)
    (hend : st.updateSubscribersHashIterator = some []) : st.finishUpdating.Good := by
  have htracking := h.tracking hstopping
  have hwanted : st.merged.Wanted st.queuedUnsubscriptionRequests := by
    intro identifier subscription
    refine (htracking.wanted identifier subscription).trans (and_congr_right fun _ => ?_)
    exact exists_congr fun sessionInfo => and_congr_left fun _ => h.memory.held_merged.symm
  obtain ⟨hmemory, hwanted', subscribers, deleted, used, heq⟩ :=
    foldl_takeAndDelete h.memory.merged rfl rfl hwanted
  have hfinish : st.finishUpdating =
      { st.queuedUnsubscriptionRequests.foldl AdImageGetAndSubscribeManager.takeAndDelete
          st.merged with queuedUnsubscriptionRequests := [] } := rfl
  rw [hfinish]
  rw [heq] at hmemory hwanted' ⊢
  refine ⟨⟨hmemory.intact, hmemory.live, hmemory.made, hmemory.single, hmemory.iterated,
    hmemory.new⟩, fun _ => ⟨fun _ => ⟨rfl, rfl⟩, hwanted', ?_⟩⟩
  intro hnone identifier subscription hcall
  -- nobody is still to come
  refine (htracking.upToDate hnone identifier subscription hcall).imp_right ?_
  rintro ⟨rest, hrest, sessionInfo, hmem, -⟩
  rw [hend, Option.mem_some_iff] at hrest
  rw [← hrest] at hmem
  cases hmem

/-- A subscriber is posted to. -/
lemma Good.next (h : st.Good) (hstopping : st.stopping = false)
    {sessionInfo : AdImageSubscriberSessionInfo} {rest : List AdImageSubscriberSessionInfo}
    (hiterator : st.updateSubscribersHashIterator = some (sessionInfo :: rest)) :
    Good { st.post sessionInfo.subscription with
      updateSubscribersHashIterator := some rest
      usedAfterDeletion := st.usedAfterDeletion || sessionInfo.address ∈ st.deleted } := by
  have hiterated := h.memory.iterated _ hiterator
  have htracking := h.tracking hstopping
  obtain ⟨identifier, hlookup⟩ := hiterated sessionInfo List.mem_cons_self
  have hlive := h.memory.live identifier sessionInfo (.inl hlookup)
  refine ⟨⟨?_, h.memory.live, h.memory.made, h.memory.single, fun rest' hrest => ?_, h.memory.new⟩,
    fun _ => ⟨fun hnone => ?_, htracking.wanted, fun hnone other subscription hcall => ?_⟩⟩
  · simpa [h.memory.intact] using hlive.2
  · obtain rfl := Option.some.inj hrest
    exact fun info hinfo => hiterated info (List.mem_cons_of_mem _ hinfo)
  · cases hnone
  · by_cases heq : subscription = sessionInfo.subscription
    · refine .inl ?_
      show Function.update st.lastPosted _ _ subscription = _
      rw [heq, Function.update_self]
      rfl
    · rcases htracking.upToDate hnone other subscription hcall with
        hposted | ⟨rest', hrest, info, hmem, rfl⟩
      · refine .inl ?_
        show Function.update st.lastPosted _ _ subscription = _
        rw [Function.update_of_ne heq, hposted]
        rfl
      · rw [hiterator] at hrest
        obtain rfl := Option.some.inj hrest
        rcases List.mem_cons.1 hmem with rfl | hmem
        · exact absurd rfl heq
        · exact .inr ⟨rest, rfl, info, hmem, rfl⟩

/-- **Up to ten subscribers are posted to.** -/
lemma Good.updateSome (h : st.Good) (hstopping : st.stopping = false) (left : ℕ) :
    (st.updateSome left).Good := by
  induction left generalizing st with
  | zero =>
      rw [AdImageGetAndSubscribeManager.updateSome]
      exact ⟨⟨h.memory.intact, h.memory.live, h.memory.made, h.memory.single, h.memory.iterated,
        h.memory.new⟩, fun _ => ⟨(h.tracking hstopping).idle, (h.tracking hstopping).wanted,
          (h.tracking hstopping).upToDate⟩⟩
  | succ left ih =>
      rw [AdImageGetAndSubscribeManager.updateSome]
      split
      · exact h
      · next hend => exact h.finishUpdating hstopping hend
      · next hiterator => exact ih (h.next hstopping hiterator) hstopping

lemma Good.updateTen (h : st.Good) : st.updateTenAndScheduleA30msTimeoutUntilAllEmpty.Good := by
  unfold updateTenAndScheduleA30msTimeoutUntilAllEmpty
  split
  · exact h
  · next hstopping => exact h.updateSome (Bool.eq_false_iff.2 hstopping) 10

/-- **A call of `updateSubscribers`**: an iteration begins, or one is on that reaches everyone. -/
lemma Good.updateSubscribers (h : st.Good) (order : List AdImageSubscriberSessionInfo)
    (hqueued : st.queuedUpdates ≠ 0) (hok : st.ReachesEveryone (.updateSubscribers order)) :
    ({ st with queuedUpdates := st.queuedUpdates - 1 }.updateSubscribers order).Good := by
  have hmemory : Memory { st with queuedUpdates := st.queuedUpdates - 1 } :=
    ⟨h.memory.intact, h.memory.live, h.memory.made, h.memory.single, h.memory.iterated,
      h.memory.new⟩
  unfold AdImageGetAndSubscribeManager.updateSubscribers
  split
  · next hstopping => exact ⟨hmemory, fun hnot => absurd (hstopping.symm.trans hnot) (by decide)⟩
  · next hstopping =>
      have htracking := h.tracking (Bool.eq_false_iff.2 hstopping)
      split
      · next hiterating =>
          refine ⟨hmemory, fun _ => ⟨htracking.idle, htracking.wanted, ?_⟩⟩
          intro _ identifier subscription hcall
          obtain ⟨rest, hrest⟩ := Option.isSome_iff_exists.1 hiterating
          refine (hok hqueued rest hrest identifier subscription hcall).imp_right ?_
          exact fun hcome => ⟨rest, hrest, hcome⟩
      · next hiterating =>
          have hidle : st.updateSubscribersHashIterator = none :=
            Option.not_isSome_iff_eq_none.1 hiterating
          have hmem (sessionInfo : AdImageSubscriberSessionInfo) : sessionInfo ∈
              (if order.Perm (AssociationList.values st.subscribers) then order
                else AssociationList.values st.subscribers) ↔
              ∃ identifier, st.subscribers.lookup identifier = some sessionInfo := by
            rw [← AssociationList.mem_values]
            split
            · next hperm => exact hperm.mem_iff
            · exact Iff.rfl
          refine Good.updateTen ⟨⟨hmemory.intact, hmemory.live, hmemory.made, hmemory.single, ?_,
            hmemory.new⟩, fun _ => ⟨fun hnone => ?_, htracking.wanted, ?_⟩⟩
          · intro rest hrest sessionInfo hinfo
            obtain rfl := Option.some.inj hrest
            exact (hmem sessionInfo).1 hinfo
          · cases hnone
          · intro _ identifier subscription hcall
            obtain ⟨-, sessionInfo, hheld, hsubscription⟩ :=
              (htracking.wanted identifier subscription).1 hcall
            have hlookup := hheld.resolve_right fun hlookup => by
              rw [(htracking.idle hidle).1] at hlookup
              simp at hlookup
            exact .inr ⟨_, rfl, sessionInfo, (hmem sessionInfo).2 ⟨identifier, hlookup⟩,
              hsubscription⟩

/-! ## The calls -/

/-- A session info that is new. -/
lemma Memory.insert (h : st.Memory) {sessionInfo : AdImageSubscriberSessionInfo}
    (haddress : sessionInfo.address = st.made) {st' : AdImageGetAndSubscribeManager}
    (hheld : ∀ other info, st'.Held other info ↔
      other = identifier ∧ info = sessionInfo ∨ st.Held other info)
    (hmade : st'.made = st.made + 1) (hdeleted : st'.deleted = st.deleted)
    (hintact : st'.usedAfterDeletion = st.usedAfterDeletion)
    (hfree : ∀ info, ¬ st.Held identifier info)
    (hiterated : ∀ rest ∈ st'.updateSubscribersHashIterator, ∀ info ∈ rest,
      ∃ other, st'.subscribers.lookup other = some info)
    (hnew : ∀ other ∈ st'.queuedSubscriptionRequests, other ∉ st'.subscribers) : st'.Memory := by
  have hfresh {other : Identifier} {info : AdImageSubscriberSessionInfo}
      (hother : st.Held other info) : info.address ≠ sessionInfo.address := fun heq => by
    have := (h.live other info hother).1
    omega
  refine ⟨hintact.trans h.intact, fun other info hother => ?_, fun address hmem => ?_,
    fun one oneInfo other otherInfo hone hother heq => ?_, hiterated, hnew⟩
  · rw [hmade, hdeleted]
    rcases (hheld other info).1 hother with ⟨rfl, rfl⟩ | hother
    · rw [haddress]
      exact ⟨Nat.lt_succ_self _, fun hmem => Nat.lt_irrefl _ (h.made _ hmem)⟩
    · obtain ⟨hlt, hnot⟩ := h.live other info hother
      exact ⟨Nat.lt_succ_of_lt hlt, hnot⟩
  · rw [hdeleted] at hmem
    rw [hmade]
    exact Nat.lt_succ_of_lt (h.made address hmem)
  · rcases (hheld one oneInfo).1 hone with ⟨rfl, rfl⟩ | hone <;>
      rcases (hheld other otherInfo).1 hother with ⟨rfl, rfl⟩ | hother
    · rfl
    · exact absurd heq.symm (hfresh hother)
    · exact absurd heq (hfresh hone)
    · exact h.single _ _ _ _ hone hother heq

/-- A subscription of somebody who has none. -/
lemma Tracking.insert (h : st.Tracking) {sessionInfo : AdImageSubscriberSessionInfo}
    {st' : AdImageGetAndSubscribeManager}
    (hheld : ∀ other info, st'.Held other info ↔
      other = identifier ∧ info = sessionInfo ∨ st.Held other info)
    (hfree : ∀ info, ¬ st.Held identifier info)
    (hnot : identifier ∉ st.queuedUnsubscriptionRequests)
    (hunsubscriptions : st'.queuedUnsubscriptionRequests = st.queuedUnsubscriptionRequests)
    (hiterator : st'.updateSubscribersHashIterator = st.updateSubscribersHashIterator)
    (hupdates : st'.queuedUpdates = st.queuedUpdates) (had : st'.currentAd = st.currentAd)
    (hcalls : st'.lastCall = Function.update st.lastCall identifier sessionInfo.subscription)
    (hposted : st'.lastPosted =
      Function.update st.lastPosted sessionInfo.subscription (some st.currentAd))
    (hidle : st.updateSubscribersHashIterator = none → st'.queuedSubscriptionRequests = ∅) :
    st'.Tracking := by
  constructor
  case idle =>
    rw [hiterator, hunsubscriptions]
    exact fun hnone => ⟨hidle hnone, (h.idle hnone).2⟩
  case wanted =>
    intro other subscription
    rw [hcalls, hunsubscriptions]
    by_cases heq : other = identifier
    · subst heq
      rw [Function.update_self, Option.some_inj]
      constructor
      · rintro rfl
        exact ⟨hnot, sessionInfo, (hheld _ _).2 (.inl ⟨rfl, rfl⟩), rfl⟩
      · rintro ⟨-, info, hinfo, rfl⟩
        rcases (hheld _ _).1 hinfo with ⟨-, rfl⟩ | hinfo
        · rfl
        · exact absurd hinfo (hfree info)
    · rw [Function.update_of_ne heq, h.wanted]
      refine and_congr_right fun _ => exists_congr fun info => and_congr_left fun _ => ?_
      rw [hheld, or_iff_right fun hnew => heq hnew.1]
  case upToDate =>
    intro hnone other subscription hcall
    rw [hposted, had, hiterator]
    by_cases hsame : subscription = sessionInfo.subscription
    · rw [hsame, Function.update_self]
      exact .inl rfl
    · rw [Function.update_of_ne hsame]
      rw [hcalls] at hcall
      by_cases heq : other = identifier
      · rw [heq, Function.update_self] at hcall
        exact absurd (Option.some.inj hcall).symm hsame
      · rw [Function.update_of_ne heq] at hcall
        exact h.upToDate (hupdates ▸ hnone) other subscription hcall

/-- **A subscription**, or one that is queued. -/
lemma Good.getAndSubscribe (h : st.Good)
    (halternates : st.Alternates (.getAndSubscribe identifier subscription))
    (hok : st.ReachesEveryone (.getAndSubscribe identifier subscription)) :
    (st.step (.getAndSubscribe identifier subscription)).Good := by
  unfold step
  dsimp only
  unfold AdImageGetAndSubscribeManager.getAndSubscribe
  split
  · next hstopping =>
      exact ⟨⟨h.memory.intact, h.memory.live, h.memory.made, h.memory.single, h.memory.iterated,
        h.memory.new⟩, fun hnot => absurd (hstopping.symm.trans hnot) (by decide)⟩
  · next hstopping =>
      have htracking := h.tracking (Bool.eq_false_iff.2 hstopping)
      have hnotQueued := hok (Bool.eq_false_iff.2 hstopping)
      have hfree (info : AdImageSubscriberSessionInfo) : ¬ st.Held identifier info := by
        intro hheld
        have hcall := (htracking.wanted identifier _).2 ⟨hnotQueued, info, hheld, rfl⟩
        rw [halternates] at hcall
        cases hcall
      have hnone : st.subscribers.lookup identifier = none := by
        refine Option.eq_none_iff_forall_not_mem.2 fun info hinfo => hfree info (.inl hinfo)
      have hnoneQueued : st.queuedSubscriptionRequests.lookup identifier = none := by
        refine Option.eq_none_iff_forall_not_mem.2 fun info hinfo => hfree info (.inr hinfo)
      dsimp only [post]
      split
      · next hiterating =>
          have hheld (other : Identifier) (info : AdImageSubscriberSessionInfo) :
              st.subscribers.lookup other = some info ∨
                  (st.queuedSubscriptionRequests.insert identifier
                    ⟨st.made, subscription⟩).lookup other = some info ↔
                other = identifier ∧ info = ⟨st.made, subscription⟩ ∨ st.Held other info := by
            rw [AssociationList.lookup_insert_iff hnoneQueued]
            exact or_left_comm
          refine ⟨h.memory.insert rfl hheld rfl rfl rfl hfree h.memory.iterated ?_,
            fun _ => htracking.insert hheld hfree hnotQueued rfl rfl rfl rfl rfl rfl ?_⟩
          · intro other hother
            rcases (AList.mem_insert _).1 hother with rfl | hother
            · exact AList.lookup_eq_none.1 hnone
            · exact h.memory.new other hother
          · intro hidle
            rw [hidle] at hiterating
            cases hiterating
      · next hiterating =>
          have hidle : st.updateSubscribersHashIterator = none :=
            Option.not_isSome_iff_eq_none.1 hiterating
          have hempty := (htracking.idle hidle).1
          have hheld (other : Identifier) (info : AdImageSubscriberSessionInfo) :
              (st.subscribers.insert identifier ⟨st.made, subscription⟩).lookup other = some info ∨
                  st.queuedSubscriptionRequests.lookup other = some info ↔
                other = identifier ∧ info = ⟨st.made, subscription⟩ ∨ st.Held other info := by
            rw [AssociationList.lookup_insert_iff hnone]
            exact or_assoc
          refine ⟨h.memory.insert rfl hheld rfl rfl rfl hfree ?_ ?_,
            fun _ => htracking.insert hheld hfree hnotQueued rfl rfl rfl rfl rfl rfl ?_⟩
          · intro rest hrest
            rw [show st.updateSubscribersHashIterator = none from hidle] at hrest
            cases hrest
          · intro other hother
            rw [show st.queuedSubscriptionRequests = ∅ from hempty] at hother
            exact absurd hother (by simp)
          · exact fun _ => hempty

/-- **An unsubscription**, or one that is queued. -/
lemma Good.unsubscribe (h : st.Good) : (st.step (.unsubscribe identifier)).Good := by
  unfold step
  dsimp only
  unfold AdImageGetAndSubscribeManager.unsubscribe
  split
  · next hiterating =>
      refine ⟨⟨h.memory.intact, h.memory.live, h.memory.made, h.memory.single, h.memory.iterated,
        h.memory.new⟩, fun hstopping => ⟨fun hnone => ?_, fun other subscription => ?_,
          fun hnone other subscription hcall => ?_⟩⟩
      · dsimp only at hnone
        rw [hnone] at hiterating
        cases hiterating
      · have hwanted := (h.tracking hstopping).wanted other subscription
        by_cases heq : other = identifier
        · subst heq
          simp [Function.update_self]
        · show Function.update st.lastCall identifier none other = _ ↔ _
          rw [Function.update_of_ne heq, hwanted, List.mem_append, List.mem_singleton, not_or,
            and_iff_left heq]
          rfl
      · dsimp only at hcall
        by_cases heq : other = identifier
        · rw [heq, Function.update_self] at hcall
          cases hcall
        · rw [Function.update_of_ne heq] at hcall
          exact (h.tracking hstopping).upToDate hnone other subscription hcall
  · next hiterating =>
      have hidle : st.updateSubscribersHashIterator = none :=
        Option.not_isSome_iff_eq_none.1 hiterating
      have hmemory := h.memory.takeAndDelete hidle identifier
      obtain ⟨subscribers, deleted, used, heq⟩ := takeAndDelete_eq st identifier
      refine ⟨⟨hmemory.intact, hmemory.live, hmemory.made, hmemory.single, hmemory.iterated,
        hmemory.new⟩, fun hstopping => ?_⟩
      have htracking := h.tracking (by rw [heq] at hstopping; exact hstopping)
      obtain ⟨hempty, hnil⟩ := htracking.idle hidle
      have hnot : identifier ∉ st.queuedSubscriptionRequests := by simp [hempty]
      have hwanted (other : Identifier) (subscription : Subscription) :
          Function.update st.lastCall identifier none other = some subscription ↔ other ∉ [] ∧
            ∃ sessionInfo, (st.takeAndDelete identifier).Held other sessionInfo ∧
              sessionInfo.subscription = subscription := by
        by_cases hsame : other = identifier
        · subst hsame
          simp [held_takeAndDelete hnot]
        · rw [Function.update_of_ne hsame, htracking.wanted, hnil]
          simp [held_takeAndDelete hnot, hsame]
      rw [heq] at hwanted ⊢
      refine ⟨fun _ => ⟨hempty, hnil⟩, ?_, fun hnone other subscription hcall => ?_⟩
      · intro other subscription
        rw [show st.queuedUnsubscriptionRequests = [] from hnil]
        exact hwanted other subscription
      · dsimp only at hcall
        by_cases hsame : other = identifier
        · rw [hsame, Function.update_self] at hcall
          cases hcall
        · rw [Function.update_of_ne hsame] at hcall
          exact htracking.upToDate hnone other subscription hcall

/-- A new ad, or none: everyone is going to be updated. -/
lemma Good.replied (h : st.Good) (reply : Option (String × String)) :
    (st.handleNetworkRequestRepliedTo reply).Good := by
  cases reply with
  | none =>
      rw [handleNetworkRequestRepliedTo]
      split
      · exact h
      · exact ⟨⟨h.memory.intact, h.memory.live, h.memory.made, h.memory.single, h.memory.iterated,
          h.memory.new⟩, fun hstopping => ⟨(h.tracking hstopping).idle,
            (h.tracking hstopping).wanted, fun hnone => absurd hnone (Nat.succ_ne_zero _)⟩⟩
  | some ad =>
      rw [handleNetworkRequestRepliedTo]
      split
      · exact h
      · exact ⟨⟨h.memory.intact, h.memory.live, h.memory.made, h.memory.single, h.memory.iterated,
          h.memory.new⟩, fun hstopping => ⟨(h.tracking hstopping).idle,
            (h.tracking hstopping).wanted, fun hnone => absurd hnone (Nat.succ_ne_zero _)⟩⟩

/-- **A step.** -/
lemma Good.step (h : st.Good) {x : Event} (halternates : st.Alternates x)
    (hok : st.ReachesEveryone x) : (st.step x).Good := by
  cases x with
  | getAndSubscribe identifier subscription => exact h.getAndSubscribe halternates hok
  | unsubscribe identifier => exact h.unsubscribe
  | networkRequestRepliedTo reply => exact h.replied reply
  | updateSubscribers order =>
      rw [AdImageGetAndSubscribeManager.step]
      split
      · exact h
      · next hqueued => exact h.updateSubscribers order hqueued hok
  | batchTimerTimedOut =>
      rw [AdImageGetAndSubscribeManager.step]
      split
      · exact h
      · refine Good.updateTen ⟨⟨h.memory.intact, h.memory.live, h.memory.made, h.memory.single,
          h.memory.iterated, h.memory.new⟩, fun hstopping => ?_⟩
        exact ⟨(h.tracking hstopping).idle, (h.tracking hstopping).wanted,
          (h.tracking hstopping).upToDate⟩
  | beginStopping =>
      refine ⟨⟨h.memory.intact, h.memory.live, h.memory.made, h.memory.single,
        fun rest hrest => ?_, h.memory.new⟩, fun hstopping => ?_⟩
      · cases hrest
      · cases hstopping

lemma good_start : start.Good where
  memory := {
    intact := rfl
    live := fun _ _ hheld => by cases hheld <;> contradiction
    made := by simp [start]
    single := fun _ _ _ _ hheld => by cases hheld <;> contradiction
    iterated := by simp [start]
    new := by simp [start] }
  tracking := fun _ => {
    idle := fun _ => ⟨rfl, rfl⟩
    wanted := fun identifier subscription => by simp [start, Held]
    upToDate := by simp [start] }

/-! ## The run -/

/-- **The subscribers are tracked and kept up to date** in every run that meets the condition.

The first condition is about the callers, who subscribe and unsubscribe by turns; the second one
leaves out the two ways in which a subscriber misses an ad or is dropped by an unsubscription that
was meant for the subscription before. -/
theorem trackedAndUpToDate_of_reachesEveryone {events : List Event}
    (halternates : Machine.StaysWithin step Alternates start events)
    (hok : Machine.StaysWithin step ReachesEveryone start events) :
    Machine.HoldsThroughout step TrackedAndUpToDate start events := by
  have hgood : Machine.HoldsThroughout step Good start events := by
    refine Machine.holdsThroughout_of_staysWithin ?_ good_start (halternates.and hok)
    exact fun st x h hx => h.step hx.1 hx.2
  exact hgood.imp fun st h => h.trackedAndUpToDate

/-! ## Twelve subscribers -/

/-- The condition in terms of the session infos that there are. -/
def ReachesHeld (st : AdImageGetAndSubscribeManager) : Event → Prop
  | .getAndSubscribe identifier _ => identifier ∉ st.queuedUnsubscriptionRequests
  | .updateSubscribers _ => ∀ rest ∈ st.updateSubscribersHashIterator, st.stopping = false ∧
      ∀ sessionInfo ∈ AssociationList.values st.subscribers ++
          AssociationList.values st.queuedSubscriptionRequests,
        st.lastPosted sessionInfo.subscription = some st.currentAd ∨ sessionInfo ∈ rest
  | _ => True

instance (st : AdImageGetAndSubscribeManager) (x : Event) : Decidable (st.ReachesHeld x) := by
  unfold ReachesHeld
  split <;> infer_instance

lemma Good.reachesEveryone (h : st.Good) {x : Event} (hx : st.ReachesHeld x) :
    st.ReachesEveryone x := by
  cases x with
  | getAndSubscribe identifier subscription => exact fun _ => hx
  | updateSubscribers order =>
      intro _ rest hrest identifier subscription hcall
      obtain ⟨hstopping, hall⟩ := hx rest hrest
      obtain ⟨-, sessionInfo, hheld, rfl⟩ := ((h.tracking hstopping).wanted _ _).1 hcall
      have hmem : sessionInfo ∈ AssociationList.values st.subscribers ++
          AssociationList.values st.queuedSubscriptionRequests := by
        rw [List.mem_append, AssociationList.mem_values, AssociationList.mem_values]
        exact hheld.imp (fun h => ⟨identifier, h⟩) fun h => ⟨identifier, h⟩
      exact (hall sessionInfo hmem).imp_right fun hin => ⟨sessionInfo, hin, rfl⟩
  | _ => trivial

/-- Twelve subscribe, and ten of them have got the second ad when one leaves, another one comes and
`updateSubscribers` is called for a second time.  At the end the ad server has no ad, somebody
leaves and another one comes again. -/
def twelveSubscribers : List Event :=
  (List.range 12).map (fun identifier => .getAndSubscribe identifier ⟨"session", identifier⟩) ++
    [.networkRequestRepliedTo (some ("url", "text")),
      .networkRequestRepliedTo (some ("next url", "next text")), .updateSubscribers [],
      .unsubscribe 3, .getAndSubscribe 12 ⟨"session", 12⟩, .updateSubscribers [],
      .batchTimerTimedOut, .networkRequestRepliedTo none, .updateSubscribers [],
      .batchTimerTimedOut, .unsubscribe 0, .getAndSubscribe 3 ⟨"next session", 3⟩]

theorem trackedAndUpToDate_twelveSubscribers :
    (Machine.run step start twelveSubscribers).lastPosted ⟨"session", 11⟩ =
        some ⟨2, "n", "next text"⟩ ∧
      Machine.HoldsThroughout step TrackedAndUpToDate start twelveSubscribers := by
  have halternates : Machine.StaysWithin step Alternates start twelveSubscribers := by
    decide +kernel
  have hheld : Machine.StaysWithin step ReachesHeld start twelveSubscribers := by decide +kernel
  have hok : Machine.StaysWithin step ReachesEveryone start twelveSubscribers :=
    (halternates.and hheld).imp (fun st x h hx => h.step hx.1 (h.reachesEveryone hx.2))
      (fun st x h hx => h.reachesEveryone hx.2) good_start
  exact ⟨by decide +kernel, trackedAndUpToDate_of_reachesEveryone halternates hok⟩

/-- Ten subscribers, who are posted to, and before that is over one of them comes again. -/
def comesAgain : List Event :=
  (List.range 10).map (fun identifier => .getAndSubscribe identifier ⟨"session", identifier⟩) ++
    [.networkRequestRepliedTo (some ("url", "text")), .updateSubscribers [],
      .unsubscribe 0, .getAndSubscribe 0 ⟨"next session", 0⟩, .batchTimerTimedOut]

/-- Who comes again is taken out. -/
theorem not_trackedAndUpToDate : ¬ ∀ events, Machine.StaysWithin step Alternates start events →
    Machine.HoldsThroughout step TrackedAndUpToDate start events := by
  intro h
  have hend := (h comesAgain (by decide +kernel)).run
  have hquiet : (Machine.run step start comesAgain).Quiet := by
    unfold Quiet
    decide +kernel
  have htracked := hend.tracked hquiet 0
  revert htracked
  decide +kernel

end AdImageGetAndSubscribeManager
end Autobackup.AdImages
