import Mathlib
import Autobackup.Abc2.TodaysAdSlot

/-!
# The quota of the API

The counter in the cache document is read, incremented and stored back without a CAS, over several
round trips.  It counts right as long as no connection serves an ad while another one is between its
own response and its store, or after another one has stored since it read the cache itself
(`NotOvertaken`).

Then the responses of a campaign are in order: each is the next one for the same slot, or the first
one for a later slot.  What is stored are those responses, the last one perhaps not yet.

`NotOvertaken` is about the moments at which a connection responds and stores, and it does not
forbid that connections overlap: several may read the cache at once, as long as those that were
overtaken find the slot taken over, or leave.  What it forbids is the pair of a read and a store
around another connection's store, which is where a count is lost.
-/

namespace Autobackup.Abc2

/-! ## Responses in order -/

/-- The first response, or the one after `last`. -/
def FollowsOn : Option ApiResponse → ApiResponse → Prop
  | none, r => r.numApiRequestsForThisAdSlotSoFar = 1
  | some last, r =>
      r.slotIndex = last.slotIndex ∧
          r.numApiRequestsForThisAdSlotSoFar = last.numApiRequestsForThisAdSlotSoFar + 1 ∧
          r.numApiRequestsForThisAdSlotSoFar ≤ maxApiRequestsPerAdSlotDuration ∨
        last.slotIndex < r.slotIndex ∧ r.numApiRequestsForThisAdSlotSoFar = 1

inductive InOrder : List ApiResponse → Prop
  | nil : InOrder []
  | snoc {sent : List ApiResponse} {r : ApiResponse} :
      InOrder sent → FollowsOn sent.getLast? r → InOrder (sent ++ [r])

/-- How many of the responses are for the slot. -/
def numFor (slotIndex : ℕ) (sent : List ApiResponse) : ℕ :=
  sent.countP fun r => r.slotIndex = slotIndex

lemma numFor_snoc (slotIndex : ℕ) (sent : List ApiResponse) (r : ApiResponse) :
    numFor slotIndex (sent ++ [r]) =
      numFor slotIndex sent + if r.slotIndex = slotIndex then 1 else 0 := by
  simp [numFor, List.countP_append, List.countP_singleton]

/-- What the last response says about those before it. -/
structure LastCounts (sent : List ApiResponse) (last : ApiResponse) : Prop where
  here : numFor last.slotIndex sent ≤ last.numApiRequestsForThisAdSlotSoFar
  bound : last.numApiRequestsForThisAdSlotSoFar ≤ maxApiRequestsPerAdSlotDuration
  later : ∀ slotIndex, last.slotIndex < slotIndex → numFor slotIndex sent = 0

/-- Responses in order are counted right, and there are not too many of them. -/
theorem InOrder.numFor_le {sent : List ApiResponse} (h : InOrder sent) :
    (∀ slotIndex, numFor slotIndex sent ≤ maxApiRequestsPerAdSlotDuration) ∧
      ∀ last, sent.getLast? = some last → LastCounts sent last := by
  induction h with
  | nil => exact ⟨fun _ => Nat.zero_le _, fun last hlast => by simp at hlast⟩
  | @snoc sent r hsent hfollows ih =>
      obtain ⟨hbound, hlast⟩ := ih
      have hcounts : LastCounts (sent ++ [r]) r := by
        cases hsent' : sent.getLast? with
        | none =>
            obtain rfl := List.getLast?_eq_none_iff.1 hsent'
            have hone : r.numApiRequestsForThisAdSlotSoFar = 1 := by
              simpa [FollowsOn] using hfollows
            refine ⟨?_, ?_, fun slotIndex hlater => ?_⟩
            · rw [numFor_snoc, hone]
              simp [numFor]
            · rw [hone]
              decide
            · rw [numFor_snoc, if_neg (Nat.ne_of_lt hlater)]
              rfl
        | some last =>
            have hprevious := hlast last hsent'
            rw [hsent'] at hfollows
            rcases hfollows with ⟨hsame, hnext, hmax⟩ | ⟨hlater, hone⟩
            · refine ⟨?_, hmax, fun slotIndex hlt => ?_⟩
              · rw [numFor_snoc, if_pos rfl, hnext, hsame]
                exact Nat.succ_le_succ hprevious.here
              · rw [numFor_snoc, if_neg (Nat.ne_of_lt hlt), hprevious.later slotIndex (hsame ▸ hlt)]
            · refine ⟨?_, ?_, fun slotIndex hlt => ?_⟩
              · rw [numFor_snoc, if_pos rfl, hone, hprevious.later r.slotIndex hlater]
              · rw [hone]
                decide
              · rw [numFor_snoc, if_neg (Nat.ne_of_lt hlt),
                  hprevious.later slotIndex (Nat.lt_trans hlater hlt)]
      refine ⟨fun slotIndex => ?_, fun last h => ?_⟩
      · by_cases hr : r.slotIndex = slotIndex
        · subst hr
          exact Nat.le_trans hcounts.here hcounts.bound
        · rw [numFor_snoc, if_neg hr]
          exact hbound slotIndex
      · rw [List.getLast?_append_cons, List.getLast?_singleton] at h
        exact Option.some.inj h ▸ hcounts

/-- What was sent before the last response is in order, too. -/
lemma InOrder.of_append_toList {sent : List ApiResponse} {ahead : Option ApiResponse}
    (h : InOrder (sent ++ ahead.toList)) : InOrder sent := by
  cases ahead with
  | none => simpa using h
  | some r =>
      generalize hall : sent ++ (some r).toList = all at h
      cases h with
      | nil => simp at hall
      | snoc hsent _ =>
          obtain ⟨rfl, -⟩ := List.append_inj' hall rfl
          exact hsent

/-! ## Connections -/

/-- The response that went with a cache document. -/
def CampaignSlotCacheDoc.response (doc : CampaignSlotCacheDoc) : ApiResponse where
  slotIndex := doc.currentSlot
  numApiRequestsForThisAdSlotSoFar := doc.numApiRequestsForCurrentSlot

namespace TodaysAdSlot

/-- What was read of the cache: nothing, or a document of which `P` holds. -/
def HasRead (st : Db) (s : TodaysAdSlot) (P : Option CampaignSlotCacheDoc → Prop) : Prop :=
  s.cacheCas = 0 ∧ P none ∨
    ∃ doc, (st (.adSpaceCampaignSlotCache s.campaignRequested)).docAt s.cacheCas = some doc ∧
      P (some doc)

/-- The members that were set from what was read of the cache. -/
def SetFrom (s : TodaysAdSlot) : Option CampaignSlotCacheDoc → Prop
  | none => s.foundAdCampaignCurrentSlotCacheDoc = false ∧ s.numApiRequestsForThisAdSlotSoFar = 1
  | some doc => s.foundAdCampaignCurrentSlotCacheDoc = true ∧
      s.firstSlotIndexToTry = doc.currentSlot ∧
      s.numApiRequestsForThisAdSlotSoFar = doc.numApiRequestsForCurrentSlot

/-- The same once the request was counted. -/
def CountedFrom (s : TodaysAdSlot) : Option CampaignSlotCacheDoc → Prop
  | none => s.numApiRequestsForThisAdSlotSoFar = 1
  | some doc => s.firstSlotIndexToTry = doc.currentSlot ∧
      (s.currentSlotIndexToTry = s.firstSlotIndexToTry →
        s.numApiRequestsForThisAdSlotSoFar = doc.numApiRequestsForCurrentSlot + 1 ∧
        s.numApiRequestsForThisAdSlotSoFar ≤ maxApiRequestsPerAdSlotDuration)

/-- What a connection knows of the cache. -/
def KnowsCache (st : Db) (s : TodaysAdSlot) : Prop :=
  match s.stage with
  | .handleClientReadyRead | .getAdCampaignCurrentSlotCacheIfExists
  | .createOrUpdateAdCampaignCurrentSlotCache | .closed => True
  | .getAdCampaignDocItselfToGetSlotLengthHours | .getAdCampaignOwnersProfileJustToGetApiKey =>
      s.HasRead st s.SetFrom
  | .getAdCampaignSlot =>
      s.HasRead st s.SetFrom ∧ s.firstSlotIndexToTry ≤ s.currentSlotIndexToTry
  | .getAdCampaignSlotFiller _ =>
      s.HasRead st s.CountedFrom ∧ s.firstSlotIndexToTry ≤ s.currentSlotIndexToTry
  | .sendResponse =>
      s.HasRead st fun doc => FollowsOn (doc.map CampaignSlotCacheDoc.response) s.response

variable {st st' : Db} {s : TodaysAdSlot}

lemma HasRead.mono {P : Option CampaignSlotCacheDoc → Prop} (hst : st ≤ st')
    (h : s.HasRead st P) : s.HasRead st' P := by
  rcases h with h | ⟨doc, hdoc, hP⟩
  · exact .inl h
  · exact .inr ⟨doc, Cell.docAt_mono (hst _) hdoc, hP⟩

/-- The same was read by a connection that differs in other members only. -/
lemma HasRead.imp {P Q : Option CampaignSlotCacheDoc → Prop} {s' : TodaysAdSlot}
    (h : s.HasRead st P) (hcas : s'.cacheCas = s.cacheCas)
    (hcampaign : s'.campaignRequested = s.campaignRequested) (hPQ : ∀ doc, P doc → Q doc) :
    s'.HasRead st Q := by
  unfold HasRead
  rw [hcas, hcampaign]
  rcases h with ⟨hzero, hP⟩ | ⟨doc, hdoc, hP⟩
  · exact .inl ⟨hzero, hPQ _ hP⟩
  · exact .inr ⟨doc, hdoc, hPQ _ hP⟩

lemma KnowsCache.mono (hst : st ≤ st') (h : s.KnowsCache st) : s.KnowsCache st' := by
  unfold KnowsCache at h ⊢
  split at h
  · trivial
  · trivial
  · trivial
  · trivial
  · exact h.mono hst
  · exact h.mono hst
  · exact ⟨h.1.mono hst, h.2⟩
  · exact ⟨h.1.mono hst, h.2⟩
  · exact h.mono hst

lemma close_knowsCache : s.close.KnowsCache st := trivial

/-- Not between its response and its store. -/
def Settled (s : TodaysAdSlot) : Prop := s.stage ≠ .createOrUpdateAdCampaignCurrentSlotCache

lemma close_settled : s.close.Settled := by simp [Settled, close]

lemma haveSlotLengthHours_knowsCache (h : s.HasRead st s.SetFrom) :
    s.haveSlotLengthHoursAndApiKeyAndKnowFirstSlotIndexToTrySoTry.KnowsCache st ∧
      s.haveSlotLengthHoursAndApiKeyAndKnowFirstSlotIndexToTrySoTry.Settled := by
  unfold haveSlotLengthHoursAndApiKeyAndKnowFirstSlotIndexToTrySoTry
  split
  · exact ⟨close_knowsCache, close_settled⟩
  · exact ⟨⟨h.imp rfl rfl fun doc h => by cases doc <;> exact h, Nat.le_refl _⟩, by simp [Settled]⟩

variable (st s) in
lemma continueAtCache_knowsCache :
    let s' := s.continueAtJustFinishedAttemptingToGetAdCampaignCurrentSlotCache
      (st (.adSpaceCampaignSlotCache s.campaignRequested)).get
    s'.KnowsCache st ∧ s'.Settled := by
  intro s'
  cases hget : (st (.adSpaceCampaignSlotCache s.campaignRequested)).get with
  | none =>
      simp only [s', hget]
      exact ⟨.inl ⟨rfl, rfl, rfl⟩, by
        simp [Settled, continueAtJustFinishedAttemptingToGetAdCampaignCurrentSlotCache]⟩
  | some read =>
      obtain ⟨cas, doc⟩ := read
      obtain ⟨rfl, hdoc⟩ := Cell.get_eq_some.1 hget
      simp only [s', hget]
      exact haveSlotLengthHours_knowsCache (.inr ⟨doc, hdoc, rfl, rfl, rfl⟩)

lemma continueAtCampaign_knowsCache (h : s.HasRead st s.SetFrom)
    (r : Option (ℕ × CampaignDoc)) :
    (s.continueAtJustFinishedAttemptingToGetAdCampaign r).KnowsCache st ∧
      (s.continueAtJustFinishedAttemptingToGetAdCampaign r).Settled := by
  unfold continueAtJustFinishedAttemptingToGetAdCampaign
  split
  · exact ⟨close_knowsCache, close_settled⟩
  · split
    · exact ⟨h.imp rfl rfl fun doc h => by cases doc <;> exact h, by simp [Settled]⟩
    · exact ⟨close_knowsCache, close_settled⟩

lemma continueAtProfile_knowsCache (h : s.HasRead st s.SetFrom)
    (r : Option (ℕ × UserAccount)) :
    (s.continueAtJustFinishedAttemptingToGetCampaignOwnersProfileDoc r).KnowsCache st ∧
      (s.continueAtJustFinishedAttemptingToGetCampaignOwnersProfileDoc r).Settled := by
  unfold continueAtJustFinishedAttemptingToGetCampaignOwnersProfileDoc
  split
  · exact ⟨close_knowsCache, close_settled⟩
  · exact haveSlotLengthHours_knowsCache (h.imp rfl rfl fun doc h => by cases doc <;> exact h)

lemma continueAtSlot_knowsCache (h : s.HasRead st s.SetFrom)
    (hle : s.firstSlotIndexToTry ≤ s.currentSlotIndexToTry)
    (hstage : s.stage = .getAdCampaignSlot) (now : ℤ) (r : Option (ℕ × SlotDoc)) :
    (s.continueAtJustFinishedAttemptingToGetAdCampaignSlot now r).KnowsCache st ∧
      (s.continueAtJustFinishedAttemptingToGetAdCampaignSlot now r).Settled := by
  have hclose : s.close.KnowsCache st ∧ s.close.Settled := ⟨close_knowsCache, close_settled⟩
  unfold continueAtJustFinishedAttemptingToGetAdCampaignSlot
  split
  · exact hclose
  split
  · exact hclose
  dsimp only
  split
  · -- the current slot
    split
    · next hfound =>
        split
        · exact ⟨close_knowsCache, close_settled⟩
        · next hmax =>
            refine ⟨⟨h.imp rfl rfl fun doc hset => ?_, hle⟩, by simp [Settled]⟩
            cases doc with
            | none => exact absurd (hset.1.symm.trans hfound.1) (by simp)
            | some doc => exact ⟨hset.2.1, fun _ => ⟨congrArg (· + 1) hset.2.2, Nat.not_lt.1 hmax⟩⟩
    · next hnot =>
        refine ⟨⟨h.imp rfl rfl fun doc hset => ?_, hle⟩, by simp [Settled]⟩
        cases doc with
        | none => exact hset.2
        | some doc => exact ⟨hset.2.1, fun heq => absurd ⟨hset.1, heq.symm⟩ hnot⟩
  · -- the next one
    unfold KnowsCache Settled
    simp only [hstage]
    exact ⟨⟨h.imp rfl rfl fun doc h => by cases doc <;> exact h, Nat.le_succ_of_le hle⟩, by simp⟩

lemma continueAtSlotFiller_knowsCache (h : s.HasRead st s.CountedFrom)
    (hle : s.firstSlotIndexToTry ≤ s.currentSlotIndexToTry) (r : Option (ℕ × SlotFillerDoc)) :
    (s.continueAtJustFinishedAttemptingToGetAdCampaignSlotFiller r).KnowsCache st ∧
      (s.continueAtJustFinishedAttemptingToGetAdCampaignSlotFiller r).Settled := by
  unfold continueAtJustFinishedAttemptingToGetAdCampaignSlotFiller
  split
  · exact ⟨close_knowsCache, close_settled⟩
  refine ⟨?_, by simp [Settled]⟩
  unfold KnowsCache
  dsimp only
  refine h.imp rfl rfl fun doc hcounted => ?_
  by_cases hsame : s.currentSlotIndexToTry = s.firstSlotIndexToTry
  · cases doc with
    | none => simpa [FollowsOn, response, hsame, CountedFrom] using hcounted
    | some doc =>
        obtain ⟨hnum, hmax⟩ := hcounted.2 hsame
        refine .inl ⟨hsame.trans hcounted.1, ?_, ?_⟩
        · simpa [response, CampaignSlotCacheDoc.response, hsame] using hnum
        · simpa [response, hsame] using hmax
  · cases doc with
    | none => simp [FollowsOn, response, hsame]
    | some doc =>
        refine .inr ⟨?_, by simp [response, hsame]⟩
        have hlt : s.firstSlotIndexToTry < s.currentSlotIndexToTry :=
          Nat.lt_of_le_of_ne hle (Ne.symm hsame)
        rw [hcounted.1] at hlt
        exact hlt

/-- **What a step can do.**  It leaves the store alone, sends a response, or stores the cache. -/
lemma perform_act (h : s.KnowsCache st) (x : TodaysAdSlotInput) :
    ((perform st (s.act x)).1 = st ∧ (perform st (s.act x)).2.KnowsCache st ∧
        ((perform st (s.act x)).2 = s ∨ (perform st (s.act x)).2.Settled)) ∨
      (s.stage = .sendResponse ∧ (∃ now, x = .proceed now) ∧ perform st (s.act x) =
        (st.push (.apiResponses s.campaignRequested) .document s.response,
          { s with stage := .createOrUpdateAdCampaignCurrentSlotCache })) ∨
      (s.stage = .createOrUpdateAdCampaignCurrentSlotCache ∧ perform st (s.act x) =
        (st.push (.adSpaceCampaignSlotCache s.campaignRequested) .document s.newCache,
          s.close)) := by
  cases x with
  | handleClientReadyRead campaign apiKey =>
      refine .inl ?_
      rw [act]
      split
      · exact ⟨rfl, trivial, .inr (by simp [perform, Settled])⟩
      · exact ⟨rfl, h, .inl rfl⟩
  | dbError =>
      refine .inl ?_
      rw [act]
      split
      · exact ⟨rfl, h, .inl rfl⟩
      · exact ⟨rfl, close_knowsCache, .inr close_settled⟩
  | disconnected =>
      refine .inl ?_
      rw [act]
      split
      · exact ⟨rfl, h, .inl rfl⟩
      · exact ⟨rfl, h, .inl rfl⟩
      · exact ⟨rfl, close_knowsCache, .inr close_settled⟩
  | proceed now =>
      rw [act, proceed]
      unfold KnowsCache at h
      split
      · exact .inl ⟨rfl, by unfold KnowsCache; exact h, .inl rfl⟩
      · exact .inl ⟨rfl, by unfold KnowsCache; exact h, .inl rfl⟩
      · have hnext := continueAtCache_knowsCache st s
        exact .inl ⟨rfl, hnext.1, .inr hnext.2⟩
      · next hstage =>
          rw [hstage] at h
          have hnext := continueAtCampaign_knowsCache h
            (st (.adSpaceCampaign s.campaignRequested)).get
          exact .inl ⟨rfl, hnext.1, .inr hnext.2⟩
      · next hstage =>
          rw [hstage] at h
          have hnext := continueAtProfile_knowsCache h
            (st (.userAccount s.campaignRequested.usernameOfCampaignOwner)).get
          exact .inl ⟨rfl, hnext.1, .inr hnext.2⟩
      · next hstage =>
          rw [hstage] at h
          have hnext := continueAtSlot_knowsCache h.1 h.2 hstage now
            (st (.adSpaceCampaignSlot ⟨s.campaignRequested, s.currentSlotIndexToTry⟩)).get
          exact .inl ⟨rfl, hnext.1, .inr hnext.2⟩
      · next slotFilledWith hstage =>
          rw [hstage] at h
          have hnext := continueAtSlotFiller_knowsCache h.1 h.2
            (st (.adSpaceSlotFiller slotFilledWith)).get
          exact .inl ⟨rfl, hnext.1, .inr hnext.2⟩
      · next hstage => exact .inr (.inl ⟨hstage, ⟨now, rfl⟩, by simp [perform]⟩)
      · next hstage => exact .inr (.inr ⟨hstage, by simp [perform]⟩)

/-- When a connection serves an ad, the cache is still the one it has read, and every response that
was sent before is stored. -/
def NotOvertaken (st : Db) (s : TodaysAdSlot) (x : TodaysAdSlotInput) : Prop :=
  s.stage = .sendResponse → (∃ now, x = .proceed now) →
    (st (.adSpaceCampaignSlotCache s.campaignRequested)).cas = s.cacheCas ∧
      (st (.apiResponses s.campaignRequested)).cas =
        (st (.adSpaceCampaignSlotCache s.campaignRequested)).cas

end TodaysAdSlot

/-! ## Runs -/

/-- The responses that were stored. -/
def storedResponses (st : Db) (k : CampaignKey) : List ApiResponse :=
  (st (.adSpaceCampaignSlotCache k)).docs.map CampaignSlotCacheDoc.response

/-- The responses that were sent. -/
def sentResponses (st : Db) (k : CampaignKey) : List ApiResponse := (st (.apiResponses k)).docs

section Push

variable {st : Db} {k k' : CampaignKey}

lemma storedResponses_push_response (r : ApiResponse) :
    storedResponses (st.push (.apiResponses k) .document r) k' = storedResponses st k' := by
  rw [storedResponses, Store.push_of_ne st (by simp)]
  rfl

lemma sentResponses_push_cache (doc : CampaignSlotCacheDoc) :
    sentResponses (st.push (.adSpaceCampaignSlotCache k) .document doc) k' =
      sentResponses st k' := by
  rw [sentResponses, Store.push_of_ne st (by simp)]
  rfl

lemma sentResponses_push_response (r : ApiResponse) :
    sentResponses (st.push (.apiResponses k) .document r) k' =
      if k' = k then sentResponses st k' ++ [r] else sentResponses st k' := by
  by_cases hk : k' = k
  · subst hk
    simp [sentResponses]
  · rw [if_neg hk, sentResponses, Store.push_of_ne st (by simpa using hk)]
    rfl

lemma storedResponses_push_cache (doc : CampaignSlotCacheDoc) :
    storedResponses (st.push (.adSpaceCampaignSlotCache k) .document doc) k' =
      if k' = k then storedResponses st k' ++ [doc.response] else storedResponses st k' := by
  by_cases hk : k' = k
  · subst hk
    simp [storedResponses]
  · rw [if_neg hk, storedResponses, Store.push_of_ne st (by simpa using hk)]
    rfl

end Push

/-- The invariant of the API. -/
structure QuotaOk {ι : Type} (w : Api ι) : Prop where
  inOrder : ∀ k, InOrder (sentResponses w.store k)
  stored : ∀ k, ∃ ahead : Option ApiResponse,
    sentResponses w.store k = storedResponses w.store k ++ ahead.toList
  ahead : ∀ i, ¬ (w.client i).Settled →
    sentResponses w.store (w.client i).campaignRequested =
      storedResponses w.store (w.client i).campaignRequested ++ [(w.client i).response]
  unique : ∀ i j, ¬ (w.client i).Settled → ¬ (w.client j).Settled →
    (w.client i).campaignRequested = (w.client j).campaignRequested → i = j
  knows : ∀ i, (w.client i).KnowsCache w.store

section Runs

variable {ι : Type} [DecidableEq ι] {w₀ w : Api ι}

/-- What `FollowsOn` needs, where the cache is the one the connection has read. -/
lemma getLast?_storedResponses {st : Db} {s : TodaysAdSlot}
    {P : Option CampaignSlotCacheDoc → Prop} (h : s.HasRead st P)
    (hcas : (st (.adSpaceCampaignSlotCache s.campaignRequested)).cas = s.cacheCas) :
    ∃ doc, P doc ∧ (storedResponses st s.campaignRequested).getLast? =
      doc.map CampaignSlotCacheDoc.response := by
  rw [storedResponses, List.getLast?_map, ← Cell.current_eq_getLast?]
  rcases h with ⟨hzero, hP⟩ | ⟨doc, hdoc, hP⟩
  · exact ⟨none, hP, by simp [Cell.current, hcas, hzero]⟩
  · exact ⟨some doc, hP, by rw [Cell.current, hcas, hdoc]⟩

/-- A step that leaves the store alone. -/
lemma QuotaOk.step_nothing (h : QuotaOk w) {w' : Api ι} {i : ι} (hstore : w'.store = w.store)
    (hother : ∀ j, j ≠ i → w'.client j = w.client j) (hknows : (w'.client i).KnowsCache w.store)
    (hsettled : w'.client i = w.client i ∨ (w'.client i).Settled) : QuotaOk w' := by
  have hunsettled (j : ι) (hj : ¬ (w'.client j).Settled) : w'.client j = w.client j := by
    by_cases hji : j = i
    · subst hji
      exact hsettled.resolve_right hj
    · exact hother j hji
  constructor
  · rw [hstore]
    exact h.inOrder
  · rw [hstore]
    exact h.stored
  · intro j hj
    have heq := hunsettled j hj
    rw [heq] at hj ⊢
    rw [hstore]
    exact h.ahead j hj
  · intro j j' hj hj'
    have heq := hunsettled j hj
    have heq' := hunsettled j' hj'
    rw [heq] at hj ⊢
    rw [heq'] at hj' ⊢
    exact h.unique j j' hj hj'
  · intro j
    rw [hstore]
    by_cases hji : j = i
    · subst hji
      exact hknows
    · rw [hother j hji]
      exact h.knows j

/-- A response is sent. -/
lemma QuotaOk.step_sendResponse (h : QuotaOk w) {w' : Api ι} {i : ι}
    (hstage : (w.client i).stage = .sendResponse)
    (hcas : (w.store (.adSpaceCampaignSlotCache (w.client i).campaignRequested)).cas =
      (w.client i).cacheCas)
    (hstored : (w.store (.apiResponses (w.client i).campaignRequested)).cas =
      (w.store (.adSpaceCampaignSlotCache (w.client i).campaignRequested)).cas)
    (hstore : w'.store = w.store.push (.apiResponses (w.client i).campaignRequested) .document
      (w.client i).response)
    (hother : ∀ j, j ≠ i → w'.client j = w.client j)
    (hi : w'.client i =
      { w.client i with stage := .createOrUpdateAdCampaignCurrentSlotCache }) : QuotaOk w' := by
  set k := (w.client i).campaignRequested with hk
  have hlength : (sentResponses w.store k).length = (storedResponses w.store k).length := by
    simp [sentResponses, storedResponses, hstored]
  have hsame : sentResponses w.store k = storedResponses w.store k := by
    obtain ⟨ahead, hahead⟩ := h.stored k
    rw [hahead, List.length_append] at hlength
    have hnil : ahead.toList = [] := List.eq_nil_of_length_eq_zero (by omega)
    rw [hahead, hnil, List.append_nil]
  -- nobody else has sent a response that is not stored
  have hsettled (j : ι) (hj : j ≠ i) (hunsettled : ¬ (w'.client j).Settled) :
      (w'.client j).campaignRequested ≠ k := by
    intro hcampaign
    rw [hother j hj] at hunsettled hcampaign
    have hahead := h.ahead j hunsettled
    rw [hcampaign] at hahead
    rw [hahead, List.length_append, List.length_singleton] at hlength
    omega
  have hgrows : w.store ≤ w'.store := hstore ▸ Store.le_push _ _ _ _
  constructor
  · intro k'
    rw [hstore, sentResponses_push_response]
    split
    · next hk' =>
        subst hk'
        have hread := h.knows i
        unfold TodaysAdSlot.KnowsCache at hread
        rw [hstage] at hread
        obtain ⟨doc, hfollows, hlast⟩ := getLast?_storedResponses hread hcas
        refine (h.inOrder k).snoc ?_
        rw [hsame, hlast]
        exact hfollows
    · exact h.inOrder k'
  · intro k'
    rw [hstore, sentResponses_push_response, storedResponses_push_response]
    split
    · next hk' => exact ⟨some (w.client i).response, by rw [hk', hsame]; rfl⟩
    · exact h.stored k'
  · intro j hj
    by_cases hji : j = i
    · subst hji
      rw [hi, hstore, sentResponses_push_response, storedResponses_push_response, if_pos rfl]
      exact congrArg (· ++ [(w.client j).response]) hsame
    · have hne := hsettled j hji hj
      rw [hother j hji] at hj hne ⊢
      rw [hstore, sentResponses_push_response, storedResponses_push_response, if_neg hne]
      exact h.ahead j hj
  · intro j j' hj hj' hcampaign
    by_cases hji : j = i
    · by_cases hji' : j' = i
      · rw [hji, hji']
      · refine absurd ?_ (hsettled j' hji' hj')
        rw [← hcampaign, hji, hi]
    · by_cases hji' : j' = i
      · refine absurd ?_ (hsettled j hji hj)
        rw [hcampaign, hji', hi]
      · rw [hother j hji] at hj hcampaign
        rw [hother j' hji'] at hj' hcampaign
        exact h.unique j j' hj hj' hcampaign
  · intro j
    by_cases hji : j = i
    · subst hji
      rw [hi]
      trivial
    · rw [hother j hji]
      exact (h.knows j).mono hgrows

/-- The cache is stored. -/
lemma QuotaOk.step_store (h : QuotaOk w) {w' : Api ι} {i : ι}
    (hunsettled : ¬ (w.client i).Settled)
    (hstore : w'.store = w.store.push
      (.adSpaceCampaignSlotCache (w.client i).campaignRequested) .document (w.client i).newCache)
    (hother : ∀ j, j ≠ i → w'.client j = w.client j) (hi : w'.client i = (w.client i).close) :
    QuotaOk w' := by
  have hahead := h.ahead i hunsettled
  have hsettled (j : ι) (hj : ¬ (w'.client j).Settled) :
      w'.client j = w.client j ∧
        (w.client j).campaignRequested ≠ (w.client i).campaignRequested := by
    by_cases hji : j = i
    · subst hji
      rw [hi] at hj
      exact absurd TodaysAdSlot.close_settled hj
    · rw [hother j hji] at hj
      exact ⟨hother j hji, fun hcampaign => hji (h.unique j i hj hunsettled hcampaign)⟩
  have hgrows : w.store ≤ w'.store := hstore ▸ Store.le_push _ _ _ _
  constructor
  · intro k
    rw [hstore, sentResponses_push_cache]
    exact h.inOrder k
  · intro k
    rw [hstore, sentResponses_push_cache, storedResponses_push_cache]
    split
    · next hk => exact ⟨none, by rw [hk, hahead, Option.toList_none, List.append_nil]; rfl⟩
    · exact h.stored k
  · intro j hj
    obtain ⟨heq, hne⟩ := hsettled j hj
    rw [heq] at hj ⊢
    rw [hstore, sentResponses_push_cache, storedResponses_push_cache, if_neg hne]
    exact h.ahead j hj
  · intro j j' hj hj' hcampaign
    obtain ⟨heq, -⟩ := hsettled j hj
    obtain ⟨heq', -⟩ := hsettled j' hj'
    rw [heq] at hj hcampaign
    rw [heq'] at hj' hcampaign
    exact h.unique j j' hj hj' hcampaign
  · intro j
    by_cases hji : j = i
    · subst hji
      rw [hi]
      exact TodaysAdSlot.close_knowsCache
    · rw [hother j hji]
      exact (h.knows j).mono hgrows

/-- One step of one connection. -/
lemma QuotaOk.step (h : QuotaOk w) {i : ι} {x : TodaysAdSlotInput}
    (hok : (w.client i).NotOvertaken w.store x) : QuotaOk (w.step TodaysAdSlot.act i x) := by
  have hother (j : ι) (hj : j ≠ i) : (w.step TodaysAdSlot.act i x).client j = w.client j := by
    simp [World.step, hj]
  have hstore : (w.step TodaysAdSlot.act i x).store =
      (perform w.store ((w.client i).act x)).1 := rfl
  have hi : (w.step TodaysAdSlot.act i x).client i =
      (perform w.store ((w.client i).act x)).2 := by
    simp [World.step]
  rcases TodaysAdSlot.perform_act (h.knows i) x with
    ⟨hsame, hknows, hsettled⟩ | ⟨hstage, hx, hperform⟩ | ⟨hstage, hperform⟩
  · exact h.step_nothing (hstore.trans hsame) hother (by rwa [hi]) (by rwa [hi])
  · rw [hperform] at hstore hi
    exact h.step_sendResponse hstage (hok hstage hx).1 (hok hstage hx).2 hstore hother hi
  · rw [hperform] at hstore hi
    exact h.step_store (by simp [TodaysAdSlot.Settled, hstage]) hstore hother hi

/-- No slot gets too many ads, and the cache does not count fewer than were stored for its slot. -/
def WithinQuota (st : Db) (k : CampaignKey) : Prop :=
  (∀ slotIndex, numFor slotIndex (sentResponses st k) ≤ maxApiRequestsPerAdSlotDuration) ∧
    ∀ doc, (st (.adSpaceCampaignSlotCache k)).current = some doc →
      numFor doc.currentSlot (storedResponses st k) ≤ doc.numApiRequestsForCurrentSlot

/-- Nobody has asked the API yet.  A cache document can only come from a request, so there is none
either. -/
def NoApiRequests (st : Db) : Prop :=
  ∀ k, (st (.adSpaceCampaignSlotCache k)).docs = [] ∧ (st (.apiResponses k)).docs = []

omit [DecidableEq ι] in
lemma NoApiRequests.quotaOk (hstart : NoApiRequests w₀.store)
    (hconnections : ∀ i, (w₀.client i).stage = .handleClientReadyRead) : QuotaOk w₀ := by
  have hsettled (i : ι) : (w₀.client i).Settled := by
    simp [TodaysAdSlot.Settled, hconnections i]
  have hsent (k : CampaignKey) : sentResponses w₀.store k = [] := (hstart k).2
  constructor
  · intro k
    rw [hsent k]
    exact .nil
  · intro k
    refine ⟨none, ?_⟩
    rw [hsent k, storedResponses, (hstart k).1]
    rfl
  · exact fun i hi => absurd (hsettled i) hi
  · exact fun i _ hi => absurd (hsettled i) hi
  · intro i
    simp [TodaysAdSlot.KnowsCache, hconnections i]

lemma quotaOk_of_reaches (hstart : NoApiRequests w₀.store)
    (hconnections : ∀ i, (w₀.client i).stage = .handleClientReadyRead)
    (hreach : Reaches TodaysAdSlot.act (fun st s x => s.NotOvertaken st x) w₀ w) : QuotaOk w := by
  induction hreach with
  | start => exact hstart.quotaOk hconnections
  | step i x _ hok ih => exact ih.step hok

/-- **The quota of the API** is kept as long as no connection is overtaken.  The invariant behind it
(`QuotaOk`) speaks of what was stored, of what was sent and is still to be stored, and of what every
connection has read.  The condition is on the step that goes wrong, so that a run may contain any
number of connections, stops and changes of the slot. -/
theorem apiRequests_counted (hstart : NoApiRequests w₀.store)
    (hconnections : ∀ i, (w₀.client i).stage = .handleClientReadyRead)
    (hreach : Reaches TodaysAdSlot.act (fun st s x => s.NotOvertaken st x) w₀ w)
    (k : CampaignKey) : WithinQuota w.store k := by
  have hok := quotaOk_of_reaches hstart hconnections hreach
  refine ⟨(hok.inOrder k).numFor_le.1, fun doc hdoc => ?_⟩
  have hstored : InOrder (storedResponses w.store k) := by
    obtain ⟨ahead, hahead⟩ := hok.stored k
    have hsent := hok.inOrder k
    rw [hahead] at hsent
    exact hsent.of_append_toList
  have hlast : (storedResponses w.store k).getLast? = some doc.response := by
    rw [storedResponses, List.getLast?_map, ← Cell.current_eq_getLast?, hdoc]
    rfl
  exact (hstored.numFor_le.2 _ hlast).here

end Runs

/-! ## Many connections, and two connections -/

/-- A campaign with two slots of a day each. -/
def anApi (ι : Type) : Api ι where
  store
    | .adSpaceCampaign ⟨"anna", 0⟩ => Cell.absent.push .document
        { minPrice := 1, slotLengthHours := 24, adImageWidth := "", adImageHeight := "" }
    | .userAccount "anna" => Cell.absent.push .document
        { balanceInSatoshis := 0, apiKey := "secret" }
    | .adSpaceCampaignSlot ⟨⟨"anna", 0⟩, 0⟩ => Cell.absent.push .document
        { purchaseTimestamp := 0, startTimestamp := 0, purchasePrice := 1,
          slotFilledWith := ⟨"bob", 0⟩ }
    | .adSpaceCampaignSlot ⟨⟨"anna", 0⟩, 1⟩ => Cell.absent.push .document
        { purchaseTimestamp := 0, startTimestamp := 86400, purchasePrice := 1,
          slotFilledWith := ⟨"carla", 0⟩ }
    | .adSpaceSlotFiller ⟨"bob", 0⟩ => Cell.absent.push .document { username := "bob" }
    | .adSpaceSlotFiller ⟨"carla", 0⟩ => Cell.absent.push .document { username := "carla" }
    | _ => Cell.absent
  client _ := {}

lemma noApiRequests_anApi (ι : Type) : NoApiRequests (anApi ι).store := fun _ => ⟨rfl, rfl⟩

instance TodaysAdSlot.decidableNotOvertaken (st : Db) (s : TodaysAdSlot) (x : TodaysAdSlotInput) :
    Decidable (s.NotOvertaken st x) :=
  match x with
  | .proceed _ =>
      decidable_of_iff (s.stage = .sendResponse →
        (st (.adSpaceCampaignSlotCache s.campaignRequested)).cas = s.cacheCas ∧
          (st (.apiResponses s.campaignRequested)).cas =
            (st (.adSpaceCampaignSlotCache s.campaignRequested)).cas) (by simp [NotOvertaken])
  | .handleClientReadyRead _ _ => .isTrue fun _ h => by simp at h
  | .dbError => .isTrue fun _ h => by simp at h
  | .disconnected => .isTrue fun _ h => by simp at h

/-- A request, and as many answers as there are for it. -/
def request (now : ℤ) : List TodaysAdSlotInput :=
  .handleClientReadyRead ⟨"anna", 0⟩ "secret" :: List.replicate 7 (.proceed now)

/-- Fifty connections get an ad, one after another, and the next one is refused.  When the second
slot has begun, connection 51 has read the cache and both slots when connection 52 comes, and is
gone before that one gets its ad; connection 53 has the wrong key; connection 54 comes last. -/
def twoDays : List (ℕ × TodaysAdSlotInput) :=
  (List.range 51).flatMap (fun i => (request 100).map (i, ·)) ++
    ((request 86400).take 4).map (51, ·) ++ ((request 86400).take 4).map (52, ·) ++
    [(51, .disconnected), (53, .handleClientReadyRead ⟨"anna", 0⟩ "guess"), (53, .proceed 86400)] ++
    ((request 86400).drop 4).map (52, ·) ++ (request 86400).map (54, ·)

/-- No more than fifty ads of the first slot were sent, and the counter has begun again. -/
theorem apiRequests_counted_twoDays :
    WithinQuota ((anApi ℕ).run TodaysAdSlot.act twoDays).store ⟨"anna", 0⟩ ∧
      numFor 0 (sentResponses ((anApi ℕ).run TodaysAdSlot.act twoDays).store ⟨"anna", 0⟩) = 50 ∧
      numFor 1 (sentResponses ((anApi ℕ).run TodaysAdSlot.act twoDays).store ⟨"anna", 0⟩) = 2 ∧
      (((anApi ℕ).run TodaysAdSlot.act twoDays).store
        (.adSpaceCampaignSlotCache ⟨"anna", 0⟩)).current = some ⟨1, 2, 24, "secret"⟩ :=
  ⟨apiRequests_counted (noApiRequests_anApi ℕ) (fun _ => rfl)
    (reaches_run_of_staysWithin (by decide +kernel)) _,
    by decide +kernel, by decide +kernel, by decide +kernel⟩

/-- Both connections read everything before the first one sends its ad. -/
def twoConnections : List (Bool × TodaysAdSlotInput) :=
  ((request 100).take 6).map (false, ·) ++ ((request 100).take 6).map (true, ·) ++
    ((request 100).drop 6).map (false, ·) ++ ((request 100).drop 6).map (true, ·)

/-- Two responses are stored, and the cache says one. -/
theorem apiRequests_not_counted :
    ¬ ∀ w : Api Bool, Reaches TodaysAdSlot.act anyStep (anApi Bool) w →
    ∀ k, WithinQuota w.store k := by
  intro hcounted
  have hdoc : (((anApi Bool).run TodaysAdSlot.act twoConnections).store
      (.adSpaceCampaignSlotCache ⟨"anna", 0⟩)).current = some ⟨0, 1, 24, "secret"⟩ := by
    decide +kernel
  have hstored : numFor 0 (storedResponses ((anApi Bool).run TodaysAdSlot.act twoConnections).store
      ⟨"anna", 0⟩) = 2 := by
    decide +kernel
  have hle := (hcounted _ (reaches_run (anApi Bool) twoConnections) _).2 _ hdoc
  rw [hstored] at hle
  exact absurd hle (by decide)

end Autobackup.Abc2
