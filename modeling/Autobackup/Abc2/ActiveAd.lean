import Autobackup.Abc2.TodaysAdSlot

/-!
# The active ad

A connection of the API crawls up the slots of a campaign from the cached one, and treats a slot
that has not begun like one that has expired.  As the slots of a campaign do not overlap, at most
one of them is active, and the crawl finds it from every cached index that is not behind it.

It does not always send that ad: once the requests for the cached slot are used up, the connection
says so instead (`not_servesActiveAd_usedUp`).  There is no other exception
(`serves_active_ad_unless_used_up`).

A run of one request is followed through all its documents (`TodaysAdSlot.crawl`), with the clock
fixed while it lasts: the times at which the documents are read differ by round trips only, and a
slot that begins or expires in between is the active one for part of the request.  Left out are the
text of the request, which is parsed before the crawl, and the image of the ad that is sent.
-/

namespace Autobackup.Abc2

/-- What a connection sends before it closes. -/
inductive TodaysAdSlotResponse
  | ad (response : ApiResponse)
  /-- `ABC2_API_AD_SLOT_NOT_PURCHASED_ERROR` -/
  | adSlotNotPurchased
  /-- "You have used up all of your API requests for the current ad slot duration." -/
  | usedUpAllApiRequests
  /-- `…_INVALID_API_KEY_MESSAGE` -/
  | invalidApiKey
  /-- "There is no ad campaign at that index, or that is an invalid user" -/
  | noSuchCampaign
  /-- `…_NO_AD_PLACEHOLDER` -/
  | noAdPlaceholder
  deriving DecidableEq, Repr

namespace TodaysAdSlot

/-- The connection once its outstanding request is performed. -/
def next (s : TodaysAdSlot) (db : Db) (now : ℤ) : TodaysAdSlot := (perform db (s.proceed now)).2

/-- What the callback of the outstanding request sends.  A conversion that fails throws, and nothing
is sent. -/
def sends (s : TodaysAdSlot) (db : Db) (now : ℤ) : Option TodaysAdSlotResponse :=
  match s.stage with
  | .handleClientReadyRead | .createOrUpdateAdCampaignCurrentSlotCache | .closed => none
  | .getAdCampaignCurrentSlotCacheIfExists =>
      if (s.next db now).stage = .closed then some .invalidApiKey else none
  | .getAdCampaignDocItselfToGetSlotLengthHours =>
      match (db (.adSpaceCampaign s.campaignRequested)).current with
      | none => some .noSuchCampaign
      | some _ => none
  | .getAdCampaignOwnersProfileJustToGetApiKey =>
      match (db (.userAccount s.campaignRequested.usernameOfCampaignOwner)).current with
      | none => some .noAdPlaceholder
      | some _ => if (s.next db now).stage = .closed then some .invalidApiKey else none
  | .getAdCampaignSlot =>
      match (db (.adSpaceCampaignSlot ⟨s.campaignRequested, s.currentSlotIndexToTry⟩)).current with
      | none => some .adSlotNotPurchased
      | some doc =>
          if doc.startTimestamp.isInt ∧ (s.next db now).stage = .closed then
            some .usedUpAllApiRequests
          else none
  | .getAdCampaignSlotFiller slotFilledWith =>
      match (db (.adSpaceSlotFiller slotFilledWith)).current with
      | none => some .noAdPlaceholder
      | some _ => none
  | .sendResponse => some (.ad s.response)

/-- What the connection sends in the end, if that is within so many requests to the store. -/
def crawl (db : Db) (now : ℤ) : ℕ → TodaysAdSlot → Option TodaysAdSlotResponse
  | 0, _ => none
  | fuel + 1, s =>
      match s.sends db now with
      | some response => some response
      | none => crawl db now fuel (s.next db now)

variable {s : TodaysAdSlot} {db : Db} {now : ℤ}

lemma crawl_of_sends {response : TodaysAdSlotResponse} (h : s.sends db now = some response)
    (fuel : ℕ) : crawl db now (fuel + 1) s = some response := by
  rw [crawl, h]

lemma crawl_of_not_sends (h : s.sends db now = none) (fuel : ℕ) :
    crawl db now (fuel + 1) s = crawl db now fuel (s.next db now) := by
  rw [crawl, h]

lemma sends_of_campaign {doc : CampaignDoc}
    (hstage : s.stage = .getAdCampaignDocItselfToGetSlotLengthHours)
    (hdoc : (db (.adSpaceCampaign s.campaignRequested)).current = some doc) :
    s.sends db now = none := by
  rw [sends, hstage]
  simp only [hdoc]

lemma sends_of_profile {profile : UserAccount}
    (hstage : s.stage = .getAdCampaignOwnersProfileJustToGetApiKey)
    (hprofile : (db (.userAccount s.campaignRequested.usernameOfCampaignOwner)).current =
      some profile)
    (hopen : (s.next db now).stage ≠ .closed) : s.sends db now = none := by
  rw [sends, hstage]
  simp only [hprofile, if_neg hopen]

end TodaysAdSlot

/-! ## Chains of slots -/

def SlotDoc.expiresAt (slot : SlotDoc) (slotLengthHours : ℤ) : ℚ :=
  slot.startTimestamp + 3600 * slotLengthHours

/-- The slot has begun and has not expired. -/
def SlotDoc.IsActive (slot : SlotDoc) (slotLengthHours : ℤ) (currentDateTime : ℚ) : Prop :=
  slot.startTimestamp ≤ currentDateTime ∧ currentDateTime < slot.expiresAt slotLengthHours

instance (slot : SlotDoc) (slotLengthHours : ℤ) (currentDateTime : ℚ) :
    Decidable (slot.IsActive slotLengthHours currentDateTime) :=
  inferInstanceAs (Decidable (_ ∧ _))

/-- The slots of a campaign, one after the other, and the request for its current ad.  It does not
matter whether the first slot has begun, or whether slots were bought before the one in front had
expired. -/
structure SlotChain where
  db : Db
  campaign : CampaignKey
  apiKey : String
  slotLengthHours : ℤ
  slots : List SlotDoc
  /-- The time of the request. -/
  now : ℤ
  slots_eq : ∀ index, (db (.adSpaceCampaignSlot ⟨campaign, index⟩)).current = slots[index]?
  slotFillers : ∀ slot ∈ slots, (db (.adSpaceSlotFiller slot.slotFilledWith)).current ≠ none
  startTimestamps : ∀ slot ∈ slots, slot.startTimestamp.isInt
  doNotOverlap : slots.IsChain fun slot slot' =>
    slot.expiresAt slotLengthHours ≤ slot'.startTimestamp
  cache : Option CampaignSlotCacheDoc
  cache_eq : (db (.adSpaceCampaignSlotCache campaign)).current = cache
  /-- The cache agrees with the campaign, and is not ahead of the active slot. -/
  cache_agrees : ∀ doc, cache = some doc → doc.slotLengthHours = slotLengthHours ∧
    doc.apiKey = apiKey ∧ ∀ index slot, slots[index]? = some slot →
      slot.IsActive slotLengthHours (now + secondsBeforeActualExpireDateTime) →
      doc.currentSlot ≤ index
  campaign_agrees : cache = none →
    (∃ doc, (db (.adSpaceCampaign campaign)).current = some doc ∧
      doc.slotLengthHours = slotLengthHours) ∧
    ∃ profile, (db (.userAccount campaign.usernameOfCampaignOwner)).current = some profile ∧
      profile.apiKey = apiKey

namespace SlotChain

variable (c : SlotChain)

def IsActive (index : ℕ) : Prop :=
  ∃ slot, c.slots[index]? = some slot ∧
    slot.IsActive c.slotLengthHours (c.now + secondsBeforeActualExpireDateTime)

/-- The cache is at this slot, and no requests are left for it. -/
def IsUsedUp (index : ℕ) : Prop :=
  ∃ doc, c.cache = some doc ∧ doc.currentSlot = index ∧
    maxApiRequestsPerAdSlotDuration ≤ doc.numApiRequestsForCurrentSlot

/-- The connection when the request has come in. -/
def request : TodaysAdSlot where
  campaignRequested := c.campaign
  apiKeyRequested := c.apiKey
  stage := .getAdCampaignCurrentSlotCacheIfExists

/-- The crawl ends, and this is what is sent. -/
def Sends (response : TodaysAdSlotResponse) : Prop :=
  ∃ enough, ∀ fuel, enough ≤ fuel →
    TodaysAdSlot.crawl c.db c.now fuel c.request = some response

/-- The ad of the active slot is sent, and "not purchased" where there is none. -/
def ServesActiveAd : Prop :=
  ∃ response, c.Sends response ∧
    (∀ index, (∃ n, response = .ad ⟨index, n⟩) ↔ c.IsActive index) ∧
    (response = .adSlotNotPurchased ↔ ∀ index, ¬ c.IsActive index)

/-- The same, but where no requests are left for the active slot the connection says so.  A
connection that is told that the requests are used up learns nothing about other slots, so this is
an exception for the active slot only. -/
structure ServesActiveAdUnlessUsedUp (response : TodaysAdSlotResponse) : Prop where
  ad : ∀ index, (∃ n, response = .ad ⟨index, n⟩) ↔ c.IsActive index ∧ ¬ c.IsUsedUp index
  usedUp : response = .usedUpAllApiRequests ↔ ∃ index, c.IsActive index ∧ c.IsUsedUp index
  notPurchased : response = .adSlotNotPurchased ↔ ∀ index, ¬ c.IsActive index

variable {c} {s : TodaysAdSlot} {index index' : ℕ} {slot : SlotDoc}
  {response : TodaysAdSlotResponse}

/-! ### At most one active slot -/

/-- A slot that lasts ends before all later ones begin. -/
lemma expiresAt_le_of_lt (hlength : 0 ≤ c.slotLengthHours) {slot' : SlotDoc}
    (h : c.slots[index]? = some slot) (h' : c.slots[index']? = some slot')
    (hlt : index < index') :
    slot.expiresAt c.slotLengthHours ≤ slot'.startTimestamp := by
  induction index' generalizing slot' with
  | zero => exact absurd hlt (Nat.not_lt_zero _)
  | succ index' ih =>
      have hbound : index' + 1 < c.slots.length := (List.getElem?_eq_some_iff.1 h').1
      have hbetween : c.slots[index']? = some c.slots[index'] := List.getElem?_eq_getElem _
      have hnext : c.slots[index'].expiresAt c.slotLengthHours ≤ slot'.startTimestamp := by
        have hchain := List.isChain_iff_getElem.1 c.doNotOverlap index' hbound
        rwa [(List.getElem?_eq_some_iff.1 h').2] at hchain
      rcases Nat.lt_succ_iff_lt_or_eq.1 hlt with hlt | rfl
      · have hbegin := ih hbetween hlt
        have hlasts : c.slots[index'].startTimestamp ≤
            c.slots[index'].expiresAt c.slotLengthHours := by
          have hcast : (0 : ℚ) ≤ c.slotLengthHours := Int.cast_nonneg hlength
          rw [SlotDoc.expiresAt]
          linarith
        exact hbegin.trans (hlasts.trans hnext)
      · rw [hbetween] at h
        exact Option.some.inj h ▸ hnext

/-- Two slots are not active at once. -/
lemma IsActive.unique (h : c.IsActive index) (h' : c.IsActive index') : index = index' := by
  have hnot : ∀ {i j}, c.IsActive i → c.IsActive j → ¬ i < j := by
    rintro i j ⟨slot, hslot, hbegun, hlasts⟩ ⟨slot', hslot', hbegun', -⟩ hlt
    have hlength : (0 : ℚ) < c.slotLengthHours := by
      rw [SlotDoc.expiresAt] at hlasts
      linarith
    have hends := expiresAt_le_of_lt (Int.cast_pos.1 hlength).le hslot hslot' hlt
    linarith
  exact Nat.le_antisymm (Nat.not_lt.1 (hnot h' h)) (Nat.not_lt.1 (hnot h h'))

/-! ### The crawl -/

/-- The connection is about to read the slot at `index`. -/
structure Crawls (c : SlotChain) (s : TodaysAdSlot) (index : ℕ) : Prop where
  campaignRequested : s.campaignRequested = c.campaign
  slotLengthHours : s.slotLengthHours = c.slotLengthHours
  stage : s.stage = .getAdCampaignSlot
  currentSlotIndexToTry : s.currentSlotIndexToTry = index
  isUsedUp : ∀ index, s.foundAdCampaignCurrentSlotCacheDoc = true ∧
    s.firstSlotIndexToTry = index ∧
      maxApiRequestsPerAdSlotDuration < s.numApiRequestsForThisAdSlotSoFar + 1 ↔ c.IsUsedUp index

lemma Crawls.current (h : Crawls c s index) :
    (c.db (.adSpaceCampaignSlot ⟨s.campaignRequested, s.currentSlotIndexToTry⟩)).current =
      c.slots[index]? := by
  rw [h.campaignRequested, h.currentSlotIndexToTry, c.slots_eq]

lemma isInt_of_slots (hslot : c.slots[index]? = some slot) : slot.startTimestamp.isInt :=
  c.startTimestamps slot (List.mem_of_getElem? hslot)

lemma Crawls.next (h : Crawls c s index) (hslot : c.slots[index]? = some slot) :
    ∃ cas, s.next c.db c.now =
      s.continueAtJustFinishedAttemptingToGetAdCampaignSlot c.now (some (cas, slot)) := by
  obtain ⟨cas, hget⟩ := Cell.exists_get (h.current.trans hslot)
  refine ⟨cas, ?_⟩
  rw [TodaysAdSlot.next, TodaysAdSlot.proceed, h.stage, perform, hget]

lemma Crawls.sends (h : Crawls c s index) (hslot : c.slots[index]? = some slot) :
    s.sends c.db c.now = if (s.next c.db c.now).stage = .closed then some .usedUpAllApiRequests
      else none := by
  rw [TodaysAdSlot.sends, h.stage]
  simp only [h.current, hslot, isInt_of_slots hslot, true_and]

/-- Behind the last slot. -/
lemma Crawls.sends_of_none (h : Crawls c s index) (hslot : c.slots[index]? = none) :
    s.sends c.db c.now = some .adSlotNotPurchased := by
  rw [TodaysAdSlot.sends, h.stage]
  simp only [h.current, hslot]

/-- A slot that is not active is passed by. -/
lemma Crawls.next_of_not_isActive (h : Crawls c s index) (hslot : c.slots[index]? = some slot)
    (hactive : ¬ c.IsActive index) :
    Crawls c (s.next c.db c.now) (index + 1) := by
  obtain ⟨cas, hnext⟩ := h.next hslot
  have hnot : ¬ (slot.startTimestamp ≤ ((c.now : ℚ) + secondsBeforeActualExpireDateTime) ∧
      ((c.now : ℚ) + secondsBeforeActualExpireDateTime) <
        slot.startTimestamp + 3600 * s.slotLengthHours) := by
    rw [h.slotLengthHours]
    exact fun hbetween => hactive ⟨slot, hslot, hbetween⟩
  rw [hnext, TodaysAdSlot.continueAtJustFinishedAttemptingToGetAdCampaignSlot]
  simp only [isInt_of_slots hslot, not_true_eq_false, if_false, if_neg hnot]
  exact { h with currentSlotIndexToTry := congrArg (· + 1) h.currentSlotIndexToTry }

/-- The requests for the active slot are used up. -/
lemma Crawls.sends_of_isUsedUp (h : Crawls c s index) (hactive : c.IsActive index)
    (husedUp : c.IsUsedUp index) : s.sends c.db c.now = some .usedUpAllApiRequests := by
  obtain ⟨slot, hslot, hbetween⟩ := hactive
  obtain ⟨cas, hnext⟩ := h.next hslot
  obtain ⟨hfound, hfirst, hmax⟩ := (h.isUsedUp index).2 husedUp
  rw [SlotDoc.IsActive, SlotDoc.expiresAt, ← h.slotLengthHours] at hbetween
  have hcloses : (s.next c.db c.now).stage = .closed := by
    rw [hnext, TodaysAdSlot.continueAtJustFinishedAttemptingToGetAdCampaignSlot]
    simp only [isInt_of_slots hslot, not_true_eq_false, if_false, if_pos hbetween]
    rw [if_pos ⟨hfound, hfirst.trans h.currentSlotIndexToTry.symm⟩, if_pos hmax]
    rfl
  rw [h.sends hslot, if_pos hcloses]

/-- The active slot is found. -/
lemma Crawls.next_of_isActive (h : Crawls c s index) (hslot : c.slots[index]? = some slot)
    (hactive : c.IsActive index) (husedUp : ¬ c.IsUsedUp index) :
    (s.next c.db c.now).stage = .getAdCampaignSlotFiller slot.slotFilledWith ∧
      (s.next c.db c.now).currentSlotIndexToTry = index := by
  obtain ⟨slot', hslot', hbetween⟩ := hactive
  obtain rfl : slot = slot' := Option.some.inj (hslot.symm.trans hslot')
  obtain ⟨cas, hnext⟩ := h.next hslot
  rw [SlotDoc.IsActive, SlotDoc.expiresAt, ← h.slotLengthHours] at hbetween
  rw [hnext, TodaysAdSlot.continueAtJustFinishedAttemptingToGetAdCampaignSlot]
  simp only [isInt_of_slots hslot, not_true_eq_false, if_false, if_pos hbetween]
  split
  · next hcached =>
      have hleft : ¬ maxApiRequestsPerAdSlotDuration < s.numApiRequestsForThisAdSlotSoFar + 1 :=
        fun hmax => husedUp ((h.isUsedUp index).1
          ⟨hcached.1, hcached.2.trans h.currentSlotIndexToTry, hmax⟩)
      rw [if_neg hleft]
      exact ⟨rfl, h.currentSlotIndexToTry⟩
  · exact ⟨rfl, h.currentSlotIndexToTry⟩

/-- The ad is read, and sent. -/
lemma sends_ad (hstage : s.stage = .getAdCampaignSlotFiller slot.slotFilledWith)
    (hslot : slot ∈ c.slots) :
    ∃ n, ∀ fuel, TodaysAdSlot.crawl c.db c.now (fuel + 2) s =
      some (.ad ⟨s.currentSlotIndexToTry, n⟩) := by
  obtain ⟨filler, hfiller⟩ := Option.ne_none_iff_exists'.1 (c.slotFillers slot hslot)
  obtain ⟨cas, hget⟩ := Cell.exists_get hfiller
  have hsends : s.sends c.db c.now = none := by
    rw [TodaysAdSlot.sends, hstage]
    simp only [hfiller]
  have hnext : s.next c.db c.now =
      s.continueAtJustFinishedAttemptingToGetAdCampaignSlotFiller (some (cas, filler)) := by
    rw [TodaysAdSlot.next, TodaysAdSlot.proceed, hstage, perform, hget]
  refine ⟨(s.next c.db c.now).numApiRequestsForThisAdSlotSoFar, fun fuel => ?_⟩
  rw [TodaysAdSlot.crawl_of_not_sends hsends, hnext]
  exact TodaysAdSlot.crawl_of_sends rfl fuel

/-! ### What is sent -/

lemma ServesActiveAdUnlessUsedUp.of_none (h : ∀ index, ¬ c.IsActive index) :
    c.ServesActiveAdUnlessUsedUp .adSlotNotPurchased where
  ad := fun index => by simp [h index]
  usedUp := by simp [h]
  notPurchased := by simp [h]

lemma ServesActiveAdUnlessUsedUp.of_isUsedUp (hactive : c.IsActive index)
    (husedUp : c.IsUsedUp index) : c.ServesActiveAdUnlessUsedUp .usedUpAllApiRequests where
  ad := fun index' => by
    simp only [reduceCtorEq, exists_false, false_iff, not_and, not_not]
    intro hactive'
    exact hactive.unique hactive' ▸ husedUp
  usedUp := iff_of_true rfl ⟨index, hactive, husedUp⟩
  notPurchased := by
    simp only [reduceCtorEq, false_iff, not_forall, not_not]
    exact ⟨index, hactive⟩

lemma ServesActiveAdUnlessUsedUp.of_isActive (hactive : c.IsActive index)
    (husedUp : ¬ c.IsUsedUp index) (n : ℕ) : c.ServesActiveAdUnlessUsedUp (.ad ⟨index, n⟩) where
  ad := fun index' => by
    simp only [TodaysAdSlotResponse.ad.injEq, ApiResponse.mk.injEq, exists_and_left, exists_eq',
      and_true]
    constructor
    · rintro rfl
      exact ⟨hactive, husedUp⟩
    · exact fun hactive' => hactive.unique hactive'.1
  usedUp := by
    simp only [reduceCtorEq, false_iff, not_exists, not_and]
    intro index' hactive'
    exact hactive.unique hactive' ▸ husedUp
  notPurchased := by
    simp only [reduceCtorEq, false_iff, not_forall, not_not]
    exact ⟨index, hactive⟩

/-- From every slot that is not behind the active one. -/
lemma Crawls.exists_response (h : Crawls c s index) (hle : ∀ k, c.IsActive k → index ≤ k) :
    ∃ response, c.ServesActiveAdUnlessUsedUp response ∧
      ∀ fuel, c.slots.length - index ≤ fuel →
        TodaysAdSlot.crawl c.db c.now (fuel + 3) s = some response := by
  -- on the number of slots that are left
  induction hleft : c.slots.length - index generalizing index s with
  | zero =>
      have hslot : c.slots[index]? = none := List.getElem?_eq_none (by omega)
      have hnone : ∀ k, ¬ c.IsActive k := by
        rintro k ⟨slot, hk, hactive⟩
        have hbound := (List.getElem?_eq_some_iff.1 hk).1
        have hbehind := hle k ⟨slot, hk, hactive⟩
        omega
      exact ⟨_, .of_none hnone, fun fuel _ =>
        TodaysAdSlot.crawl_of_sends (h.sends_of_none hslot) (fuel + 2)⟩
  | succ left ih =>
      have hslot : c.slots[index]? = some c.slots[index] := List.getElem?_eq_getElem (by omega)
      by_cases hactive : c.IsActive index
      · by_cases husedUp : c.IsUsedUp index
        · exact ⟨_, .of_isUsedUp hactive husedUp, fun fuel _ =>
            TodaysAdSlot.crawl_of_sends (h.sends_of_isUsedUp hactive husedUp) (fuel + 2)⟩
        · obtain ⟨hstage, hindex⟩ := h.next_of_isActive hslot hactive husedUp
          obtain ⟨n, had⟩ := sends_ad hstage (List.getElem_mem _)
          have hsends : s.sends c.db c.now = none := by
            rw [h.sends hslot, if_neg (by rw [hstage]; exact nofun)]
          refine ⟨_, .of_isActive hactive husedUp n, fun fuel _ => ?_⟩
          rw [TodaysAdSlot.crawl_of_not_sends hsends, had, hindex]
      · have hnext := h.next_of_not_isActive hslot hactive
        have hsends : s.sends c.db c.now = none := by
          rw [h.sends hslot, if_neg (by rw [hnext.stage]; exact nofun)]
        have hle' : ∀ k, c.IsActive k → index + 1 ≤ k := fun k hk =>
          Nat.lt_of_le_of_ne (hle k hk) fun heq => hactive (heq ▸ hk)
        obtain ⟨response, hserves, hcrawl⟩ := ih hnext hle' (by omega)
        refine ⟨response, hserves, fun fuel hfuel => ?_⟩
        rw [TodaysAdSlot.crawl_of_not_sends hsends]
        obtain ⟨fuel, rfl⟩ := Nat.exists_eq_succ_of_ne_zero (Nat.ne_of_gt (by omega : 0 < fuel))
        exact hcrawl fuel (by omega)

/-! ### The first slot to try -/

lemma Sends.of_crawl {before enough : ℕ}
    (hcrawl : ∀ fuel, TodaysAdSlot.crawl c.db c.now (fuel + before) c.request =
      TodaysAdSlot.crawl c.db c.now fuel s)
    (hsends : ∀ fuel, enough ≤ fuel →
      TodaysAdSlot.crawl c.db c.now (fuel + 3) s = some response) : c.Sends response := by
  refine ⟨enough + 3 + before, fun fuel hfuel => ?_⟩
  obtain ⟨rest, rfl⟩ := Nat.exists_eq_add_of_le hfuel
  have hfuel : enough + 3 + before + rest = enough + rest + 3 + before := by omega
  rw [hfuel, hcrawl]
  exact hsends _ (Nat.le_add_right enough rest)

/-- The connection has read that there is no cache. -/
def requestWithoutCache (c : SlotChain) : TodaysAdSlot :=
  c.request.continueAtJustFinishedAttemptingToGetAdCampaignCurrentSlotCache none

lemma next_request_of_none (hcache : c.cache = none) :
    c.request.next c.db c.now = c.requestWithoutCache := by
  have hget : (c.db (.adSpaceCampaignSlotCache c.campaign)).get = none :=
    Option.map_eq_none_iff.2 (c.cache_eq.trans hcache)
  change c.request.continueAtJustFinishedAttemptingToGetAdCampaignCurrentSlotCache
    (c.db (.adSpaceCampaignSlotCache c.campaign)).get = _
  rw [hget, requestWithoutCache]

/-- Without a cache the campaign and the profile come first, and then slot 0. -/
lemma crawls_of_no_cache (hcache : c.cache = none) :
    ∃ s, Crawls c s 0 ∧ ∀ fuel, TodaysAdSlot.crawl c.db c.now (fuel + 3) c.request =
      TodaysAdSlot.crawl c.db c.now fuel s := by
  obtain ⟨⟨doc, hdoc, hlength⟩, profile, hprofile, hapiKey⟩ := c.campaign_agrees hcache
  obtain ⟨campaignCas, hgetCampaign⟩ := Cell.exists_get hdoc
  obtain ⟨profileCas, hgetProfile⟩ := Cell.exists_get hprofile
  have hisInt : doc.slotLengthHours.isInt := by
    rw [hlength]
    rfl
  obtain ⟨s₁, hs₁⟩ : ∃ s₁ : TodaysAdSlot, s₁ =
      { c.requestWithoutCache with
        slotLengthHours := c.slotLengthHours
        stage := .getAdCampaignOwnersProfileJustToGetApiKey } := ⟨_, rfl⟩
  obtain ⟨s₂, hs₂⟩ : ∃ s₂ : TodaysAdSlot, s₂ =
      { s₁ with
        theCorrectApiKey := c.apiKey
        currentSlotIndexToTry := 0
        stage := .getAdCampaignSlot } := ⟨_, rfl⟩
  have hcampaign : c.requestWithoutCache.next c.db c.now = s₁ := by
    change c.requestWithoutCache.continueAtJustFinishedAttemptingToGetAdCampaign
      (c.db (.adSpaceCampaign c.campaign)).get = _
    rw [hgetCampaign, hs₁, ← hlength]
    exact if_pos hisInt
  have hprofileRead : s₁.next c.db c.now = s₂ := by
    subst hs₂ hs₁
    change TodaysAdSlot.continueAtJustFinishedAttemptingToGetCampaignOwnersProfileDoc _
      (c.db (.userAccount c.campaign.usernameOfCampaignOwner)).get = _
    rw [hgetProfile, ← hapiKey]
    exact if_neg (not_not.2 hapiKey.symm)
  have hsends : c.request.sends c.db c.now = none := by
    have hopen : (c.request.next c.db c.now).stage ≠ .closed := by
      rw [next_request_of_none hcache]
      exact nofun
    exact if_neg hopen
  have hsendsWithout : c.requestWithoutCache.sends c.db c.now = none :=
    TodaysAdSlot.sends_of_campaign rfl hdoc
  have hsends₁ : s₁.sends c.db c.now = none := by
    have hprofile₁ : (c.db (.userAccount s₁.campaignRequested.usernameOfCampaignOwner)).current =
        some profile := by
      rw [hs₁]
      exact hprofile
    refine TodaysAdSlot.sends_of_profile (by rw [hs₁]) hprofile₁ ?_
    rw [hprofileRead, hs₂]
    exact nofun
  refine ⟨s₂, ⟨?_, ?_, ?_, ?_, ?_⟩, fun fuel => ?_⟩
  · rw [hs₂, hs₁]
    rfl
  · rw [hs₂, hs₁]
  · rw [hs₂]
  · rw [hs₂]
  · intro index
    rw [hs₂, hs₁]
    refine iff_of_false (fun h => Bool.false_ne_true h.1) ?_
    rintro ⟨doc, hdoc, -⟩
    exact Option.some_ne_none doc (hdoc.symm.trans hcache)
  · rw [TodaysAdSlot.crawl_of_not_sends hsends, next_request_of_none hcache,
      TodaysAdSlot.crawl_of_not_sends hsendsWithout, hcampaign,
      TodaysAdSlot.crawl_of_not_sends hsends₁, hprofileRead]

lemma crawls_of_cache {doc : CampaignSlotCacheDoc} (hcache : c.cache = some doc) :
    ∃ s, Crawls c s doc.currentSlot ∧
      ∀ fuel, TodaysAdSlot.crawl c.db c.now (fuel + 1) c.request =
        TodaysAdSlot.crawl c.db c.now fuel s := by
  obtain ⟨hlength, hapiKey, -⟩ := c.cache_agrees doc hcache
  obtain ⟨cas, hget⟩ := Cell.exists_get (c.cache_eq.trans hcache)
  have hnext : c.request.next c.db c.now =
      { c.request with
        foundAdCampaignCurrentSlotCacheDoc := true
        numApiRequestsForThisAdSlotSoFar := doc.numApiRequestsForCurrentSlot
        firstSlotIndexToTry := doc.currentSlot
        slotLengthHours := doc.slotLengthHours
        theCorrectApiKey := doc.apiKey
        cacheCas := cas
        currentSlotIndexToTry := doc.currentSlot
        stage := .getAdCampaignSlot } := by
    change c.request.continueAtJustFinishedAttemptingToGetAdCampaignCurrentSlotCache
      (c.db (.adSpaceCampaignSlotCache c.campaign)).get = _
    rw [hget]
    exact if_neg (not_not.2 hapiKey.symm)
  have hsends : c.request.sends c.db c.now = none := by
    have hopen : (c.request.next c.db c.now).stage ≠ .closed := by
      rw [hnext]
      exact nofun
    exact if_neg hopen
  refine ⟨_, ⟨?_, ?_, ?_, ?_, ?_⟩, fun fuel => TodaysAdSlot.crawl_of_not_sends hsends fuel⟩
  all_goals rw [hnext]
  · rfl
  · exact hlength
  · intro index
    constructor
    · rintro ⟨-, hfirst, hmax⟩
      exact ⟨doc, hcache, hfirst, Nat.lt_succ_iff.1 hmax⟩
    · rintro ⟨doc', hdoc', hfirst, hmax⟩
      obtain rfl := Option.some.inj (hcache.symm.trans hdoc')
      exact ⟨rfl, hfirst, Nat.lt_succ_of_le hmax⟩

/-- **The active ad is served** unless the requests for its slot are used up, and "not purchased" is
sent exactly if no slot is active.  The chain may be of any length, the clock may stand anywhere,
and the cache may name any slot up to the active one.  The quota is what the response is excused by,
and nothing else: a crawl that starts from a cached slot comes to the active one, since no slot
between them is active. -/
theorem serves_active_ad_unless_used_up (c : SlotChain) :
    ∃ response, c.Sends response ∧ c.ServesActiveAdUnlessUsedUp response := by
  cases hcache : c.cache with
  | none =>
      obtain ⟨s, hcrawls, hcrawl⟩ := crawls_of_no_cache hcache
      obtain ⟨response, hserves, hsends⟩ := hcrawls.exists_response fun k _ => Nat.zero_le k
      exact ⟨response, .of_crawl hcrawl hsends, hserves⟩
  | some doc =>
      obtain ⟨-, -, hbehind⟩ := c.cache_agrees doc hcache
      obtain ⟨s, hcrawls, hcrawl⟩ := crawls_of_cache hcache
      obtain ⟨response, hserves, hsends⟩ := hcrawls.exists_response
        fun k ⟨slot, hslot, hactive⟩ => hbehind k slot hslot hactive
      exact ⟨response, .of_crawl hcrawl hsends, hserves⟩

/-- Three slots of a day each: the second follows the first at once, and the third is bought for
later.  The cache is still at the first one, for which fifty ads were sent. -/
def threeSlots (now : ℤ) : SlotChain where
  db
    | .adSpaceCampaignSlot ⟨⟨"anna", 0⟩, 0⟩ => Cell.absent.push .document ⟨0, 0, 5, ⟨"bob", 0⟩⟩
    | .adSpaceCampaignSlot ⟨⟨"anna", 0⟩, 1⟩ =>
        Cell.absent.push .document ⟨7, 86400, 5, ⟨"bob", 0⟩⟩
    | .adSpaceCampaignSlot ⟨⟨"anna", 0⟩, 2⟩ =>
        Cell.absent.push .document ⟨200000, 200000, 4, ⟨"carl", 3⟩⟩
    | .adSpaceSlotFiller ⟨"bob", 0⟩ => Cell.absent.push .document ⟨"bob", ""⟩
    | .adSpaceSlotFiller ⟨"carl", 3⟩ => Cell.absent.push .document ⟨"carl", ""⟩
    | .adSpaceCampaignSlotCache ⟨"anna", 0⟩ => Cell.absent.push .document ⟨0, 50, 24, "secret"⟩
    | _ => Cell.absent
  campaign := ⟨"anna", 0⟩
  apiKey := "secret"
  slotLengthHours := 24
  slots := [⟨0, 0, 5, ⟨"bob", 0⟩⟩, ⟨7, 86400, 5, ⟨"bob", 0⟩⟩, ⟨200000, 200000, 4, ⟨"carl", 3⟩⟩]
  now := now
  slots_eq
    | 0 | 1 | 2 => rfl
    | _ + 3 => rfl
  slotFillers := by simp [Cell.current_push]
  startTimestamps := by decide +kernel
  doNotOverlap := by
    refine .cons_cons ?_ (.cons_cons ?_ (.singleton _))
    · decide +kernel
    · decide +kernel
  cache := some ⟨0, 50, 24, "secret"⟩
  cache_eq := rfl
  cache_agrees := by
    rintro doc ⟨⟩
    exact ⟨rfl, rfl, fun index _ _ _ => Nat.zero_le index⟩
  campaign_agrees := nofun

-- in the first slot, in the second one, between the slots, and in the third one
example : [100, 90000, 180000, 210000].map (fun now =>
    TodaysAdSlot.crawl (threeSlots now).db now 9 (threeSlots now).request) =
    [some .usedUpAllApiRequests, some (.ad ⟨1, 1⟩), some .adSlotNotPurchased,
      some (.ad ⟨2, 1⟩)] := by decide +kernel

/-- The cache is at the active slot, for which fifty ads were sent already. -/
def usedUp : SlotChain where
  db
    | .adSpaceCampaignSlot ⟨⟨"anna", 0⟩, 0⟩ => Cell.absent.push .document ⟨0, 0, 5, ⟨"bob", 0⟩⟩
    | .adSpaceSlotFiller ⟨"bob", 0⟩ => Cell.absent.push .document ⟨"bob", ""⟩
    | .adSpaceCampaignSlotCache ⟨"anna", 0⟩ => Cell.absent.push .document ⟨0, 50, 24, "secret"⟩
    | _ => Cell.absent
  campaign := ⟨"anna", 0⟩
  apiKey := "secret"
  slotLengthHours := 24
  slots := [⟨0, 0, 5, ⟨"bob", 0⟩⟩]
  now := 100
  slots_eq
    | 0 => rfl
    | _ + 1 => rfl
  slotFillers := by simp [Cell.current_push]
  startTimestamps := by decide +kernel
  doNotOverlap := .singleton _
  cache := some ⟨0, 50, 24, "secret"⟩
  cache_eq := rfl
  cache_agrees := by
    rintro doc ⟨⟩
    exact ⟨rfl, rfl, fun index _ _ _ => Nat.zero_le index⟩
  campaign_agrees := nofun

/-- The fifty-first request for an ad is refused, so the active ad is not served. -/
theorem not_servesActiveAd_usedUp : ¬ usedUp.ServesActiveAd := by
  rintro ⟨response, ⟨enough, hsends⟩, had, -⟩
  have hactive : usedUp.IsActive 0 := ⟨⟨0, 0, 5, ⟨"bob", 0⟩⟩, rfl, by decide +kernel⟩
  obtain ⟨n, rfl⟩ := (had 0).2 hactive
  have hcrawl : ∀ fuel, TodaysAdSlot.crawl usedUp.db usedUp.now (fuel + 2) usedUp.request =
      some .usedUpAllApiRequests := fun fuel => by
    rw [TodaysAdSlot.crawl_of_not_sends (by decide +kernel)]
    exact TodaysAdSlot.crawl_of_sends (by decide +kernel) fuel
  have hsent := hsends (enough + 2) (Nat.le_add_right enough 2)
  rw [hcrawl] at hsent
  exact nomatch Option.some.inj hsent

end SlotChain

end Autobackup.Abc2
