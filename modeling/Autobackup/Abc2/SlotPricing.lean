import Autobackup.Abc2.Documents
import Mathlib.Tactic.Ring
import Mathlib.Tactic.FieldSimp

/-!
# The price and the start of an ad slot

The price of the next slot of a campaign falls along a straight line from twice the previous
price, at the time of the previous purchase, to the campaign's minimum price, at the time the
previous slot expires; after that it stays at the minimum.  The new slot starts when the previous
one expires, or at once if that is already over.

The front end spreads this over four callbacks that communicate through member variables:
`finishShowing…` reads the campaign document into the `m_HackedInD3faultCampaign0_*` members
(`CampaignMembers`), `ensureSlotDoesntExist…` computes the price and the time of purchase and
remembers whether the last slot had expired (`PriceMembers`), and `userAccountLockAttemptFinish…`
chooses the start.  The definitions here are those pieces, and the purchase session of
`Autobackup.Abc2.Session` is built from them.

The second half follows a campaign through any number of purchases, each computed from the
data of the previous slot.  All arithmetic is over exact rationals (`id` for the rounding of the
machine); the rounding of the price to whole satoshis is kept, and is harmless because both ends of
the line are whole satoshi amounts.

Left out is what else a purchase does, which is in `Autobackup.Abc2.Session`: here a purchase is the
price and the start that come out of the four callbacks when nothing interferes.  With the rounding
of the machine in the place of `id` the definitions compute what the source computes, which the
results do not speak of.
-/

namespace Autobackup.Abc2

/-! ## The member variables -/

/-- The members read from the campaign document (`m_HackedInD3faultCampaign0_*`).  Prices are
JSON amounts.  The slot index is the empty string, here `none`, until a last slot was seen. -/
structure CampaignMembers where
  minPrice : ℚ := 0
  slotLengthHours : ℚ := 0
  noPreviousSlotPurchases : Bool := true
  lastSlotFilledAkaPurchasedSlotIndex : Option ℕ := none
  lastSlotFilledAkaPurchasedPurchaseTimestamp : ℚ := 0
  lastSlotFilledAkaPurchasedStartTimestamp : ℚ := 0
  lastSlotFilledAkaPurchasedPurchasePrice : ℚ := 0
  deriving DecidableEq, Repr, Inhabited

namespace CampaignMembers

/-- The last-slot members of a campaign document; they keep their values when there is no last
slot. -/
def readLastSlot (m : CampaignMembers) (last : Option LastSlotFilled) : CampaignMembers :=
  match last with
  | none => { m with noPreviousSlotPurchases := true }
  | some slot =>
      { m with
        noPreviousSlotPurchases := false
        lastSlotFilledAkaPurchasedSlotIndex := some slot.slotIndex
        lastSlotFilledAkaPurchasedPurchaseTimestamp := slot.purchaseTimestamp
        lastSlotFilledAkaPurchasedStartTimestamp := slot.startTimestamp
        lastSlotFilledAkaPurchasedPurchasePrice := satoshiIntToJsonDouble id slot.purchasePrice }

/-- What `finishShowing…` reads from a campaign document. -/
def readCampaignDoc (m : CampaignMembers) (doc : CampaignDoc) : CampaignMembers :=
  { m with
    minPrice := satoshiIntToJsonDouble id doc.minPrice
    slotLengthHours := doc.slotLengthHours }.readLastSlot doc.lastSlotFilledAkaPurchased

def lastSlotFilledAkaPurchasedExpireDateTime (m : CampaignMembers) : ℚ :=
  m.lastSlotFilledAkaPurchasedStartTimestamp + m.slotLengthHours * 3600

end CampaignMembers

/-- The members `ensureSlotDoesntExist…` fills for the callbacks after it. -/
structure PriceMembers where
  currentPriceInSatoshisToUseForBuying : ℤ := 0
  lastSlotPurchasesIsExpired : Bool := false
  expireDateTimeToBeUsedAsStartDateTime : ℚ := 0
  purchaseTimestamp : ℚ := 0
  deriving DecidableEq, Repr, Inhabited

def calculateCurrentPrice (currentTime_x minPrice_y2 purchasePriceDoubled_y1 expireDateTime_x2
    purchaseDateTime_x1 : ℚ) : ℚ :=
  let m := (minPrice_y2 - purchasePriceDoubled_y1) / (expireDateTime_x2 - purchaseDateTime_x1)
  let b := minPrice_y2 - m * expireDateTime_x2
  m * currentTime_x + b

namespace PriceMembers

/-- The price and the time of purchase, as `ensureSlotDoesntExist…` sets them.  The expired flag
was set by the callback before it and is only ever cleared here. -/
def setPrice (p : PriceMembers) (c : CampaignMembers) (currentDateTime : ℚ) : PriceMembers :=
  if c.noPreviousSlotPurchases then
    { p with
      currentPriceInSatoshisToUseForBuying := jsonDoubleToSatoshiIntIncludingRounding id c.minPrice
      purchaseTimestamp := currentDateTime }
  else if currentDateTime ≥ c.lastSlotFilledAkaPurchasedExpireDateTime then
    { p with
      currentPriceInSatoshisToUseForBuying := jsonDoubleToSatoshiIntIncludingRounding id c.minPrice
      purchaseTimestamp := currentDateTime }
  else
    { currentPriceInSatoshisToUseForBuying :=
        jsonDoubleToSatoshiIntIncludingRounding id
          (calculateCurrentPrice currentDateTime c.minPrice
            (c.lastSlotFilledAkaPurchasedPurchasePrice * 2)
            c.lastSlotFilledAkaPurchasedExpireDateTime
            c.lastSlotFilledAkaPurchasedPurchaseTimestamp)
      expireDateTimeToBeUsedAsStartDateTime := c.lastSlotFilledAkaPurchasedExpireDateTime
      lastSlotPurchasesIsExpired := false
      purchaseTimestamp := currentDateTime }

/-- The start of the new slot, as `userAccountLockAttemptFinish…` chooses it. -/
def startTimestampUsedInNewPurchase (p : PriceMembers) (c : CampaignMembers) : ℚ :=
  if !c.noPreviousSlotPurchases && !p.lastSlotPurchasesIsExpired then
    p.expireDateTimeToBeUsedAsStartDateTime
  else p.purchaseTimestamp

end PriceMembers

/-! ## Consecutive purchases -/

/-- The slot bought at `currentDateTime` by a session that has read `doc`. -/
def buySlot (doc : CampaignDoc) (currentDateTime : ℚ) (slotFilledWith : SlotFillerKey) :
    SlotDoc :=
  let c := ({} : CampaignMembers).readCampaignDoc doc
  let p := ({ lastSlotPurchasesIsExpired := true } : PriceMembers).setPrice c currentDateTime
  { purchaseTimestamp := p.purchaseTimestamp
    startTimestamp := p.startTimestampUsedInNewPurchase c
    purchasePrice := p.currentPriceInSatoshisToUseForBuying
    slotFilledWith := slotFilledWith }

/-- The entry a slot makes in the campaign document. -/
def SlotDoc.asLastSlotFilled (slot : SlotDoc) (slotIndex : ℕ) : LastSlotFilled where
  slotIndex := slotIndex
  purchaseTimestamp := slot.purchaseTimestamp
  startTimestamp := slot.startTimestamp
  purchasePrice := slot.purchasePrice

/-- The campaign document after slot number `slotIndex` was bought. -/
def CampaignDoc.withLastSlot (doc : CampaignDoc) (slotIndex : ℕ) (slot : SlotDoc) :
    CampaignDoc :=
  { doc with lastSlotFilledAkaPurchased := some (slot.asLastSlotFilled slotIndex) }

/-- The slots bought at the given clock times, each from the campaign document its predecessor left
behind.  Each buyer finds the document that the last one has left, which is what the locks and the
`add` of a slot see to when purchases interfere. -/
def buySlots (doc : CampaignDoc) (slotIndex : ℕ) : List (ℚ × SlotFillerKey) → List SlotDoc
  | [] => []
  | (currentDateTime, filler) :: later =>
      let slot := buySlot doc currentDateTime filler
      slot :: buySlots (doc.withLastSlot slotIndex slot) (slotIndex + 1) later

/-- When a slot of a campaign expires. -/
def SlotDoc.expireDateTime (slot : SlotDoc) (doc : CampaignDoc) : ℚ :=
  slot.startTimestamp + doc.slotLengthHours * 3600

/-! ## The falling line -/

/-- A line that falls from `high` at `x₁` to `low` at `x₂` stays between the two in between. -/
lemma calculateCurrentPrice_mem {x low high x₁ x₂ : ℚ} (hlh : low ≤ high) (hx₁ : x₁ ≤ x)
    (hx₂ : x < x₂) :
    low ≤ calculateCurrentPrice x low high x₂ x₁ ∧
      calculateCurrentPrice x low high x₂ x₁ ≤ high := by
  have hrun : 0 < x₂ - x₁ := by linarith
  have hform : calculateCurrentPrice x low high x₂ x₁ =
      low + (high - low) * ((x₂ - x) / (x₂ - x₁)) := by
    unfold calculateCurrentPrice
    field_simp
    ring
  have hfrac : 0 ≤ (x₂ - x) / (x₂ - x₁) := div_nonneg (by linarith) hrun.le
  have hfrac' : (x₂ - x) / (x₂ - x₁) ≤ 1 := (div_le_one hrun).2 (by linarith)
  have hdrop : 0 ≤ high - low := by linarith
  rw [hform]
  constructor
  · have := mul_nonneg hdrop hfrac
    linarith
  · have := mul_le_mul_of_nonneg_left hfrac' hdrop
    linarith

/-! ## One purchase -/

section OnePurchase

variable {doc : CampaignDoc} (now : ℚ) (filler : SlotFillerKey)

lemma buySlot_first (h : doc.lastSlotFilledAkaPurchased = none) :
    (buySlot doc now filler).purchasePrice = doc.minPrice ∧
      (buySlot doc now filler).purchaseTimestamp = now ∧
      (buySlot doc now filler).startTimestamp = now := by
  simp [buySlot, CampaignMembers.readCampaignDoc, CampaignMembers.readLastSlot, h,
    PriceMembers.setPrice, PriceMembers.startTimestampUsedInNewPurchase,
    jsonDoubleToSatoshiIntIncludingRounding_satoshiIntToJsonDouble]

lemma buySlot_expired {k : ℕ} {slot : SlotDoc}
    (h : doc.lastSlotFilledAkaPurchased = some (slot.asLastSlotFilled k))
    (hnow : slot.expireDateTime doc ≤ now) :
    (buySlot doc now filler).purchasePrice = doc.minPrice ∧
      (buySlot doc now filler).purchaseTimestamp = now ∧
      (buySlot doc now filler).startTimestamp = now := by
  have hnow' : slot.startTimestamp + doc.slotLengthHours * 3600 ≤ now := hnow
  simp [buySlot, CampaignMembers.readCampaignDoc, CampaignMembers.readLastSlot, h,
    SlotDoc.asLastSlotFilled, PriceMembers.setPrice,
    PriceMembers.startTimestampUsedInNewPurchase,
    CampaignMembers.lastSlotFilledAkaPurchasedExpireDateTime, hnow',
    jsonDoubleToSatoshiIntIncludingRounding_satoshiIntToJsonDouble]

lemma buySlot_running {k : ℕ} {slot : SlotDoc}
    (h : doc.lastSlotFilledAkaPurchased = some (slot.asLastSlotFilled k))
    (hnow : now < slot.expireDateTime doc) :
    (buySlot doc now filler).purchasePrice = jsonDoubleToSatoshiIntIncludingRounding id
        (calculateCurrentPrice now (satoshiIntToJsonDouble id doc.minPrice)
          (satoshiIntToJsonDouble id (2 * slot.purchasePrice)) (slot.expireDateTime doc)
          slot.purchaseTimestamp) ∧
      (buySlot doc now filler).purchaseTimestamp = now ∧
      (buySlot doc now filler).startTimestamp = slot.expireDateTime doc := by
  have hnow' : ¬ slot.startTimestamp + doc.slotLengthHours * 3600 ≤ now := not_le.2 hnow
  have hdouble : satoshiIntToJsonDouble id (2 * slot.purchasePrice) =
      satoshiIntToJsonDouble id slot.purchasePrice * 2 := by
    simp only [satoshiIntToJsonDouble, id]
    push_cast
    ring
  simp [buySlot, CampaignMembers.readCampaignDoc, CampaignMembers.readLastSlot, h,
    SlotDoc.asLastSlotFilled, PriceMembers.setPrice,
    PriceMembers.startTimestampUsedInNewPurchase,
    CampaignMembers.lastSlotFilledAkaPurchasedExpireDateTime, hnow', hdouble,
    SlotDoc.expireDateTime]

end OnePurchase

/-! ## Any number of purchases -/

/-- What a campaign promises about a slot and the one sold after it.  The price is bounded on both
sides, since the line that it is read from falls from twice the previous price to the minimum. -/
structure SoldAfter (doc : CampaignDoc) (previous slot : SlotDoc) : Prop where
  /-- The new slot does not overlap the previous one. -/
  expire_le_start : previous.expireDateTime doc ≤ slot.startTimestamp
  /-- No slot starts before it is paid for. -/
  purchase_le_start : slot.purchaseTimestamp ≤ slot.startTimestamp
  /-- A slot that has to wait waits for the previous one, and no longer. -/
  start_eq_expire : slot.purchaseTimestamp < slot.startTimestamp →
    slot.startTimestamp = previous.expireDateTime doc
  minPrice_le : doc.minPrice ≤ slot.purchasePrice
  price_le : slot.purchasePrice ≤ max doc.minPrice (2 * previous.purchasePrice)

/-- The invariant of a campaign's last slot: it is the first end point of the line the next price
is read from, and this is what makes that line one that falls. -/
structure SlotDoc.Sound (doc : CampaignDoc) (slot : SlotDoc) : Prop where
  purchase_le_start : slot.purchaseTimestamp ≤ slot.startTimestamp
  minPrice_le : doc.minPrice ≤ slot.purchasePrice

/-- The line through a sound last slot is not vertical. -/
lemma SlotDoc.Sound.run_pos {doc : CampaignDoc} {slot : SlotDoc} (h : slot.Sound doc)
    (hlength : 0 < doc.slotLengthHours) :
    0 < slot.expireDateTime doc - slot.purchaseTimestamp := by
  have := h.purchase_le_start
  unfold SlotDoc.expireDateTime
  linarith

lemma SoldAfter.sound {doc : CampaignDoc} {previous slot : SlotDoc}
    (h : SoldAfter doc previous slot) : slot.Sound doc :=
  ⟨h.purchase_le_start, h.minPrice_le⟩

lemma buySlot_first_sound {doc : CampaignDoc} (now : ℚ) (filler : SlotFillerKey)
    (h : doc.lastSlotFilledAkaPurchased = none) : (buySlot doc now filler).Sound doc := by
  obtain ⟨hprice, hpurchase, hstart⟩ := buySlot_first now filler h
  exact ⟨by rw [hpurchase, hstart], by rw [hprice]⟩

lemma buySlot_soldAfter {doc : CampaignDoc} (now : ℚ) (filler : SlotFillerKey) {k : ℕ}
    {previous : SlotDoc} (hmin : 0 < doc.minPrice)
    (hlast : doc.lastSlotFilledAkaPurchased = some (previous.asLastSlotFilled k))
    (hsound : previous.Sound doc) (hclock : previous.purchaseTimestamp ≤ now) :
    SoldAfter doc previous (buySlot doc now filler) := by
  rcases le_or_gt (previous.expireDateTime doc) now with hnow | hnow
  · obtain ⟨hprice, hpurchase, hstart⟩ := buySlot_expired now filler hlast hnow
    exact
      { expire_le_start := by rw [hstart]; exact hnow
        purchase_le_start := by rw [hpurchase, hstart]
        start_eq_expire := fun h => by rw [hpurchase, hstart] at h; exact absurd h (lt_irrefl _)
        minPrice_le := by rw [hprice]
        price_le := by rw [hprice]; exact le_max_left _ _ }
  · obtain ⟨hprice, hpurchase, hstart⟩ := buySlot_running now filler hlast hnow
    have hends : satoshiIntToJsonDouble id doc.minPrice ≤
        satoshiIntToJsonDouble id (2 * previous.purchasePrice) := by
      have : (doc.minPrice : ℚ) ≤ (2 * previous.purchasePrice : ℤ) := by
        exact_mod_cast (by linarith [hsound.minPrice_le])
      unfold satoshiIntToJsonDouble
      exact div_le_div_of_nonneg_right this (by norm_num)
    obtain ⟨hlow, hhigh⟩ := calculateCurrentPrice_mem hends hclock hnow
    obtain ⟨hlow', hhigh'⟩ := jsonDoubleToSatoshiIntIncludingRounding_mem hlow hhigh
    exact
      { expire_le_start := by rw [hstart]
        purchase_le_start := by rw [hpurchase, hstart]; exact hnow.le
        start_eq_expire := fun _ => hstart
        minPrice_le := by rw [hprice]; exact hlow'
        price_le := by rw [hprice]; exact hhigh'.trans (le_max_right _ _) }

/-- Run lemma: from a campaign whose last slot is sound, every slot sold at non-decreasing clock
times is sold after its predecessor. -/
lemma buySlots_soldAfter {doc : CampaignDoc} {k : ℕ} {previous : SlotDoc}
    (hmin : 0 < doc.minPrice) (hsound : previous.Sound doc)
    (buyers : List (ℚ × SlotFillerKey))
    (hclock : ((previous.purchaseTimestamp :: buyers.map Prod.fst).Pairwise (· ≤ ·))) :
    (previous :: buySlots (doc.withLastSlot k previous) (k + 1) buyers).IsChain
      (SoldAfter doc) := by
  induction buyers generalizing k previous with
  | nil => exact List.isChain_singleton _
  | cons buyer later ih =>
      obtain ⟨now, filler⟩ := buyer
      simp only [List.map_cons, List.pairwise_cons] at hclock
      obtain ⟨hprevious, hnow, hlater⟩ := hclock
      have hsold : SoldAfter doc previous
          (buySlot (doc.withLastSlot k previous) now filler) := by
        have hmin' : 0 < (doc.withLastSlot k previous).minPrice := hmin
        have h := buySlot_soldAfter now filler hmin' rfl
          ⟨hsound.purchase_le_start, hsound.minPrice_le⟩
          (hprevious now List.mem_cons_self)
        exact ⟨h.1, h.2, h.3, h.4, h.5⟩
      have hpurchase : (buySlot (doc.withLastSlot k previous) now filler).purchaseTimestamp =
          now := by
        rcases le_or_gt (previous.expireDateTime (doc.withLastSlot k previous)) now with h | h
        · exact (buySlot_expired now filler rfl h).2.1
        · exact (buySlot_running now filler rfl h).2.1
      refine List.IsChain.cons_cons hsold (ih hsold.sound ?_)
      simp only [List.pairwise_cons, hpurchase]
      exact ⟨hnow, hlater⟩

/-- **Slots tile time and never sell below the minimum.**  Start from a campaign without purchases
and let any number of buyers buy at non-decreasing clock times.  Of every two consecutive slots the
later is sold after the earlier in the sense of `SoldAfter`, and for no slot is the line of the next
price vertical, which is the denominator of `calculateCurrentPrice`.

The first slot has no predecessor, and its price is the minimum; from then on the previous slot
gives both ends of the line.  A clock that goes back would start a slot before the purchase that it
follows, hence the non-decreasing times; two purchases at the same time are allowed. -/
theorem buySlots_tile (doc : CampaignDoc) (hnew : doc.lastSlotFilledAkaPurchased = none)
    (hmin : 0 < doc.minPrice) (hlength : 0 < doc.slotLengthHours)
    (buyers : List (ℚ × SlotFillerKey))
    (hclock : (buyers.map Prod.fst).Pairwise (· ≤ ·)) :
    (∀ n previous slot, (buySlots doc 0 buyers)[n]? = some previous →
      (buySlots doc 0 buyers)[n + 1]? = some slot → SoldAfter doc previous slot) ∧
    (∀ slot ∈ buySlots doc 0 buyers,
      slot.expireDateTime doc - slot.purchaseTimestamp ≠ 0) := by
  cases buyers with
  | nil => simp [buySlots]
  | cons buyer later =>
      obtain ⟨now, filler⟩ := buyer
      have hfirst := buySlot_first_sound now filler hnew
      have hpurchase : (buySlot doc now filler).purchaseTimestamp = now :=
        (buySlot_first now filler hnew).2.1
      have hchain := buySlots_soldAfter (k := 0) hmin hfirst later (by
        rw [hpurchase]
        exact hclock)
      constructor
      · intro n previous slot hn hn'
        obtain ⟨hlt, rfl⟩ := List.getElem?_eq_some_iff.1 hn
        obtain ⟨hlt', rfl⟩ := List.getElem?_eq_some_iff.1 hn'
        exact List.isChain_iff_getElem.1 hchain n hlt'
      · intro slot hslot
        apply ne_of_gt
        refine SlotDoc.Sound.run_pos ?_ hlength
        rw [buySlots, List.mem_cons] at hslot
        rcases hslot with rfl | hslot
        · exact hfirst
        · obtain ⟨n, hn, rfl⟩ := List.mem_iff_getElem.1 hslot
          exact (List.isChain_iff_getElem.1 hchain n (by simpa using hn)).sound

/-- Two buyers six hours apart, with slots of 24 hours: the second buys while the first slot
runs, a quarter of the way down from the doubled price. -/
theorem buySlots_tile_two_buyers :
    (∀ n previous slot,
      (buySlots ⟨100, 24, "", "", none⟩ 0 [(0, ⟨"a", 0⟩), (21600, ⟨"b", 0⟩)])[n]? =
        some previous →
      (buySlots ⟨100, 24, "", "", none⟩ 0 [(0, ⟨"a", 0⟩), (21600, ⟨"b", 0⟩)])[n + 1]? =
        some slot → SoldAfter ⟨100, 24, "", "", none⟩ previous slot) ∧
    (∀ slot ∈ buySlots ⟨100, 24, "", "", none⟩ 0 [(0, ⟨"a", 0⟩), (21600, ⟨"b", 0⟩)],
      slot.expireDateTime ⟨100, 24, "", "", none⟩ - slot.purchaseTimestamp ≠ 0) :=
  buySlots_tile ⟨100, 24, "", "", none⟩ rfl (by decide) (by norm_num)
    [(0, ⟨"a", 0⟩), (21600, ⟨"b", 0⟩)] (by simp)

end Autobackup.Abc2
