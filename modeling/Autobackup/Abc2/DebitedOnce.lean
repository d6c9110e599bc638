import Autobackup.Abc2.SavedPurchases

/-!
# A buyer is debited exactly once

Whatever the sessions, login recoveries and recoverers do to each other, and wherever they stop:
the buyer of a filled slot has been debited for it at most once and by its price, is still locked
toward it as long as that has not happened, and nobody else is debited for it.

Debits are counted in the versions of an account, so a debit that was made and overwritten would
count as well.  The slot document is the record of who has bought: it is added once and never
written again, and both the session and the recoverers go by it when they debit and unlock.
-/

namespace Autobackup.Abc2

/-- What the write took for the slot. -/
def Note.debitFor (slot : SlotKey) : Note → Option ℤ
  | .debit slot' price => if slot' = slot then some price else none
  | _ => none

lemma Note.debitFor_eq_some {slot : SlotKey} {note : Note} {price : ℤ} :
    note.debitFor slot = some price ↔ note = .debit slot price := by
  cases note <;> simp [debitFor]

/-- Everything that was taken from `u`'s account for the slot, one amount for each write.  It is a
list and not a sum, so that being debited twice can be told from being debited once by twice as
much. -/
def debitsFor (st : Db) (u : Username) (slot : SlotKey) : List ℤ :=
  (st (.userAccount u)).notes.filterMap (Note.debitFor slot)

namespace PurchasesOk

variable {st : Db} {u : Username} {slot : SlotKey} {slotDoc : SlotDoc}

/-- A debit replaces the version that was locked toward the slot, and takes the slot's price. -/
lemma before_debit (h : PurchasesOk st) {c : ℕ} {price : ℤ} {profile : UserAccount}
    (hdebit : (st (.userAccount u)).version c = some ⟨.debit slot price, profile⟩) :
    ∃ e before, c = e + 1 ∧ (st (.userAccount u)).docAt e = some before ∧
      before.slotToAttemptToFillAkaPurchase = some slot ∧
      profile = before.debittedAndUnlocked price := by
  have hb := Cell.version_bounds hdebit
  obtain ⟨hc, -⟩ := h.debits u c slot price profile hdebit
  obtain ⟨e, rfl⟩ : ∃ e, c = e + 1 := ⟨c - 1, by omega⟩
  obtain ⟨before, hbefore⟩ := Cell.exists_docAt (x := st (.userAccount u)) (c := e)
    (by omega) (by omega)
  exact ⟨e, before, rfl, hbefore, h.accounts.history u e before _ hbefore hdebit⟩

lemma debit_unique (h : PurchasesOk st) {c c' : ℕ} {price price' : ℤ}
    {profile profile' : UserAccount}
    (hdebit : (st (.userAccount u)).version c = some ⟨.debit slot price, profile⟩)
    (hdebit' : (st (.userAccount u)).version c' = some ⟨.debit slot price', profile'⟩) :
    c = c' := by
  obtain ⟨e, before, rfl, hbefore, hslot, -⟩ := h.before_debit hdebit
  obtain ⟨e', before', rfl, hbefore', hslot', -⟩ := h.before_debit hdebit'
  rw [h.lockUnique u e e' slot before before' hbefore hbefore' hslot hslot']

/-- Nothing is taken twice. -/
lemma debitsFor_cases (h : PurchasesOk st) (u : Username) (slot : SlotKey) :
    debitsFor st u slot = [] ∨ ∃ c price profile, debitsFor st u slot = [price] ∧
      (st (.userAccount u)).version c = some ⟨.debit slot price, profile⟩ := by
  have hunique : ∀ c c' v v' b b', (st (.userAccount u)).version c = some v →
      (st (.userAccount u)).version c' = some v' → v.note.debitFor slot = some b →
      v'.note.debitFor slot = some b' → c = c' := by
    rintro c c' ⟨note, profile⟩ ⟨note', profile'⟩ b b' hv hv' hb hb'
    obtain rfl := Note.debitFor_eq_some.1 hb
    obtain rfl := Note.debitFor_eq_some.1 hb'
    exact h.debit_unique hv hv'
  rcases Cell.notes_filterMap_of_unique hunique with
    hnil | ⟨c, ⟨note, profile⟩, price, hv, hb, hone⟩
  · exact .inl hnil
  · obtain rfl := Note.debitFor_eq_some.1 hb
    exact .inr ⟨c, price, profile, hone, hv⟩

lemma debitsFor_of_ne (h : PurchasesOk st) (hfilled : FilledWith st slot slotDoc)
    (hne : u ≠ slotDoc.slotFilledWith.username) : debitsFor st u slot = [] := by
  rcases h.debitsFor_cases u slot with hnil | ⟨c, price, profile, -, hversion⟩
  · exact hnil
  · obtain ⟨-, slotDoc', hfilled', hbuyer, -⟩ := h.debits u c slot price profile hversion
    obtain rfl := hfilled.unique hfilled'
    exact absurd hbuyer.symm hne

/-- The buyer of a filled slot is still locked toward it, or was debited by its price. -/
lemma debitsFor_buyer (h : PurchasesOk st) (hfilled : FilledWith st slot slotDoc) :
    ∃ profile, (st (.userAccount slotDoc.slotFilledWith.username)).current = some profile ∧
      (debitsFor st slotDoc.slotFilledWith.username slot = [] ∧
          profile.slotToAttemptToFillAkaPurchase = some slot ∨
        debitsFor st slotDoc.slotFilledWith.username slot = [slotDoc.purchasePrice]) := by
  obtain ⟨c, locked, hlocked, htoward, hnow⟩ := h.slotOwned slot slotDoc hfilled
  have hb := Cell.docAt_bounds hlocked
  obtain ⟨profile, hprofile⟩ := Cell.exists_docAt (Nat.lt_of_lt_of_le hb.1 hb.2)
    (Nat.le_refl _)
  refine ⟨profile, hprofile, ?_⟩
  rcases h.debitsFor_cases slotDoc.slotFilledWith.username slot with
    hnil | ⟨c', price, debitted, hone, hversion⟩
  · left
    refine ⟨hnil, ?_⟩
    rcases hnow with rfl | ⟨debitted, hversion⟩
    · obtain rfl := Option.some.inj (hlocked.symm.trans hprofile)
      exact htoward.1
    · -- a debit that was written cannot be missing from the debits
      have hmem : slotDoc.purchasePrice ∈ debitsFor st slotDoc.slotFilledWith.username slot :=
        List.mem_filterMap.2 ⟨_, Cell.mem_notes hversion, Note.debitFor_eq_some.2 rfl⟩
      rw [hnil] at hmem
      cases hmem
  · right
    obtain ⟨-, slotDoc', hfilled', -, hprice⟩ := h.debits _ c' slot price debitted hversion
    obtain rfl := hfilled.unique hfilled'
    rw [hone, hprice]

end PurchasesOk

/-- **A buyer is debited exactly once.**  In every reachable state, for every filled slot: its buyer
was debited for it once and by its price, or not at all and is still locked toward it; nobody else
was debited for it; and each of these debits lowered the balance by the price.  There is no
condition on the order of the steps.  The lock names the slot, and the write that removes it is the
one that debits, with the CAS of the version that carries the lock; so whoever comes second has a
CAS that is out of date. -/
theorem buyer_debited_once {ι : Type} [DecidableEq ι] {sizes : KeySetSizes} {w₀ w : System ι}
    (hstart : PurchasesStart w₀.store) (hprocesses : ∀ i, (w₀.client i).Initial)
    (hreach : Reaches (Process.act sizes) anyStep w₀ w) {slot : SlotKey} {cas : ℕ}
    {slotDoc : SlotDoc} (hslot : (w.store (.adSpaceCampaignSlot slot)).get = some (cas, slotDoc)) :
    (∃ profile, (w.store (.userAccount slotDoc.slotFilledWith.username)).current = some profile ∧
      (debitsFor w.store slotDoc.slotFilledWith.username slot = [] ∧
          profile.slotToAttemptToFillAkaPurchase = some slot ∨
        debitsFor w.store slotDoc.slotFilledWith.username slot = [slotDoc.purchasePrice])) ∧
    (∀ u, u ≠ slotDoc.slotFilledWith.username → debitsFor w.store u slot = []) ∧
    ∀ u c price before after, (w.store (.userAccount u)).docAt c = some before →
      (w.store (.userAccount u)).version (c + 1) = some ⟨.debit slot price, after⟩ →
      after.balanceInSatoshis = before.balanceInSatoshis - slotDoc.purchasePrice := by
  obtain ⟨hok, -⟩ := purchases_of_reaches hstart hprocesses hreach
  have hfilled := hok.filledWith_of_get hslot
  refine ⟨hok.debitsFor_buyer hfilled, fun u hu => hok.debitsFor_of_ne hfilled hu, ?_⟩
  intro u c price before after hbefore hdebit
  obtain ⟨-, slotDoc', hfilled', -, rfl⟩ := hok.debits u _ slot price after hdebit
  obtain rfl := hfilled.unique hfilled'
  obtain ⟨-, rfl⟩ := hok.accounts.history u c before _ hbefore hdebit
  rfl

/-- A campaign on which nothing was sold yet, and one user with one ad. -/
def oneCampaign : Db :=
  let st : Db := fun _ => Cell.absent
  let st := st.push (.userAccount "buyer") .document { balanceInSatoshis := 10 }
  let st := st.push (.adSpaceSlotFiller ⟨"buyer", 0⟩) .document ⟨"buyer", "ad -- 1x1"⟩
  let st := st.push (.adSpaceAllSlotFillers "buyer") .document ⟨1, [(0, "ad -- 1x1")]⟩
  st.push (.adSpaceCampaign d3faultCampaign0) .document
    { minPrice := 2, slotLengthHours := 1, adImageWidth := "1", adImageHeight := "1" }

lemma oneCampaign_purchasesStart : PurchasesStart oneCampaign :=
  (((PurchasesStart.empty.register rfl (.of_not_locked rfl rfl) rfl).createSlotFiller
    ⟨"buyer", 0⟩ "ad -- 1x1").create _ _ (by simp) (by simp) (by simp)
      (by simp)).create _ _ (by simp)
    (by simp) (by simp) (by simp)

/-- A session that logs in and buys, up to where the slot is filled and the account not yet
debited. -/
def buyUntilFilled : List ProcessInput :=
  let proceed := .session (.proceed 0)
  [.session (.campaignUpdate 1),
    .session (.handleLoginButtonClicked "buyer" fun _ => ""), proceed, proceed,
    .session .buySlotStep1ButtonClicked, proceed, proceed,
    .session (.buySlotStep2ButtonClicked 0), proceed, proceed, proceed, proceed, proceed, proceed,
    proceed]

def oneBuyer : System Unit where
  store := oneCampaign
  client _ := .session { members := { ajax := true, campaign := d3faultCampaign0 } }

/-- If the session stops there, its user stays locked toward the slot. -/
theorem buyer_debited_once_oneBuyer :
    let w := oneBuyer.run (Process.act ⟨1, 1, 1⟩) (buyUntilFilled.map fun x => ((), x))
    ∃ profile, (w.store (.userAccount "buyer")).current = some profile ∧
      (debitsFor w.store "buyer" ⟨d3faultCampaign0, 0⟩ = [] ∧
          profile.slotToAttemptToFillAkaPurchase = some ⟨d3faultCampaign0, 0⟩ ∨
        debitsFor w.store "buyer" ⟨d3faultCampaign0, 0⟩ = [2]) := by
  intro w
  have hslot : (w.store (.adSpaceCampaignSlot ⟨d3faultCampaign0, 0⟩)).get =
      some (1, ⟨0, 0, 2, ⟨"buyer", 0⟩⟩) := by decide +kernel
  exact (buyer_debited_once oneCampaign_purchasesStart (fun _ => .session _ _)
    (reaches_run _ _) hslot).1

end Autobackup.Abc2
