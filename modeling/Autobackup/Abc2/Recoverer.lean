import Autobackup.Abc2.Documents

/-!
# The one-second recoverer

`Abc2PessimisticStateMonitorAndRecoverer` looks, about every ten seconds, at the slot after the
campaign's last one.  If that slot exists although the campaign document does not say so, the
session that filled it may have stopped half way, and the recoverer finishes its work: the
transaction document, the debit that also unlocks the buyer's account, the campaign document.

The program is one loop with a chain of synchronous couchbase calls.  A `RecovererPhase` is a
place in the loop where a call is made, carrying the locals (`pt4`, `pt2`, `pt6`, …) that are
still needed; every `continue` of the source leads back to `sleeping` and every `return 1` to
`returned`.  Waiting is not modelled, since the recoverer may be scheduled at any time.
-/

namespace Autobackup.Abc2

/-- The campaign whose keys are written into the recoverer's source. -/
def d3faultCampaign0 : CampaignKey := ⟨"d3fault", 0⟩

/-- The locals of recovery mode. -/
structure Recovery where
  /-- `slotIndexForSlotThatShouldntExistButMight` -/
  slotIndex : ℕ
  /-- `pt4` -/
  slotDoc : SlotDoc
  /-- `pt2` -/
  campaignDoc : CampaignDoc
  campaignDocToUpdateCAS : ℕ
  deriving DecidableEq, Repr, Inhabited

/-- The buyer's account as the recoverer read it. -/
structure Buyer where
  usernameOfBuyer : Username
  userAccountCas : ℕ
  /-- `pt6` -/
  userAccount : UserAccount
  deriving DecidableEq, Repr, Inhabited

inductive RecovererPhase
  | sleeping
  | getSlotThatShouldntExist (slotIndex : ℕ)
  | getCampaignDocAgain (slotIndex : ℕ) (slotDoc : SlotDoc)
  | getTransaction (x : Recovery)
  | getSlotFiller (x : Recovery)
  | getUserAccount (x : Recovery) (transactionDocExists : Bool) (usernameOfBuyer : Username)
  | getTransactionAgain (x : Recovery)
  | addTransaction (x : Recovery) (b : Buyer)
  | debitAndUnlock (x : Recovery) (b : Buyer)
  | updateCampaignDoc (x : Recovery)
  /-- `return 1` -/
  | returned
  deriving DecidableEq, Repr, Inhabited

namespace Recovery

/-- `slotThatShouldntExistAkaBeFilledButMightKey`, also the arguments of `transactionDocKey`. -/
def slot (x : Recovery) : SlotKey := ⟨d3faultCampaign0, x.slotIndex⟩

/-- The campaign document with the recovered slot as its last one. -/
def updatedCampaignDoc (x : Recovery) : CampaignDoc :=
  { x.campaignDoc with
    lastSlotFilledAkaPurchased := some
      { slotIndex := x.slotIndex
        purchaseTimestamp := x.slotDoc.purchaseTimestamp
        startTimestamp := x.slotDoc.startTimestamp
        purchasePrice := x.slotDoc.purchasePrice } }

end Recovery

/-- `DO_COUCHBASE_CAS_SWAP_ACCEPTING_FAIL_OF_USER_ACCOUNT_DEBIT_AND_UNLOCK` -/
def UserAccount.debittedAndUnlocked (profile : UserAccount) (purchasePrice : ℤ) : UserAccount :=
  { profile with
    balanceInSatoshis := profile.balanceInSatoshis - purchasePrice
    slotToAttemptToFillAkaPurchase := none
    slotToAttemptToFillAkaPurchaseItWith := none }

namespace RecovererPhase

/-- After an accepting-fail write: go on if it succeeded, start over if somebody else was
faster. -/
def continueIfStored (next : RecovererPhase) : Reply → RecovererPhase
  | .stored _ => next
  | .keyExists => sleeping
  | .keyMissing => returned

def afterCampaignDoc : Option (ℕ × CampaignDoc) → RecovererPhase
  | none => returned
  | some (_, doc) =>
      match doc.lastSlotFilledAkaPurchased with
      | none => getSlotThatShouldntExist 0
      | some last => getSlotThatShouldntExist (last.slotIndex + 1)

def afterSlot (slotIndex : ℕ) : Option (ℕ × SlotDoc) → RecovererPhase
  | none => sleeping
  | some (_, slotDoc) => getCampaignDocAgain slotIndex slotDoc

def afterCampaignDocAgain (slotIndex : ℕ) (slotDoc : SlotDoc) :
    Option (ℕ × CampaignDoc) → RecovererPhase
  | none => returned
  | some (cas, doc) =>
      let recover := getTransaction
        { slotIndex := slotIndex, slotDoc := slotDoc, campaignDoc := doc
          campaignDocToUpdateCAS := cas }
      match doc.lastSlotFilledAkaPurchased with
      | none => recover
      -- the session that filled the slot has written it down meanwhile
      | some last => if last.slotIndex ≥ slotIndex then sleeping else recover

def afterTransaction (x : Recovery) : Option (ℕ × TransactionDoc) → RecovererPhase
  | none => getSlotFiller x
  | some (_, doc) => getUserAccount x true doc.buyer

def afterSlotFiller (x : Recovery) : Option (ℕ × SlotFillerDoc) → RecovererPhase
  | none => returned
  | some (_, doc) => getUserAccount x false doc.username

def afterUserAccount (x : Recovery) (transactionDocExists : Bool) (usernameOfBuyer : Username) :
    Option (ℕ × UserAccount) → RecovererPhase
  | none => returned
  | some (cas, doc) =>
      let b : Buyer := ⟨usernameOfBuyer, cas, doc⟩
      let pointingAtSlotJustFilled := decide (doc.slotToAttemptToFillAkaPurchase = some x.slot)
      if !transactionDocExists then
        if !pointingAtSlotJustFilled then
          -- no transaction, and no lock toward the slot: another recoverer may just have done both
          if doc.profileIsLocked then sleeping else getTransactionAgain x
        else addTransaction x b
      else if pointingAtSlotJustFilled then debitAndUnlock x b
      else if doc.profileIsLocked then sleeping
      -- debited and unlocked already: only the campaign is left
      else updateCampaignDoc x

/-- The account is unlocked and there is still no transaction: total system failure. -/
def afterTransactionAgain : Option (ℕ × TransactionDoc) → RecovererPhase
  | none => returned
  | some _ => sleeping

def act : RecovererPhase → DbAction RecovererPhase
  | sleeping => .get (.adSpaceCampaign d3faultCampaign0) afterCampaignDoc
  | getSlotThatShouldntExist slotIndex =>
      .get (.adSpaceCampaignSlot ⟨d3faultCampaign0, slotIndex⟩) (afterSlot slotIndex)
  | getCampaignDocAgain slotIndex slotDoc =>
      .get (.adSpaceCampaign d3faultCampaign0) (afterCampaignDocAgain slotIndex slotDoc)
  | getTransaction x => .get (.transaction x.slot) (afterTransaction x)
  | getSlotFiller x => .get (.adSpaceSlotFiller x.slotDoc.slotFilledWith) (afterSlotFiller x)
  | getUserAccount x transactionDocExists usernameOfBuyer =>
      .get (.userAccount usernameOfBuyer)
        (afterUserAccount x transactionDocExists usernameOfBuyer)
  | getTransactionAgain x => .get (.transaction x.slot) afterTransactionAgain
  | addTransaction x b =>
      .add (.transaction x.slot) .document
        (createTransactionDoc d3faultCampaign0.usernameOfCampaignOwner b.usernameOfBuyer
          x.slotDoc.purchasePrice)
        (continueIfStored (debitAndUnlock x b))
  | debitAndUnlock x b =>
      .set (.userAccount b.usernameOfBuyer) (.debit x.slot x.slotDoc.purchasePrice)
        (b.userAccount.debittedAndUnlocked x.slotDoc.purchasePrice) b.userAccountCas
        (continueIfStored (updateCampaignDoc x))
  | updateCampaignDoc x =>
      .set (.adSpaceCampaign d3faultCampaign0) .document x.updatedCampaignDoc
        x.campaignDocToUpdateCAS (continueIfStored sleeping)
  | returned => .pause returned

end RecovererPhase

end Autobackup.Abc2
