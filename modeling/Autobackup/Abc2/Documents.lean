import Autobackup.Foundation.Interleaving
import Autobackup.Abc2.Satoshi

/-!
# The documents of Anonymous Bitcoin Computing 2

Every program of Abc2 (the Wt front end, the one-second recoverer, the transaction creditor and
the withdrawal processor) talks to the others only through JSON documents in couchbase.  This
file fixes the documents, the keys they live under and the notes the writers leave in the
history of the store.

A key is the constructor of the source's key builder applied to the builder's arguments
(`userAccountKey`, `adSpaceCampaignSlotKey`, …), so two keys are equal exactly when builder and
arguments are.  JSON fields that may be missing are `Option`s, amounts are in satoshis (`ℤ`) and
timestamps are rationals.  Fields that no modelled function reads or writes (the image of an
ad, the disallowed categories of a campaign) are left out.
-/

namespace Autobackup.Abc2

abbrev Username := String

/-- A bitcoin address, as stored on the key pages. -/
abbrev BitcoinKey := String

/-! ## Keys -/

/-- `adSpaceCampaignKey(usernameOfCampaignOwner, campaignIndex)`. -/
structure CampaignKey where
  usernameOfCampaignOwner : Username
  campaignIndex : ℕ
  deriving DecidableEq, Repr, Inhabited

/-- The arguments of `adSpaceCampaignSlotKey` and of `transactionKey`: the transaction document
of a purchase has the same owner, campaign and slot index as the slot it pays for. -/
structure SlotKey where
  campaign : CampaignKey
  slotIndex : ℕ
  deriving DecidableEq, Repr, Inhabited

/-- `adSpaceSlotFillerKey(username, slotFillerIndex)`. -/
structure SlotFillerKey where
  username : Username
  slotFillerIndex : ℕ
  deriving DecidableEq, Repr, Inhabited

/-- `withdrawFundsRequestKey(username, withdrawFundsRequestIndex)`. -/
structure WithdrawFundsRequestKey where
  username : Username
  withdrawFundsRequestIndex : ℕ
  deriving DecidableEq, Repr, Inhabited

/-- `m_PerGetBitcoinKeyUUID`, the identity of one request for a deposit address. -/
abbrev GetKeyUuid := ℕ

inductive Key
  | userAccount (username : Username)
  | adSpaceCampaign (k : CampaignKey)
  | adSpaceCampaignSlot (k : SlotKey)
  | adSpaceCampaignSlotCache (k : CampaignKey)
  | transaction (k : SlotKey)
  | adSpaceSlotFiller (k : SlotFillerKey)
  | adSpaceAllSlotFillers (username : Username)
  | bitcoinKeySetCurrentPage (setN : ℕ)
  | bitcoinKeySetPage (setN pageY : ℕ)
  | hugeBitcoinKeyListCurrentPage
  | hugeBitcoinKeyListPage (pageZ : ℕ)
  /-- Not a couchbase key: the register of the request uuids drawn so far, by which the model
  says that `sha1` of user name, session id, time and set never gives the same uuid twice. -/
  | uuidPerKeyRequest (uuid : GetKeyUuid)
  /-- Not a couchbase key either: the ads of a campaign that the API has sent, one version for every
  response. -/
  | apiResponses (k : CampaignKey)
  deriving DecidableEq, Repr

/-! ## Documents -/

/-- `bitcoinState` with the fields that accompany each of its values. -/
inductive BitcoinState
  | NoKey
  | GettingKey (bitcoinStateData bitcoinSetPage : ℕ) (uuidPerKey : GetKeyUuid)
  | HaveKey (bitcoinStateData : BitcoinKey)
  deriving DecidableEq, Repr, Inhabited

/-- A user account, also called profile.  The whole document is read and written at once, so a
program that rewrites one field of it writes back the others as it has read them. -/
structure UserAccount where
  balanceInSatoshis : ℤ
  passwordHash : String := ""
  passwordSalt : String := ""
  apiKey : String := ""
  slotToAttemptToFillAkaPurchase : Option SlotKey := none
  slotToAttemptToFillAkaPurchaseItWith : Option SlotFillerKey := none
  lockedWithdrawingFunds : Option WithdrawFundsRequestKey := none
  lockedCredittingTransaction : Option SlotKey := none
  bitcoinState : BitcoinState := .NoKey
  deriving DecidableEq, Repr, Inhabited

/-- `lastSlotFilledAkaPurchased` inside a campaign document. -/
structure LastSlotFilled where
  slotIndex : ℕ
  purchaseTimestamp : ℚ
  startTimestamp : ℚ
  purchasePrice : ℤ
  deriving DecidableEq, Repr, Inhabited

/-- What a campaign offers, and the last slot that it knows to be sold.  The next price and the next
start are computed from these and the clock. -/
structure CampaignDoc where
  minPrice : ℤ
  slotLengthHours : ℚ
  adImageWidth : String
  adImageHeight : String
  lastSlotFilledAkaPurchased : Option LastSlotFilled := none
  deriving DecidableEq, Repr, Inhabited

/-- A slot that was sold: who bought it, with which ad, and at which price.  It is added once, and
this is what makes a purchase final. -/
structure SlotDoc where
  purchaseTimestamp : ℚ
  startTimestamp : ℚ
  purchasePrice : ℤ
  slotFilledWith : SlotFillerKey
  deriving DecidableEq, Repr, Inhabited

inductive TxCredittedState
  | txUncreditted
  | txCreditted
  deriving DecidableEq, Repr, Inhabited

structure TransactionDoc where
  buyer : Username
  seller : Username
  amountInSatoshis : ℤ
  txCredittedState : TxCredittedState
  deriving DecidableEq, Repr, Inhabited

def createTransactionDoc (seller buyer : Username) (amountInSatoshis : ℤ) : TransactionDoc where
  buyer := buyer
  seller := seller
  amountInSatoshis := amountInSatoshis
  txCredittedState := .txUncreditted

/-- An ad.  Nicknames are stored in base64, which is left out. -/
structure SlotFillerDoc where
  username : Username
  nickname : String := ""
  deriving DecidableEq, Repr, Inhabited

/-- `adsCount`, and next to it in the JSON object a nickname under the index of every ad. -/
structure AllSlotFillersDoc where
  adsCount : ℕ
  nicknames : List (ℕ × String)
  deriving DecidableEq, Repr, Inhabited

/-- The nickname under an index. -/
def AllSlotFillersDoc.nickname (doc : AllSlotFillersDoc) (index : ℕ) : Option String :=
  doc.nicknames.lookup index

/-- `uuidPerFill`, built by the source as `setN + "_" + pageY`. -/
structure FillUuid where
  setN : ℕ
  pageY : ℕ
  deriving DecidableEq, Repr, Inhabited

/-- The current-page document of a bitcoin key set.  The source never merges the two forms: a
lock replaces the whole document, and so does an unlock. -/
inductive KeySetCurrentPageDoc
  | currentPage (pageY : ℕ)
  | fillingNextBitcoinKeySetPage (pageY : ℕ) (uuidPerFill : FillUuid)
      (hugeBitcoinKeyListStartingPage : ℕ)
  deriving DecidableEq, Repr, Inhabited

/-- One place on a key set page: a key and, once claimed, who claimed it. -/
structure KeyPlace where
  key : BitcoinKey
  claimed : Option (GetKeyUuid × Username) := none
  deriving DecidableEq, Repr, Inhabited

/-- One comma separated range on a page of the huge key list. -/
structure KeyRange where
  keys : List BitcoinKey
  claimedUuid : Option FillUuid := none
  deriving DecidableEq, Repr, Inhabited

/-- What the API remembers of a campaign between two requests. -/
structure CampaignSlotCacheDoc where
  currentSlot : ℕ
  numApiRequestsForCurrentSlot : ℕ
  slotLengthHours : ℚ
  apiKey : String
  deriving DecidableEq, Repr, Inhabited

/-- An ad that was sent: the slot it was sent for, and how many were sent for that slot with it, as
far as the connection that has sent it knows. -/
structure ApiResponse where
  slotIndex : ℕ
  numApiRequestsForThisAdSlotSoFar : ℕ
  deriving DecidableEq, Repr, Inhabited

/-- What goes into the seed of a request uuid, besides session and time. -/
structure KeyRequest where
  username : Username
  setN : ℕ
  deriving DecidableEq, Repr, Inhabited

/-- The document type of each key. -/
@[reducible] def Doc : Key → Type
  | .userAccount _ => UserAccount
  | .adSpaceCampaign _ => CampaignDoc
  | .adSpaceCampaignSlot _ => SlotDoc
  | .adSpaceCampaignSlotCache _ => CampaignSlotCacheDoc
  | .transaction _ => TransactionDoc
  | .adSpaceSlotFiller _ => SlotFillerDoc
  | .adSpaceAllSlotFillers _ => AllSlotFillersDoc
  | .bitcoinKeySetCurrentPage _ => KeySetCurrentPageDoc
  | .bitcoinKeySetPage _ _ => List KeyPlace
  | .hugeBitcoinKeyListCurrentPage => ℕ
  | .hugeBitcoinKeyListPage _ => List KeyRange
  | .uuidPerKeyRequest _ => KeyRequest
  | .apiResponses _ => ApiResponse

/-! ## Notes -/

/-- What a write is for.  Only writes of accounts say more than that they happened. -/
inductive Note
  /-- The account was locked toward the slot. -/
  | lockToward (slot : SlotKey)
  /-- The price of the slot was taken and the lock toward it removed. -/
  | debit (slot : SlotKey) (price : ℤ)
  /-- The lock toward the slot was removed, nothing was taken. -/
  | unlockWithoutDebit (slot : SlotKey)
  /-- The account was locked toward the transaction. -/
  | lockToCredit (tx : SlotKey)
  /-- The amount was added for the transaction and the lock toward it removed. -/
  | credit (tx : SlotKey) (amount : ℤ)
  /-- The account entered `GettingKey`. -/
  | gettingKey
  /-- The account entered `HaveKey`. -/
  | haveKey
  /-- A confirmed deposit was added and the account went back to `NoKey`. -/
  | deposit (amount : ℤ)
  /-- A document other than an account. -/
  | document
  deriving DecidableEq, Repr

/-- The store the Abc2 programs share. -/
abbrev Db := Store Note Doc

/-- What an Abc2 program does next, with `σ` its own state. -/
abbrev DbAction (σ : Type) := Action Note Doc σ

/-! ## Locked profiles -/

namespace UserAccount

/-- A profile is locked while it is tied to a slot, a withdrawal or a transaction. -/
def profileIsLocked (profile : UserAccount) : Bool :=
  if profile.slotToAttemptToFillAkaPurchase.isSome then true
  else if profile.lockedWithdrawingFunds.isSome then true
  else if profile.lockedCredittingTransaction.isSome then true
  else false

lemma profileIsLocked_eq_false {profile : UserAccount} :
    profile.profileIsLocked = false ↔ profile.slotToAttemptToFillAkaPurchase = none ∧
      profile.lockedWithdrawingFunds = none ∧ profile.lockedCredittingTransaction = none := by
  unfold profileIsLocked
  cases profile.slotToAttemptToFillAkaPurchase <;> cases profile.lockedWithdrawingFunds <;>
    cases profile.lockedCredittingTransaction <;> simp

/-- At most one of the three locks is present. -/
structure LocksExclusive (profile : UserAccount) : Prop where
  slot : profile.slotToAttemptToFillAkaPurchase ≠ none →
    profile.lockedWithdrawingFunds = none ∧ profile.lockedCredittingTransaction = none
  withdrawing : profile.lockedWithdrawingFunds ≠ none → profile.lockedCredittingTransaction = none

lemma LocksExclusive.of_not_locked {profile : UserAccount} (h : profile.profileIsLocked = false) :
    profile.LocksExclusive := by
  obtain ⟨hslot, hwithdraw, hcredit⟩ := profileIsLocked_eq_false.1 h
  exact ⟨fun h => absurd hslot h, fun h => absurd hwithdraw h⟩

end UserAccount

end Autobackup.Abc2
