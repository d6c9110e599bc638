import Autobackup.Abc2.Documents

/-!
# The transaction creditor

`Abc2TransactionCreditor` pays sellers.  A run takes a list of transaction keys from a view
query, which may be stale, and for each of them reads the transaction, reads the seller's
profile, locks the profile toward the transaction, marks the transaction creditted, and adds the
amount less the fee to the balance while unlocking the profile.

`Creditor` is one run.  Its phase is the couchbase call about to be made in
`creditTransactionIfStateReallyIsUncreditted…`, with the locals that are still needed; returning
`true` moves on to the next row (`nextRow`), returning `false` ends the run.
-/

namespace Autobackup.Abc2

open Binary64

/-- The locals of one row, once the transaction was read. -/
structure CreditorRow where
  /-- `keyToTransactionMaybeWithStateOfUncreditted` -/
  key : SlotKey
  transactionDocCas : ℕ
  transactionDoc : TransactionDoc
  deriving DecidableEq, Repr, Inhabited

inductive CreditorPhase
  | getTransaction (key : SlotKey)
  | getSeller (x : CreditorRow)
  | lockSeller (x : CreditorRow) (sellerAccountDocCas : ℕ) (sellerAccountDoc : UserAccount)
  /-- The lock was refused: look whether a neighbour is creditting. -/
  | getSellerAgain (x : CreditorRow)
  | setTransactionCreditted (x : CreditorRow) (sellerAccountDoc : UserAccount)
      (sellerAccountLockedToCredittingTransactionCas : ℕ)
  | creditAndUnlockSeller (x : CreditorRow) (sellerAccountDoc : UserAccount)
      (sellerAccountLockedToCredittingTransactionCas : ℕ)
  /-- `transactionCredittingFinished(success)` -/
  | finished (success : Bool)
  /-- `read_json` threw. -/
  | threw
  deriving DecidableEq, Repr, Inhabited

structure Creditor where
  /-- The rows of the view query that are still to come. -/
  rows : List SlotKey
  usersWithProfilesFoundLocked : List Username := []
  totalAmountCreditted : ℤ := 0
  totalAmountEarned : ℤ := 0
  phase : CreditorPhase
  deriving DecidableEq, Repr, Inhabited

/-- The fee for a transaction of that amount, in doubles. -/
def transactionFeeInSatoshis (transactionAmountInSatoshis : ℤ) : ℤ :=
  jsonDoubleToSatoshiIntIncludingRounding roundToDouble
    (transactionFeeForTransactionAmount roundToDouble
      (satoshiIntToJsonDouble roundToDouble transactionAmountInSatoshis))

-- 15 satoshis exactly, but the double that 0.015 stands for is a little more
example : transactionFeeInSatoshis 1000 = 16 := by decide +kernel

namespace CreditorRow

def transactionFeeInSatoshis (x : CreditorRow) : ℤ :=
  Abc2.transactionFeeInSatoshis x.transactionDoc.amountInSatoshis

def transactionAmountAfterFeeInSatoshis (x : CreditorRow) : ℤ :=
  x.transactionDoc.amountInSatoshis - x.transactionFeeInSatoshis

end CreditorRow

/-- The seller's profile with the lock toward `key`. -/
def UserAccount.lockedToCredit (profile : UserAccount) (key : SlotKey) : UserAccount :=
  { profile with lockedCredittingTransaction := some key }

/-- The seller's profile with the amount and without the lock. -/
def UserAccount.credittedAndUnlocked (profile : UserAccount) (amount : ℤ) : UserAccount :=
  { profile with
    balanceInSatoshis := profile.balanceInSatoshis + amount
    lockedCredittingTransaction := none }

namespace Creditor

/-- Go on with the next row of the view query. -/
def nextRow (s : Creditor) : Creditor :=
  match s.rows with
  | [] => { s with phase := .finished true }
  | key :: rows => { s with rows := rows, phase := .getTransaction key }

/-- `creditTransactions`, after the view query. -/
def creditTransactions (rows : List SlotKey) : Creditor :=
  nextRow { rows := rows, phase := .finished true }

/-- The row function returned `false`. -/
def stopIterating (s : Creditor) : Creditor := { s with phase := .finished false }

def afterTransaction (s : Creditor) (key : SlotKey) : Option (ℕ × TransactionDoc) → Creditor
  | none => s.stopIterating
  | some (cas, doc) =>
      -- the view was stale, or another run was faster
      if doc.txCredittedState ≠ .txUncreditted then s.nextRow
      -- a seller that was found locked is left alone for the rest of the run
      else if doc.seller ∈ s.usersWithProfilesFoundLocked then s.nextRow
      else { s with phase := .getSeller ⟨key, cas, doc⟩ }

def afterSeller (s : Creditor) (x : CreditorRow) : Option (ℕ × UserAccount) → Creditor
  | none => s.stopIterating
  | some (cas, doc) =>
      if doc.profileIsLocked then
        { s with
          usersWithProfilesFoundLocked :=
            x.transactionDoc.seller :: s.usersWithProfilesFoundLocked }.nextRow
      else { s with phase := .lockSeller x cas doc }

def afterLock (s : Creditor) (x : CreditorRow) (sellerAccountDoc : UserAccount) :
    Reply → Creditor
  | .stored cas => { s with phase := .setTransactionCreditted x sellerAccountDoc cas }
  | .keyExists => { s with phase := .getSellerAgain x }
  | .keyMissing => s.stopIterating

/-- The document is fetched, but `profileThatJustCasSwapFailedIs` is default constructed and
stays empty, so `read_json` throws before the lock test is reached. -/
def afterSellerAgain (s : Creditor) : Option (ℕ × UserAccount) → Creditor
  | none => s.stopIterating
  | some _ => { s with phase := .threw }

def afterTransactionCreditted (s : Creditor) (x : CreditorRow) (sellerAccountDoc : UserAccount)
    (lockCas : ℕ) : Reply → Creditor
  | .stored _ =>
      { s with
        totalAmountEarned := s.totalAmountEarned +
          -- what d3fault sells is earned as a whole
          if x.transactionDoc.seller = "d3fault" then x.transactionDoc.amountInSatoshis
          else x.transactionFeeInSatoshis
        totalAmountCreditted := s.totalAmountCreditted + x.transactionAmountAfterFeeInSatoshis
        phase := .creditAndUnlockSeller x sellerAccountDoc lockCas }
  | _ => s.stopIterating

def afterCredit (s : Creditor) : Reply → Creditor
  | .stored _ => s.nextRow
  | _ => s.stopIterating

def act (s : Creditor) : DbAction Creditor :=
  match s.phase with
  | .getTransaction key => .get (.transaction key) (s.afterTransaction key)
  | .getSeller x => .get (.userAccount x.transactionDoc.seller) (s.afterSeller x)
  | .lockSeller x cas doc =>
      .set (.userAccount x.transactionDoc.seller) (.lockToCredit x.key)
        (doc.lockedToCredit x.key) cas (s.afterLock x (doc.lockedToCredit x.key))
  | .getSellerAgain x => .get (.userAccount x.transactionDoc.seller) s.afterSellerAgain
  | .setTransactionCreditted x doc lockCas =>
      .set (.transaction x.key) .document
        { x.transactionDoc with txCredittedState := .txCreditted } x.transactionDocCas
        (s.afterTransactionCreditted x doc lockCas)
  | .creditAndUnlockSeller x doc lockCas =>
      .set (.userAccount x.transactionDoc.seller)
        (.credit x.key x.transactionAmountAfterFeeInSatoshis)
        (doc.credittedAndUnlocked x.transactionAmountAfterFeeInSatoshis) lockCas s.afterCredit
  | .finished _ | .threw => .pause s

end Creditor

end Autobackup.Abc2
