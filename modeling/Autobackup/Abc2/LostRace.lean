import Autobackup.Abc2.CreditorRuns

/-!
# A lost race for a seller's profile

Between the creditor's read of a profile and its lock another program may write the profile.  Then
the lock is refused, and the creditor reads the profile again, to back off to a neighbour that is
creditting or to leave the seller alone for the rest of the run.

It does neither: the stream that it parses is not the document it has read, but an empty one, and
`read_json` throws (`lost_race_throws`).
-/

namespace Autobackup.Abc2

/-- A run whose lock of a profile is refused.  Other programs may have written again when it reads
the profile once more. -/
structure LostRace where
  run : Creditor
  row : CreditorRow
  sellerAccountDocCas : ℕ
  sellerAccountDoc : UserAccount
  phase : run.phase = .lockSeller row sellerAccountDocCas sellerAccountDoc
  db : Db
  /-- The profile was there when it was read, and has another version now. -/
  cas_ne_zero : sellerAccountDocCas ≠ 0
  cas_ne : sellerAccountDocCas ≠ (db (.userAccount row.transactionDoc.seller)).cas
  exists_profile : (db (.userAccount row.transactionDoc.seller)).cas ≠ 0
  dbLater : Db
  le : db ≤ dbLater

namespace LostRace

variable (r : LostRace)

/-- The lock is refused with `LCB_KEY_EEXISTS`. -/
def refused : Db × Creditor := perform r.db r.run.act

/-- The profile is read again. -/
def readAgain : Db × Creditor := perform r.dbLater r.refused.2.act

/-- The profile that is read again. -/
def profileThatJustCasSwapFailed : Option UserAccount :=
  (r.dbLater (.userAccount r.row.transactionDoc.seller)).current

/-- The run ends with `false` if a neighbour is creditting, and goes on with the next row and
without that seller otherwise.  It has not written anything. -/
structure IsTolerated : Prop where
  db_refused : r.refused.1 = r.db
  db_readAgain : r.readAgain.1 = r.dbLater
  doesNotThrow : r.readAgain.2.phase ≠ .threw
  backsOff : ∀ profile, r.profileThatJustCasSwapFailed = some profile →
    profile.lockedCredittingTransaction ≠ none → r.readAgain.2.phase = .finished false
  goesOn : ∀ profile, r.profileThatJustCasSwapFailed = some profile →
    profile.lockedCredittingTransaction = none → r.readAgain.2 =
      { r.run with
        usersWithProfilesFoundLocked :=
          r.row.transactionDoc.seller :: r.run.usersWithProfilesFoundLocked }.nextRow

variable {r}

lemma refused_eq : r.refused = (r.db, { r.run with phase := .getSellerAgain r.row }) := by
  have hact : r.run.act = .set (.userAccount r.row.transactionDoc.seller)
      (.lockToCredit r.row.key) (r.sellerAccountDoc.lockedToCredit r.row.key)
        r.sellerAccountDocCas
        (r.run.afterLock r.row (r.sellerAccountDoc.lockedToCredit r.row.key)) := by
    rw [Creditor.act, r.phase]
  rw [refused, hact, perform, if_neg (not_or.2 ⟨r.cas_ne_zero, r.cas_ne⟩),
    if_neg r.exists_profile]
  rfl

/-- A profile is never removed. -/
lemma exists_get : ∃ read, (r.dbLater (.userAccount r.row.transactionDoc.seller)).get =
    some read := by
  rw [← Option.ne_none_iff_exists', Ne, Cell.get_eq_none]
  have hle := Cell.cas_mono (r.le (.userAccount r.row.transactionDoc.seller))
  have hexists := r.exists_profile
  omega

/-- **A lost race always aborts the run:** it throws, whatever the profile that is read again
says. -/
theorem lost_race_throws (r : LostRace) : r.readAgain.2.phase = .threw ∧ ¬r.IsTolerated := by
  have hthrew : r.readAgain.2.phase = .threw := by
    obtain ⟨read, hread⟩ := r.exists_get
    rw [readAgain, refused_eq]
    change (Creditor.afterSellerAgain _
      (r.dbLater (.userAccount r.row.transactionDoc.seller)).get).phase = _
    rw [hread]
    rfl
  exact ⟨hthrew, fun h => h.doesNotThrow hthrew⟩

/-- The second run locks the profile between the first one's read and lock. -/
def creditorOvertook : CreditorRuns Bool :=
  (creditorRuns Bool).run Creditor.run
    (List.replicate 2 (false, ()) ++ List.replicate 3 (true, ()))

/-- The first run loses against the second one. -/
def lostToNeighbour : LostRace where
  run := creditorOvertook.client false
  row := ⟨⟨d3faultCampaign0, 0⟩, 1, createTransactionDoc "seller" "buyer" 1000⟩
  sellerAccountDocCas := 1
  sellerAccountDoc := { balanceInSatoshis := 5 }
  phase := by decide +kernel
  db := creditorOvertook.store
  cas_ne_zero := by decide
  cas_ne := by decide +kernel
  exists_profile := by decide +kernel
  dbLater := creditorOvertook.store
  le := fun _ => Cell.le_refl _

/-- A neighbour is creditting, and the first run throws instead of backing off. -/
theorem not_isTolerated_lostToNeighbour : ¬∀ r : LostRace, r.IsTolerated := fun h =>
  absurd (by decide +kernel) (h lostToNeighbour).doesNotThrow

end LostRace

end Autobackup.Abc2
