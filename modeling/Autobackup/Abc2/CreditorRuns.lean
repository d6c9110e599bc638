import Autobackup.Abc2.SavedPurchases

/-!
# Any number of creditor runs

Runs of the transaction creditor may overlap.  A run holds a seller's profile from the moment it
has locked it until it has creditted and unlocked it, and the invariant `CreditsOk` says that at
most one run holds a profile, that every locked profile is held, and what has been creditted by
whom.

All of it rests on the transaction still being uncreditted when the profile gets locked.  The run
reads the transaction before the profile, and does not look at it again: another run may credit
and unlock in between.  `Creditor.NotOvertaken` is the condition that this does not happen.
With it nothing is left locked and everything is creditted once (`credits_clean`); without it
the lock stays for ever on a transaction that is creditted already (`credits_strand`).

The amounts are those of the source, with the fee as it rounds it in doubles
(`Autobackup.Abc2.Satoshi`); nothing in the invariant depends on the amount, only `CleanlyCreditted`
names it.  Purchases and recoveries run next to the creditor in `Autobackup.Abc2.NoLostUpdate`; here
are the creditor's own runs, which is where the lock may be left.
-/

namespace Autobackup.Abc2

/-! ## Vocabulary -/

/-- What the write added for the transaction. -/
def Note.creditFor (tx : SlotKey) : Note → Option ℤ
  | .credit tx' amount => if tx' = tx then some amount else none
  | _ => none

/-- Everything that was added to `u`'s balance for the transaction, one amount for each write. -/
def creditsFor (st : Db) (u : Username) (tx : SlotKey) : List ℤ :=
  (st (.userAccount u)).notes.filterMap (Note.creditFor tx)

/-- The amount less the fee. -/
def TransactionDoc.amountAfterFee (doc : TransactionDoc) : ℤ :=
  doc.amountInSatoshis - transactionFeeInSatoshis doc.amountInSatoshis

lemma creditsFor_push_account (st : Db) (u : Username) (note : Note) (doc : UserAccount)
    (tx : SlotKey) : creditsFor (st.push (.userAccount u) note doc) u tx =
      creditsFor st u tx ++ (note.creditFor tx).toList := by
  rw [creditsFor, Store.push_self, Cell.notes_push, List.filterMap_append]
  cases hnote : note.creditFor tx <;> simp [creditsFor, hnote]

lemma creditsFor_push_of_ne (st : Db) {k : Key} (note : Note) (doc : Doc k) {u : Username}
    (tx : SlotKey) (hk : Key.userAccount u ≠ k) :
    creditsFor (st.push k note doc) u tx = creditsFor st u tx := by
  rw [creditsFor, Store.push_of_ne st hk, creditsFor]

/-- The lock of a seller's profile in the hands of a run. -/
structure Hold where
  row : CreditorRow
  lockCas : ℕ
  /-- The transaction is marked creditted, and the amount not yet added. -/
  marked : Bool

namespace Creditor

/-- The lock a run holds. -/
def hold (s : Creditor) : Option Hold :=
  match s.phase with
  | .setTransactionCreditted x _ lockCas => some ⟨x, lockCas, false⟩
  | .creditAndUnlockSeller x _ lockCas => some ⟨x, lockCas, true⟩
  | _ => none

/-- The run is over. -/
def Returned (s : Creditor) : Prop := s.phase = .threw ∨ ∃ success, s.phase = .finished success

/-- When the run's lock of the profile is about to be accepted, the transaction is still the
version the run has read. -/
def NotOvertaken (st : Db) (s : Creditor) : Unit → Prop := fun _ =>
  match s.phase with
  | .lockSeller x cas _ => (st (.userAccount x.transactionDoc.seller)).cas = cas →
      (st (.transaction x.key)).cas = x.transactionDocCas
  | _ => True

variable {s : Creditor}

lemma hold_of_returned (h : s.Returned) : s.hold = none := by
  rcases h with hthrew | ⟨success, hfinished⟩
  · rw [hold, hthrew]
  · rw [hold, hfinished]

lemma hold_nextRow : s.nextRow.hold = none := by
  unfold nextRow
  split <;> rfl

end Creditor

/-! ## The transactions -/

/-- Between whom a transaction is and over how much never changes; every version but the first is
creditted. -/
def TransactionsOk (st : Db) : Prop :=
  ∀ k c doc, (st (.transaction k)).docAt c = some doc →
    ∃ first, (st (.transaction k)).docAt 1 = some first ∧ doc.seller = first.seller ∧
      doc.amountInSatoshis = first.amountInSatoshis ∧
      (1 < c → doc.txCredittedState = .txCreditted)

lemma TransactionsOk.push_transaction {st : Db} (h : TransactionsOk st) {k : SlotKey}
    {note : Note} {c : ℕ} {doc : TransactionDoc} (hdoc : (st (.transaction k)).docAt c = some doc) :
    TransactionsOk
      (st.push (.transaction k) note { doc with txCredittedState := .txCreditted }) := by
  intro k' c' doc' hdoc'
  have hst := Store.le_push st (.transaction k) note { doc with txCredittedState := .txCreditted }
  by_cases hk : k' = k
  · subst hk
    rw [Store.push_self, Cell.docAt_push] at hdoc'
    split at hdoc'
    · obtain rfl := Option.some.inj hdoc'
      obtain ⟨first, hfirst, hseller, hamount, -⟩ := h k' c doc hdoc
      exact ⟨first, Cell.docAt_mono (hst _) hfirst, hseller, hamount, fun _ => rfl⟩
    · obtain ⟨first, hfirst, hfacts⟩ := h k' c' doc' hdoc'
      exact ⟨first, Cell.docAt_mono (hst _) hfirst, hfacts⟩
  · rw [Store.push_of_ne st (fun he => hk (Key.transaction.inj he))] at hdoc' ⊢
    exact h k' c' doc' hdoc'

lemma TransactionsOk.push_other {st : Db} (h : TransactionsOk st) {k : Key} {note : Note}
    {doc : Doc k} (hk : ∀ k', k ≠ .transaction k') : TransactionsOk (st.push k note doc) := by
  intro k' c' doc'
  rw [Store.push_of_ne st (hk k').symm]
  exact h k' c' doc'

lemma TransactionsOk.of_uncreditted {st : Db} (h : TransactionsOk st) {k : SlotKey} {c : ℕ}
    {doc : TransactionDoc} (hdoc : (st (.transaction k)).docAt c = some doc)
    (hstate : doc.txCredittedState = .txUncreditted) : c = 1 := by
  obtain ⟨-, -, -, -, hcreditted⟩ := h k c doc hdoc
  have hb := Cell.docAt_bounds hdoc
  by_contra hne
  rw [hcreditted (by omega)] at hstate
  cases hstate

/-! ## Who holds what -/

/-- The locks on sellers' profiles, the runs that hold them, and what was creditted. -/
structure LocksOk {ι : Type} (st : Db) (hold : ι → Option Hold) : Prop where
  row : ∀ i b, hold i = some b →
    (st (.transaction b.row.key)).docAt b.row.transactionDocCas = some b.row.transactionDoc ∧
      b.row.transactionDoc.txCredittedState = .txUncreditted
  /-- A lock somebody holds is the current version of the profile. -/
  current : ∀ i b, hold i = some b →
    b.lockCas = (st (.userAccount b.row.transactionDoc.seller)).cas ∧
      ∃ profile, (st (.userAccount b.row.transactionDoc.seller)).current = some profile ∧
        profile.lockedCredittingTransaction = some b.row.key
  exclusive : ∀ i j b b', hold i = some b → hold j = some b' →
    b.row.transactionDoc.seller = b'.row.transactionDoc.seller → i = j
  /-- A profile locked toward a transaction is held by a run. -/
  held : ∀ u profile k, (st (.userAccount u)).current = some profile →
    profile.lockedCredittingTransaction = some k →
    ∃ i b, hold i = some b ∧ b.row.transactionDoc.seller = u ∧ b.row.key = k
  unmarked : ∀ i b, hold i = some b → b.marked = false → (st (.transaction b.row.key)).cas = 1
  marked : ∀ i b, hold i = some b → b.marked = true →
    1 < (st (.transaction b.row.key)).cas ∧ ∀ u, creditsFor st u b.row.key = []
  uncreditted : ∀ k, (st (.transaction k)).cas ≤ 1 → ∀ u, creditsFor st u k = []
  creditted : ∀ k first, (st (.transaction k)).docAt 1 = some first →
    first.txCredittedState = .txUncreditted → 1 < (st (.transaction k)).cas →
    (∃ i b, hold i = some b ∧ b.marked = true ∧ b.row.key = k) ∨
      creditsFor st first.seller k = [first.amountAfterFee]

namespace LocksOk

variable {ι : Type} {st : Db} {hold : ι → Option Hold} {i j : ι} {b b' : Hold}

/-- What the seller of a transaction is does not depend on the version. -/
lemma seller_eq (h : LocksOk st hold) (htx : TransactionsOk st) (hi : hold i = some b)
    {first : TransactionDoc} (hfirst : (st (.transaction b.row.key)).docAt 1 = some first) :
    b.row.transactionDoc.seller = first.seller ∧
      b.row.transactionDoc.amountAfterFee = first.amountAfterFee := by
  obtain ⟨first', hfirst', hseller, hamount, -⟩ := htx _ _ _ (h.row i b hi).1
  obtain rfl := Option.some.inj (hfirst.symm.trans hfirst')
  exact ⟨hseller, by rw [TransactionDoc.amountAfterFee, hamount]; rfl⟩

/-- Two runs that hold locks for the same transaction are one. -/
lemma eq_of_key (h : LocksOk st hold) (htx : TransactionsOk st) (hi : hold i = some b)
    (hj : hold j = some b') (hkey : b.row.key = b'.row.key) : i = j := by
  obtain ⟨first, hfirst, -⟩ := htx _ _ _ (h.row i b hi).1
  have hseller := (h.seller_eq htx hi hfirst).1
  rw [hkey] at hfirst
  exact h.exclusive i j b b' hi hj (hseller.trans (h.seller_eq htx hj hfirst).1.symm)

/-- Nothing was creditted for a transaction as long as its lock is held. -/
lemma creditsFor_of_hold (h : LocksOk st hold) (hi : hold i = some b) (u : Username) :
    creditsFor st u b.row.key = [] := by
  cases hmarked : b.marked with
  | false => exact h.uncreditted _ (Nat.le_of_eq (h.unmarked i b hi hmarked)) u
  | true => exact (h.marked i b hi hmarked).2 u

variable [DecidableEq ι]

/-- A run takes a lock. -/
lemma lock (h : LocksOk st hold) (hnone : hold i = none) {x : CreditorRow} {cas : ℕ}
    {base doc : UserAccount}
    (hrow : (st (.transaction x.key)).docAt x.transactionDocCas = some x.transactionDoc ∧
      x.transactionDoc.txCredittedState = .txUncreditted)
    (hcas : cas = (st (.userAccount x.transactionDoc.seller)).cas)
    (hbase : (st (.userAccount x.transactionDoc.seller)).docAt cas = some base)
    (hunlocked : base.lockedCredittingTransaction = none)
    (hdoc : doc.lockedCredittingTransaction = some x.key)
    (hpending : (st (.transaction x.key)).cas = 1) :
    LocksOk (st.push (.userAccount x.transactionDoc.seller) (.lockToCredit x.key) doc)
      (Function.update hold i (some ⟨x, cas + 1, false⟩)) := by
  -- nobody else holds this profile, because it is not locked
  have hfree {j : ι} {b : Hold} (hj : hold j = some b) :
      b.row.transactionDoc.seller ≠ x.transactionDoc.seller := by
    intro hseller
    obtain ⟨-, profile, hprofile, hlocked⟩ := h.current j b hj
    rw [hseller, Cell.current, ← hcas, hbase] at hprofile
    obtain rfl := Option.some.inj hprofile
    rw [hunlocked] at hlocked
    cases hlocked
  have hne {j : ι} {b : Hold} (hj : hold j = some b) :
      Key.userAccount b.row.transactionDoc.seller ≠ .userAccount x.transactionDoc.seller :=
    fun he => hfree hj (Key.userAccount.inj he)
  have hcredits (u : Username) (k : SlotKey) :
      creditsFor (st.push (.userAccount x.transactionDoc.seller) (.lockToCredit x.key) doc) u k =
        creditsFor st u k := by
    by_cases hu : u = x.transactionDoc.seller
    · subst hu
      rw [creditsFor_push_account]
      simp [Note.creditFor]
    · exact creditsFor_push_of_ne _ _ _ _ fun he => hu (Key.userAccount.inj he)
  have hcases {j : ι} {b : Hold}
      (hj : Function.update hold i (some ⟨x, cas + 1, false⟩) j = some b) :
      (j = i ∧ b = ⟨x, cas + 1, false⟩) ∨ hold j = some b := by
    by_cases hji : j = i
    · subst hji
      rw [Function.update_self] at hj
      exact .inl ⟨rfl, (Option.some.inj hj).symm⟩
    · rw [Function.update_of_ne hji] at hj
      exact .inr hj
  have hkeeps {j : ι} {b : Hold} (hj : hold j = some b) :
      Function.update hold i (some ⟨x, cas + 1, false⟩) j = some b := by
    rw [Function.update_of_ne (by rintro rfl; rw [hnone] at hj; cases hj)]
    exact hj
  constructor
  · intro j b hj
    rcases hcases hj with ⟨rfl, rfl⟩ | hj
    · simpa using hrow
    · simpa using h.row j b hj
  · intro j b hj
    rcases hcases hj with ⟨rfl, rfl⟩ | hj
    · refine ⟨?_, doc, ?_, hdoc⟩
      · rw [Store.push_self, Cell.cas_push, hcas]
      · rw [Store.push_self, Cell.current_push]
    · rw [Store.push_of_ne st (hne hj)]
      exact h.current j b hj
  · intro j j' b b' hj hj' hseller
    rcases hcases hj with ⟨rfl, rfl⟩ | hold_j
    · rcases hcases hj' with ⟨rfl, rfl⟩ | hold_j'
      · rfl
      · exact absurd hseller.symm (hfree hold_j')
    · rcases hcases hj' with ⟨rfl, rfl⟩ | hold_j'
      · exact absurd hseller (hfree hold_j)
      · exact h.exclusive j j' b b' hold_j hold_j' hseller
  · intro u profile k hprofile hlocked
    by_cases hu : u = x.transactionDoc.seller
    · subst hu
      rw [Store.push_self, Cell.current_push] at hprofile
      obtain rfl := Option.some.inj hprofile
      obtain rfl := Option.some.inj (hdoc.symm.trans hlocked)
      exact ⟨i, _, Function.update_self .., rfl, rfl⟩
    · rw [Store.push_of_ne st (fun he => hu (Key.userAccount.inj he))] at hprofile
      obtain ⟨j, b, hj, hfacts⟩ := h.held u profile k hprofile hlocked
      exact ⟨j, b, hkeeps hj, hfacts⟩
  · intro j b hj hmarked
    rcases hcases hj with ⟨rfl, rfl⟩ | hj
    · simpa using hpending
    · simpa using h.unmarked j b hj hmarked
  · intro j b hj hmarked
    rcases hcases hj with ⟨rfl, rfl⟩ | hj
    · cases hmarked
    · simpa [hcredits] using h.marked j b hj hmarked
  · intro k hk u
    rw [hcredits]
    exact h.uncreditted k (by simpa using hk) u
  · intro k first hfirst hstate hk
    rw [hcredits]
    rcases h.creditted k first (by simpa using hfirst) hstate (by simpa using hk) with
      ⟨j, b, hj, hfacts⟩ | hone
    · exact .inl ⟨j, b, hkeeps hj, hfacts⟩
    · exact .inr hone

/-- A run marks its transaction creditted. -/
lemma mark (h : LocksOk st hold) (htx : TransactionsOk st) {x : CreditorRow} {lockCas : ℕ}
    (hi : hold i = some ⟨x, lockCas, false⟩) (note : Note) :
    LocksOk (st.push (.transaction x.key) note
        { x.transactionDoc with txCredittedState := .txCreditted })
      (Function.update hold i (some ⟨x, lockCas, true⟩)) := by
  obtain ⟨hrow, hstate⟩ := h.row i _ hi
  have hone : (st (.transaction x.key)).cas = 1 := h.unmarked i _ hi rfl
  have hst := Store.le_push st (.transaction x.key) note
    { x.transactionDoc with txCredittedState := .txCreditted }
  have hcredits (u : Username) (k : SlotKey) : creditsFor (st.push (.transaction x.key) note
      { x.transactionDoc with txCredittedState := .txCreditted }) u k = creditsFor st u k :=
    creditsFor_push_of_ne _ _ _ _ (by simp)
  have hcases {j : ι} {b : Hold}
      (hj : Function.update hold i (some ⟨x, lockCas, true⟩) j = some b) :
      (j = i ∧ b = ⟨x, lockCas, true⟩) ∨ (hold j = some b ∧ x.key ≠ b.row.key) := by
    by_cases hji : j = i
    · subst hji
      rw [Function.update_self] at hj
      exact .inl ⟨rfl, (Option.some.inj hj).symm⟩
    · rw [Function.update_of_ne hji] at hj
      exact .inr ⟨hj, fun hkey => hji (h.eq_of_key htx hi hj hkey).symm⟩
  have hother {k : SlotKey} (hk : x.key ≠ k) :
      st.push (.transaction x.key) note { x.transactionDoc with txCredittedState := .txCreditted }
        (.transaction k) = st (.transaction k) :=
    Store.push_of_ne st (fun he => hk (Key.transaction.inj he).symm) _ _
  -- apart from the mark, everybody holds what they held
  have hsame {j : ι} {b : Hold} (hj : hold j = some b) :
      ∃ b', Function.update hold i (some ⟨x, lockCas, true⟩) j = some b' ∧ b'.row = b.row ∧
        b'.lockCas = b.lockCas ∧ (b.marked = true → b'.marked = true) := by
    by_cases hji : j = i
    · subst hji
      obtain rfl := Option.some.inj (hi.symm.trans hj)
      exact ⟨_, Function.update_self .., rfl, rfl, fun _ => rfl⟩
    · exact ⟨b, by rw [Function.update_of_ne hji]; exact hj, rfl, rfl, id⟩
  have hback {j : ι} {b : Hold} (hj : Function.update hold i (some ⟨x, lockCas, true⟩) j = some b) :
      ∃ b', hold j = some b' ∧ b'.row = b.row ∧ b'.lockCas = b.lockCas := by
    rcases hcases hj with ⟨rfl, rfl⟩ | ⟨hj, -⟩
    · exact ⟨_, hi, rfl, rfl⟩
    · exact ⟨b, hj, rfl, rfl⟩
  constructor
  · intro j b hj
    obtain ⟨b', hj', hrow, -⟩ := hback hj
    have := h.row j b' hj'
    rw [hrow] at this
    exact ⟨Cell.docAt_mono (hst _) this.1, this.2⟩
  · intro j b hj
    obtain ⟨b', hj', hrow, hcas⟩ := hback hj
    have := h.current j b' hj'
    rw [hrow, hcas] at this
    simpa using this
  · intro j j' b b' hj hj' hseller
    obtain ⟨c, hc, hrow, -⟩ := hback hj
    obtain ⟨c', hc', hrow', -⟩ := hback hj'
    exact h.exclusive j j' c c' hc hc' (by rw [hrow, hrow']; exact hseller)
  · intro u profile k hprofile hlocked
    obtain ⟨j, b, hj, hfacts⟩ := h.held u profile k (by simpa using hprofile) hlocked
    obtain ⟨b', hj', hrow, -⟩ := hsame hj
    exact ⟨j, b', hj', by rw [hrow]; exact hfacts⟩
  · intro j b hj hmarked
    rcases hcases hj with ⟨rfl, rfl⟩ | ⟨hj, hk⟩
    · cases hmarked
    · rw [hother hk]
      exact h.unmarked j b hj hmarked
  · intro j b hj hmarked
    rcases hcases hj with ⟨rfl, rfl⟩ | ⟨hj, hk⟩
    · refine ⟨?_, fun u => ?_⟩
      · rw [Store.push_self, Cell.cas_push, hone]
        omega
      · rw [hcredits]
        exact h.uncreditted _ (Nat.le_of_eq hone) u
    · rw [hother hk]
      simpa only [hcredits] using h.marked j b hj hmarked
  · intro k hk u
    rw [hcredits]
    refine h.uncreditted k (Nat.le_trans (Cell.cas_mono (hst _)) hk) u
  · intro k first hfirst hfirstState hk
    rw [hcredits]
    by_cases hkey : x.key = k
    · exact .inl ⟨i, _, Function.update_self .., rfl, hkey⟩
    · rw [hother hkey] at hfirst hk
      rcases h.creditted k first hfirst hfirstState hk with ⟨j, b, hj, hmarked, hbkey⟩ | hone
      · obtain ⟨b', hj', hrow, -, hmarked'⟩ := hsame hj
        exact .inl ⟨j, b', hj', hmarked' hmarked, by rw [hrow]; exact hbkey⟩
      · exact .inr hone

/-- A run adds the amount and gives the lock back. -/
lemma credit (h : LocksOk st hold) (htx : TransactionsOk st) {x : CreditorRow} {lockCas : ℕ}
    (hi : hold i = some ⟨x, lockCas, true⟩) {doc : UserAccount}
    (hdoc : doc.lockedCredittingTransaction = none) :
    LocksOk (st.push (.userAccount x.transactionDoc.seller)
        (.credit x.key x.transactionDoc.amountAfterFee) doc)
      (Function.update hold i none) := by
  obtain ⟨hmarkedCas, hnothing⟩ := h.marked i _ hi rfl
  have hcases {j : ι} {b : Hold} (hj : Function.update hold i none j = some b) :
      hold j = some b ∧ j ≠ i := by
    by_cases hji : j = i
    · subst hji
      rw [Function.update_self] at hj
      cases hj
    · rw [Function.update_of_ne hji] at hj
      exact ⟨hj, hji⟩
  have hne {j : ι} {b : Hold} (hj : hold j = some b) (hji : j ≠ i) :
      Key.userAccount b.row.transactionDoc.seller ≠ .userAccount x.transactionDoc.seller :=
    fun he => hji (h.exclusive j i b _ hj hi (Key.userAccount.inj he))
  have hkeyne {j : ι} {b : Hold} (hj : hold j = some b) (hji : j ≠ i) : b.row.key ≠ x.key :=
    fun hkey => hji (h.eq_of_key htx hj hi hkey)
  have hcredits {u : Username} {k : SlotKey} (hk : k ≠ x.key) :
      creditsFor (st.push (.userAccount x.transactionDoc.seller)
        (.credit x.key x.transactionDoc.amountAfterFee) doc) u k = creditsFor st u k := by
    by_cases hu : u = x.transactionDoc.seller
    · subst hu
      rw [creditsFor_push_account]
      simp [Note.creditFor, hk.symm]
    · exact creditsFor_push_of_ne _ _ _ _ fun he => hu (Key.userAccount.inj he)
  constructor
  · intro j b hj
    simpa using h.row j b (hcases hj).1
  · intro j b hj
    obtain ⟨hj, hji⟩ := hcases hj
    rw [Store.push_of_ne st (hne hj hji)]
    exact h.current j b hj
  · intro j j' b b' hj hj' hseller
    exact h.exclusive j j' b b' (hcases hj).1 (hcases hj').1 hseller
  · intro u profile k hprofile hlocked
    by_cases hu : u = x.transactionDoc.seller
    · subst hu
      rw [Store.push_self, Cell.current_push] at hprofile
      obtain rfl := Option.some.inj hprofile
      rw [hdoc] at hlocked
      cases hlocked
    · rw [Store.push_of_ne st (fun he => hu (Key.userAccount.inj he))] at hprofile
      obtain ⟨j, b, hj, hseller, hkey⟩ := h.held u profile k hprofile hlocked
      refine ⟨j, b, ?_, hseller, hkey⟩
      rw [Function.update_of_ne]
      · exact hj
      · rintro rfl
        obtain rfl := Option.some.inj (hi.symm.trans hj)
        exact hu hseller.symm
  · intro j b hj hmarked
    simpa using h.unmarked j b (hcases hj).1 hmarked
  · intro j b hj hmarked
    obtain ⟨hj, hji⟩ := hcases hj
    simpa [hcredits (hkeyne hj hji)] using h.marked j b hj hmarked
  · intro k hk u
    have hk' : (st (.transaction k)).cas ≤ 1 := by simpa using hk
    rw [hcredits (by rintro rfl; exact absurd hmarkedCas (Nat.not_lt.2 hk'))]
    exact h.uncreditted k hk' u
  · intro k first hfirst hfirstState hk
    have hfirst' : (st (.transaction k)).docAt 1 = some first := by simpa using hfirst
    by_cases hkey : k = x.key
    · subst hkey
      obtain ⟨hseller, hamount⟩ := h.seller_eq htx hi hfirst'
      dsimp only at hseller hamount
      right
      rw [← hseller, creditsFor_push_account, hnothing, ← hamount]
      simp [Note.creditFor]
    · rw [hcredits hkey]
      rcases h.creditted k first hfirst' hfirstState (by simpa using hk) with
        ⟨j, b, hj, hmarked, hbkey⟩ | hone
      · refine .inl ⟨j, b, ?_, hmarked, hbkey⟩
        rw [Function.update_of_ne]
        · exact hj
        · rintro rfl
          obtain rfl := Option.some.inj (hi.symm.trans hj)
          exact hkey hbkey.symm
      · exact .inr hone

end LocksOk

/-! ## One step of a run -/

namespace Creditor

variable {st : Db} {s : Creditor}

/-- The transactions stay what they are. -/
lemma act_transactionsOk (htx : TransactionsOk st) (hknows : s.KnowsTransaction st) :
    TransactionsOk (perform st s.act).1 := by
  obtain ⟨rows, found, creditted, earned, phase⟩ := s
  cases phase with
  | lockSeller x cas doc =>
      exact perform_set_any (P := fun r => TransactionsOk r.1) (htx.push_other (by simp))
        (fun _ => htx)
  | setTransactionCreditted x doc lockCas =>
      exact perform_set_any (P := fun r => TransactionsOk r.1) (htx.push_transaction hknows.1)
        (fun _ => htx)
  | creditAndUnlockSeller x doc lockCas =>
      exact perform_set_any (P := fun r => TransactionsOk r.1) (htx.push_other (by simp))
        (fun _ => htx)
  | _ => exact htx

variable {ι : Type} [DecidableEq ι] {hold : ι → Option Hold} {i : ι}

/-- Step lemma: if the run is not overtaken, the locks stay in order. -/
lemma act_locksOk (h : LocksOk st hold) (hi : hold i = s.hold) (htx : TransactionsOk st)
    (hsaved : s.Saved st) (hknows : s.KnowsTransaction st) (hnew : s.NotOvertaken st ()) :
    LocksOk (perform st s.act).1 (Function.update hold i (perform st s.act).2.hold) := by
  -- where no lock is taken or given up, nothing changes
  have hstay {s' : Creditor} (hbefore : s.hold = none) (hafter : s'.hold = none) :
      LocksOk st (Function.update hold i s'.hold) := by
    rwa [hafter, ← hbefore, ← hi, Function.update_eq_self]
  obtain ⟨rows, found, creditted, earned, phase⟩ := s
  cases phase with
  | getTransaction key =>
      refine hstay rfl ?_
      simp only [act, perform, afterTransaction]
      split
      · rfl
      · split_ifs
        · exact hold_nextRow
        · exact hold_nextRow
        · rfl
  | getSeller x =>
      refine hstay rfl ?_
      simp only [act, perform, afterSeller]
      split
      · rfl
      · split_ifs
        · exact hold_nextRow
        · rfl
  | lockSeller x cas doc =>
      obtain ⟨hdoc, hunlocked⟩ := hsaved
      refine perform_set (P := fun r => LocksOk r.1 (Function.update hold i (Creditor.hold r.2)))
        (Cell.docAt_bounds hdoc).1 (fun hcas => ?_) (fun r hr => ?_)
      · refine h.lock hi hknows hcas hdoc (UserAccount.profileIsLocked_eq_false.1 hunlocked).2.2
          rfl ?_
        rw [hnew hcas.symm]
        exact htx.of_uncreditted hknows.1 hknows.2
      · refine hstay rfl ?_
        cases r with
        | stored cas => exact absurd rfl (hr cas)
        | keyExists => rfl
        | keyMissing => rfl
  | getSellerAgain x =>
      refine hstay rfl ?_
      simp only [act, perform, afterSellerAgain]
      split <;> rfl
  | setTransactionCreditted x doc lockCas =>
      have hone : x.transactionDocCas = (st (.transaction x.key)).cas := by
        rw [htx.of_uncreditted hknows.1 hknows.2, h.unmarked i _ hi rfl]
      simp only [act]
      rw [perform_set_current hone]
      exact h.mark htx hi _
  | creditAndUnlockSeller x doc lockCas =>
      obtain ⟨hcas, -⟩ := h.current i _ hi
      simp only [act]
      rw [perform_set_current hcas]
      have hunlocks : (doc.credittedAndUnlocked
          x.transactionAmountAfterFeeInSatoshis).lockedCredittingTransaction = none := rfl
      have hcredit := h.credit htx hi hunlocks
      rwa [← hold_nextRow (s := ⟨rows, found, creditted, earned,
        .creditAndUnlockSeller x doc lockCas⟩)] at hcredit
  | finished success => exact hstay rfl rfl
  | threw => exact hstay rfl rfl

end Creditor

/-! ## Every run -/

/-- A store and any number of creditor runs. -/
abbrev CreditorRuns (ι : Type) := World Note Doc Creditor ι

/-- A run reacts to nothing but the store.  The input of a client is the unit type, so that the
interleaving is the only thing that is left open. -/
def Creditor.run (s : Creditor) (_ : Unit) : DbAction Creditor := s.act

/-- The store before the first run. -/
structure CreditsStart (st : Db) : Prop where
  accounts : AccountsStart st
  noLocks : ∀ u profile, (st (.userAccount u)).current = some profile →
    profile.lockedCredittingTransaction = none
  noCredits : ∀ u tx, creditsFor st u tx = []
  transactions : ∀ k, (st (.transaction k)).cas ≤ 1

lemma CreditsStart.transactionsOk {st : Db} (h : CreditsStart st) : TransactionsOk st := by
  intro k c doc hdoc
  have hb := Cell.docAt_bounds hdoc
  have hone := h.transactions k
  obtain rfl : c = 1 := by omega
  exact ⟨doc, hdoc, rfl, rfl, fun hlt => absurd hlt (Nat.lt_irrefl 1)⟩

namespace CreditsStart

variable {st : Db}

lemma empty : CreditsStart (fun _ => Cell.absent) where
  accounts := .empty
  noLocks _ _ hprofile := by simp [Cell.current] at hprofile
  noCredits _ _ := rfl
  transactions _ := Nat.zero_le 1

/-- Registering a user. -/
lemma register (h : CreditsStart st) {u : Username} (habsent : (st (.userAccount u)).cas = 0)
    (profile : UserAccount) (hunlocked : profile.profileIsLocked = false)
    (hfiller : profile.slotToAttemptToFillAkaPurchaseItWith = none) :
    CreditsStart (st.push (.userAccount u) .document profile) where
  accounts := h.accounts.register habsent _
    (.of_not_locked hunlocked hfiller)
  noLocks u' profile' hprofile := by
    by_cases hu : Key.userAccount u' = .userAccount u
    · obtain rfl := Key.userAccount.inj hu
      rw [Store.push_self, Cell.current_push] at hprofile
      rw [← Option.some.inj hprofile]
      exact (UserAccount.profileIsLocked_eq_false.1 hunlocked).2.2
    · rw [Store.push_of_ne _ hu] at hprofile
      exact h.noLocks u' profile' hprofile
  noCredits u' tx := by
    by_cases hu : Key.userAccount u' = .userAccount u
    · obtain rfl := Key.userAccount.inj hu
      rw [creditsFor_push_account, h.noCredits]
      rfl
    · rw [creditsFor_push_of_ne _ _ _ _ hu]
      exact h.noCredits u' tx
  transactions k := by
    rw [Store.push_of_ne _ (by simp)]
    exact h.transactions k

/-- A buyer has created a transaction. -/
lemma create (h : CreditsStart st) {k : SlotKey} (habsent : (st (.transaction k)).cas = 0)
    (doc : TransactionDoc) : CreditsStart (st.push (.transaction k) .document doc) where
  accounts := h.accounts.create _ _ _ (by simp)
  noLocks u profile hprofile := by
    rw [Store.push_of_ne _ (by simp)] at hprofile
    exact h.noLocks u profile hprofile
  noCredits u tx := by
    rw [creditsFor_push_of_ne _ _ _ _ (by simp)]
    exact h.noCredits u tx
  transactions k' := by
    by_cases hk : Key.transaction k' = .transaction k
    · obtain rfl := Key.transaction.inj hk
      rw [Store.push_self, Cell.cas_push, habsent]
    · rw [Store.push_of_ne _ hk]
      exact h.transactions k'

end CreditsStart

lemma CreditsStart.locksOk {ι : Type} {st : Db} (h : CreditsStart st) :
    LocksOk st (fun _ : ι => (none : Option Hold)) where
  row _ _ hi := by cases hi
  current _ _ hi := by cases hi
  exclusive _ _ _ _ hi := by cases hi
  held u profile k hprofile hlocked := by
    rw [h.noLocks u profile hprofile] at hlocked
    cases hlocked
  unmarked _ _ hi := by cases hi
  marked _ _ hi := by cases hi
  uncreditted k _ u := h.noCredits u k
  creditted k _ _ _ hk := absurd hk (Nat.not_lt.2 (h.transactions k))

/-- What the runs are to achieve. -/
structure CleanlyCreditted {ι : Type} (w₀ w : CreditorRuns ι) : Prop where
  /-- Once all runs have returned, no profile is locked toward a transaction. -/
  noLockLeft : (∀ i, (w.client i).Returned) → ∀ u profile,
    (w.store (.userAccount u)).current = some profile →
    profile.lockedCredittingTransaction = none
  /-- Once all runs have returned, what they marked creditted was creditted once. -/
  credittedOnce : (∀ i, (w.client i).Returned) → ∀ k first doc,
    (w₀.store (.transaction k)).current = some first →
    first.txCredittedState = .txUncreditted →
    (w.store (.transaction k)).current = some doc → doc.txCredittedState = .txCreditted →
    creditsFor w.store doc.seller k = [doc.amountAfterFee]
  /-- What is called a credit is added to the balance. -/
  creditAdds : ∀ u c k amount before after, (w.store (.userAccount u)).docAt c = some before →
    (w.store (.userAccount u)).version (c + 1) = some ⟨.credit k amount, after⟩ →
    after.balanceInSatoshis = before.balanceInSatoshis + amount
  /-- No profile is locked toward a transaction that was creditted to it. -/
  noLockAfterCredit : ∀ u profile k, (w.store (.userAccount u)).current = some profile →
    profile.lockedCredittingTransaction = some k → creditsFor w.store u k = []

section Runs

variable {ι : Type} [DecidableEq ι] {w₀ w : CreditorRuns ι} {ok : Db → Creditor → Unit → Prop}

/-- What every run knows, whatever the others do. -/
lemma runs_of_reaches (hstart : CreditsStart w₀.store)
    (hruns : ∀ i, ∃ rows, w₀.client i = .creditTransactions rows)
    (hreach : Reaches Creditor.run ok w₀ w) :
    (AccountsOk w.store ∧ TransactionsOk w.store) ∧
      ∀ i, (w.client i).Saved w.store ∧ (w.client i).KnowsTransaction w.store := by
  refine hreach.threadModular (I := fun st => AccountsOk st ∧ TransactionsOk st)
    (L := fun st s => s.Saved st ∧ s.KnowsTransaction st)
    (fun _ _ _ hst _ h => ⟨h.1.mono hst, h.2.mono hst⟩)
    (fun st s _ _ hok h => ⟨⟨?_, ?_⟩, ?_, ?_⟩)
    ⟨hstart.accounts.ok, hstart.transactionsOk⟩ (fun i => ?_)
  · exact hok.1.perform (Creditor.act_accountWritesOk h.1)
  · exact Creditor.act_transactionsOk hok.2 h.2
  · exact Creditor.act_saved h.1
  · exact Creditor.act_knowsTransaction h.2
  · obtain ⟨rows, hrows⟩ := hruns i
    rw [hrows]
    exact ⟨Creditor.nextRow_saved, Creditor.nextRow_knowsTransaction⟩

/-- Run lemma: as long as no run is overtaken, the locks are in order. -/
lemma locks_of_reaches (hstart : CreditsStart w₀.store)
    (hruns : ∀ i, ∃ rows, w₀.client i = .creditTransactions rows)
    (hreach : Reaches Creditor.run Creditor.NotOvertaken w₀ w) :
    LocksOk w.store (fun i => (w.client i).hold) := by
  induction hreach with
  | start =>
      have hnone : (fun i => (w₀.client i).hold) = fun _ => none := by
        funext i
        obtain ⟨rows, hrows⟩ := hruns i
        rw [hrows]
        exact Creditor.hold_nextRow
      rw [hnone]
      exact hstart.locksOk
  | @step w i x hreach hnew ih =>
      obtain ⟨⟨-, htx⟩, hlocal⟩ := runs_of_reaches hstart hruns hreach
      have hstep := Creditor.act_locksOk ih rfl htx (hlocal i).1 (hlocal i).2 hnew
      have hhold : (fun j => ((w.step Creditor.run i x).client j).hold) =
          Function.update (fun j => (w.client j).hold) i
            (perform w.store (w.client i).act).2.hold := by
        funext j
        exact Function.apply_update (fun _ => Creditor.hold) w.client i _ j
      rw [hhold]
      exact hstep

/-- **Nothing is left locked and everything is creditted once**, in runs in which no profile is
locked toward a transaction that has changed since it was read.  It covers runs that are stopped
between any two operations and started again over the same transactions.  Two runs may go through
the same rows at the same time: one of them gets the lock, and the other one's lock is refused by
the CAS. -/
theorem credits_clean (hstart : CreditsStart w₀.store)
    (hruns : ∀ i, ∃ rows, w₀.client i = .creditTransactions rows)
    (hreach : Reaches Creditor.run Creditor.NotOvertaken w₀ w) : CleanlyCreditted w₀ w := by
  obtain ⟨⟨haccounts, htx⟩, -⟩ := runs_of_reaches hstart hruns hreach
  have hlocks := locks_of_reaches hstart hruns hreach
  refine ⟨fun hreturned u profile hprofile => ?_, ?_, ?_, ?_⟩
  · cases hlocked : profile.lockedCredittingTransaction with
    | none => rfl
    | some k =>
        obtain ⟨i, b, hi, -⟩ := hlocks.held u profile k hprofile hlocked
        rw [Creditor.hold_of_returned (hreturned i)] at hi
        cases hi
  · intro hreturned k first doc hfirst hfirstState hdoc hstate
    have hb := Cell.docAt_bounds hfirst
    have hone : (w₀.store (.transaction k)).cas = 1 :=
      Nat.le_antisymm (hstart.transactions k) (Nat.le_trans hb.1 hb.2)
    rw [Cell.current, hone] at hfirst
    have hfirst' := Cell.docAt_mono (hreach.store_le _) hfirst
    have hlater : 1 < (w.store (.transaction k)).cas := by
      have hpos := (Cell.docAt_bounds hfirst').2
      by_contra hle
      rw [Cell.current, Nat.le_antisymm (Nat.not_lt.1 hle) hpos, hfirst'] at hdoc
      rw [← Option.some.inj hdoc, hfirstState] at hstate
      cases hstate
    obtain ⟨first', hfirst'', hseller, hamount, -⟩ := htx k _ doc hdoc
    obtain rfl := Option.some.inj (hfirst'.symm.trans hfirst'')
    rcases hlocks.creditted k first hfirst' hfirstState hlater with ⟨i, b, hi, -⟩ | hcredits
    · rw [Creditor.hold_of_returned (hreturned i)] at hi
      cases hi
    · rw [hseller, hcredits, TransactionDoc.amountAfterFee, TransactionDoc.amountAfterFee, hamount]
  · intro u c k amount before after hbefore hversion
    obtain ⟨-, rfl⟩ := haccounts.history u c before _ hbefore hversion
    rfl
  · intro u profile k hprofile hlocked
    obtain ⟨i, b, hi, -, rfl⟩ := hlocks.held u profile k hprofile hlocked
    exact hlocks.creditsFor_of_hold hi u

/-- The condition is exact: a run that is overtaken locks a profile toward a transaction that was
creditted to it already. -/
theorem not_clean_of_overtaken (hstart : CreditsStart w₀.store)
    (hruns : ∀ i, ∃ rows, w₀.client i = .creditTransactions rows)
    (hreach : Reaches Creditor.run Creditor.NotOvertaken w₀ w) {i : ι}
    (hovertaken : ¬ (w.client i).NotOvertaken w.store ()) :
    ¬ CleanlyCreditted w₀ (w.step Creditor.run i ()) := by
  intro hclean
  obtain ⟨⟨-, htx⟩, hlocal⟩ := runs_of_reaches hstart hruns hreach
  obtain ⟨hsaved, hknows⟩ := hlocal i
  have hlocks := locks_of_reaches hstart hruns hreach
  unfold Creditor.NotOvertaken at hovertaken
  split at hovertaken
  · next x cas doc hphase =>
      rw [Classical.not_imp] at hovertaken
      obtain ⟨hcas, hchanged⟩ := hovertaken
      rw [Creditor.Saved, hphase] at hsaved
      rw [Creditor.KnowsTransaction, hphase] at hknows
      obtain ⟨hdoc, hunlocked⟩ := hsaved
      obtain ⟨hrow, hstate⟩ := hknows
      have hone := htx.of_uncreditted hrow hstate
      have hb := Cell.docAt_bounds hrow
      rw [hone] at hrow
      have hstore : (w.step Creditor.run i ()).store =
          w.store.push (.userAccount x.transactionDoc.seller) (.lockToCredit x.key)
            (doc.lockedToCredit x.key) := by
        simp only [World.step, Creditor.run, Creditor.act, hphase]
        rw [perform_set_current hcas.symm]
      have hnone := hclean.noLockAfterCredit x.transactionDoc.seller (doc.lockedToCredit x.key)
        x.key (by rw [hstore, Store.push_self, Cell.current_push]) rfl
      rw [hstore, creditsFor_push_account] at hnone
      rcases hlocks.creditted x.key x.transactionDoc hrow hstate (by omega) with
        ⟨j, b, hj, -, hkey⟩ | hcredits
      · -- the profile was read unlocked, so no run can be holding it
        rw [← hkey] at hrow
        obtain ⟨-, profile, hprofile, hlocked⟩ := hlocks.current j b hj
        rw [(hlocks.seller_eq htx hj hrow).1, Cell.current, hcas, hdoc] at hprofile
        obtain rfl := Option.some.inj hprofile
        rw [(UserAccount.profileIsLocked_eq_false.1 hunlocked).2.2] at hlocked
        cases hlocked
      · rw [hcredits] at hnone
        simp at hnone
  · exact hovertaken trivial

end Runs

/-! ## Three runs, and two runs -/

instance Creditor.decidableNotOvertaken (st : Db) (s : Creditor) (x : Unit) :
    Decidable (s.NotOvertaken st x) := by
  unfold Creditor.NotOvertaken
  split <;> infer_instance

/-- One seller with one transaction to be creditted. -/
def oneTransaction : Db :=
  let st : Db := fun _ => Cell.absent
  let st := st.push (.userAccount "seller") .document { balanceInSatoshis := 5 }
  st.push (.transaction ⟨d3faultCampaign0, 0⟩) .document
    (createTransactionDoc "seller" "buyer" 1000)

lemma oneTransaction_creditsStart : CreditsStart oneTransaction :=
  (CreditsStart.empty.register rfl _ rfl rfl).create rfl _

/-- A second transaction of the seller, and one of somebody else. -/
def threeTransactions : Db :=
  let st := oneTransaction.push (.transaction ⟨d3faultCampaign0, 1⟩) .document
    (createTransactionDoc "seller" "buyer" 2000)
  let st := st.push (.userAccount "otherSeller") .document { balanceInSatoshis := 0 }
  st.push (.transaction ⟨⟨"otherSeller", 0⟩, 0⟩) .document
    (createTransactionDoc "otherSeller" "buyer" 3157800)

lemma threeTransactions_creditsStart : CreditsStart threeTransactions :=
  ((oneTransaction_creditsStart.create rfl _).register rfl _ rfl rfl).create rfl _

def creditorRuns (ι : Type) : CreditorRuns ι where
  store := oneTransaction
  client _ := .creditTransactions [⟨d3faultCampaign0, 0⟩]

/-- Two runs are over all three transactions, and one is over the last. -/
def rowsOfRun : Option Bool → List SlotKey
  | some true => [⟨⟨"otherSeller", 0⟩, 0⟩]
  | _ => [⟨d3faultCampaign0, 0⟩, ⟨d3faultCampaign0, 1⟩, ⟨⟨"otherSeller", 0⟩, 0⟩]

def threeCreditorRuns : CreditorRuns (Option Bool) where
  store := threeTransactions
  client i := .creditTransactions (rowsOfRun i)

/-- The second run finds the first seller locked by the first run, and passes over both of its
transactions.  It reads the profile of the other seller before the third run locks it, is refused,
and throws. -/
def threeCreditors : List (Option Bool × Unit) :=
  List.replicate 3 (none, ()) ++ List.replicate 5 (some false, ()) ++
    List.replicate 3 (some true, ()) ++ List.replicate 2 (some false, ()) ++
    List.replicate 2 (some true, ()) ++ List.replicate 8 (none, ())

/-- Every transaction is creditted by one of the runs. -/
theorem credits_clean_threeRuns :
    CleanlyCreditted threeCreditorRuns (threeCreditorRuns.run Creditor.run threeCreditors) ∧
      ((threeCreditorRuns.run Creditor.run threeCreditors).client (some false)).phase = .threw ∧
      creditsFor (threeCreditorRuns.run Creditor.run threeCreditors).store "seller"
        ⟨d3faultCampaign0, 0⟩ = [984] ∧
      creditsFor (threeCreditorRuns.run Creditor.run threeCreditors).store "seller"
        ⟨d3faultCampaign0, 1⟩ = [1969] ∧
      creditsFor (threeCreditorRuns.run Creditor.run threeCreditors).store "otherSeller"
        ⟨⟨"otherSeller", 0⟩, 0⟩ = [3110432] :=
  ⟨credits_clean threeTransactions_creditsStart (fun i => ⟨rowsOfRun i, rfl⟩)
    (reaches_run_of_staysWithin (by decide +kernel)),
    by decide +kernel, by decide +kernel, by decide +kernel, by decide +kernel⟩

/-- The first run reads the transaction; the second credits it; then the first locks the profile,
finds that it cannot mark the transaction, and returns. -/
def creditorOvertaken : List (Bool × Unit) :=
  [(false, ())] ++ List.replicate 5 (true, ()) ++ List.replicate 3 (false, ())

/-- The profile stays locked. -/
theorem credits_strand : ¬ ∀ w : CreditorRuns Bool,
    Reaches Creditor.run anyStep (creditorRuns Bool) w →
      CleanlyCreditted (creditorRuns Bool) w := by
  intro hclean
  let w := (creditorRuns Bool).run Creditor.run creditorOvertaken
  have hlocked : (w.store (.userAccount "seller")).current.map
      UserAccount.lockedCredittingTransaction = some (some ⟨d3faultCampaign0, 0⟩) := by
    decide +kernel
  have hfalse : (w.client false).phase = .finished false := by decide +kernel
  have htrue : (w.client true).phase = .finished true := by decide +kernel
  obtain ⟨profile, hprofile, hlocked⟩ := Option.map_eq_some_iff.1 hlocked
  have hnone := (hclean w (reaches_run _ _)).noLockLeft
    (fun i => by
      cases i with
      | false => exact .inr ⟨_, hfalse⟩
      | true => exact .inr ⟨_, htrue⟩) "seller" profile hprofile
  rw [hlocked] at hnone
  cases hnone

end Autobackup.Abc2
