import Autobackup.Abc2.AccountHistory

/-!
# Slots, locks and debits

A purchase touches four documents: the buyer's account is locked toward a slot, the slot is
added, a transaction is added, and the account is debited and unlocked.  `PurchasesOk` says how
these hang together in the store alone, at every moment and whoever did the writing.

The heart of it is `PurchasesOk.slotOwned`: behind every slot there is one version of its buyer's
account that is locked toward it, and that version is either still the current one or was
replaced by a debit of the slot's price.  Three facts make this stable: a lock is given up only
once its slot exists (`lockHeld`), an account is locked toward a slot at most once
(`lockUnique`), and a lock whose filler is in the slot is never released without a debit.
-/

namespace Autobackup.Abc2

/-! ## Vocabulary -/

/-- The account is locked toward the slot, to fill it with `slotFiller`. -/
def UserAccount.LockedTowardWith (profile : UserAccount) (slot : SlotKey)
    (slotFiller : SlotFillerKey) : Prop :=
  profile.slotToAttemptToFillAkaPurchase = some slot ∧
    profile.slotToAttemptToFillAkaPurchaseItWith = some slotFiller

/-- The slot was filled, and `slotDoc` is its document. -/
def FilledWith (st : Db) (slot : SlotKey) (slotDoc : SlotDoc) : Prop :=
  (st (.adSpaceCampaignSlot slot)).docAt 1 = some slotDoc

/-- The transaction is between the slot's buyer and whoever, over the slot's price. -/
def PaysFor (st : Db) (slot : SlotKey) (doc : TransactionDoc) : Prop :=
  ∃ slotDoc, FilledWith st slot slotDoc ∧ doc.buyer = slotDoc.slotFilledWith.username ∧
    doc.amountInSatoshis = slotDoc.purchasePrice

/-- No version of `u`'s account up to the CAS `cas` was locked toward the slot. -/
def NeverLockedToward (st : Db) (u : Username) (cas : ℕ) (slot : SlotKey) : Prop :=
  ∀ c profile, c ≤ cas → (st (.userAccount u)).docAt c = some profile →
    profile.slotToAttemptToFillAkaPurchase ≠ some slot

section Mono

variable {st st' : Db} {slot : SlotKey} {slotDoc slotDoc' : SlotDoc} {doc : TransactionDoc}

lemma FilledWith.mono (hst : st ≤ st') (h : FilledWith st slot slotDoc) :
    FilledWith st' slot slotDoc :=
  Cell.docAt_mono (hst _) h

lemma FilledWith.unique (h : FilledWith st slot slotDoc) (h' : FilledWith st slot slotDoc') :
    slotDoc = slotDoc' :=
  Option.some.inj (h.symm.trans h')

lemma PaysFor.mono (hst : st ≤ st') (h : PaysFor st slot doc) : PaysFor st' slot doc := by
  obtain ⟨slotDoc, hfilled, hfacts⟩ := h
  exact ⟨slotDoc, hfilled.mono hst, hfacts⟩

end Mono

/-- The only transition into a slot lock is the one that announces it. -/
lemma UserAccount.Step.eq_lockToward {before after : UserAccount} {note : Note}
    (h : before.Step note after) (hb : before.WellFormed) {slot : SlotKey}
    (hslot : after.slotToAttemptToFillAkaPurchase = some slot) : note = .lockToward slot := by
  have hnone (hunlocked : before.profileIsLocked = false) :
      before.slotToAttemptToFillAkaPurchase ≠ some slot := by
    rw [(profileIsLocked_eq_false.1 hunlocked).1]
    simp
  cases note with
  | lockToward slot' =>
      obtain ⟨-, filler, rfl⟩ := h
      obtain rfl : slot' = slot := Option.some.inj hslot
      rfl
  | debit slot' price => obtain ⟨-, rfl⟩ := h; cases hslot
  | unlockWithoutDebit slot' => obtain ⟨-, rfl⟩ := h; cases hslot
  | lockToCredit tx => obtain ⟨hunlocked, rfl⟩ := h; exact absurd hslot (hnone hunlocked)
  | credit tx amount =>
      obtain ⟨hcredit, rfl⟩ := h
      have hslot' : before.slotToAttemptToFillAkaPurchase = some slot := hslot
      have := (hb.locks.slot (by rw [hslot']; simp)).2
      rw [hcredit] at this
      cases this
  | gettingKey => obtain ⟨hunlocked, _, _, _, rfl⟩ := h; exact absurd hslot (hnone hunlocked)
  | haveKey => obtain ⟨hunlocked, _, rfl⟩ := h; exact absurd hslot (hnone hunlocked)
  | deposit amount => obtain ⟨hunlocked, -, rfl⟩ := h; exact absurd hslot (hnone hunlocked)
  | document => exact h.elim

/-! ## The store invariant -/

structure PurchasesOk (st : Db) : Prop where
  accounts : AccountsOk st
  /-- A slot, once filled, is never rewritten. -/
  slotOnce : ∀ k, (st (.adSpaceCampaignSlot k)).cas ≤ 1
  /-- A lock toward a slot that is no longer the current version is a lock toward a filled
  slot. -/
  lockHeld : ∀ u c k profile, (st (.userAccount u)).docAt c = some profile →
    profile.slotToAttemptToFillAkaPurchase = some k → c < (st (.userAccount u)).cas →
    ∃ slotDoc, FilledWith st k slotDoc
  /-- An account is locked toward a slot at most once. -/
  lockUnique : ∀ u c c' k profile profile', (st (.userAccount u)).docAt c = some profile →
    (st (.userAccount u)).docAt c' = some profile' →
    profile.slotToAttemptToFillAkaPurchase = some k →
    profile'.slotToAttemptToFillAkaPurchase = some k → c = c'
  /-- Behind every slot stands a lock of its buyer, still there or turned into the debit. -/
  slotOwned : ∀ k slotDoc, FilledWith st k slotDoc → ∃ c profile,
    (st (.userAccount slotDoc.slotFilledWith.username)).docAt c = some profile ∧
    profile.LockedTowardWith k slotDoc.slotFilledWith ∧
    (c = (st (.userAccount slotDoc.slotFilledWith.username)).cas ∨
      ∃ profile', (st (.userAccount slotDoc.slotFilledWith.username)).version (c + 1) =
        some ⟨.debit k slotDoc.purchasePrice, profile'⟩)
  /-- Only the buyer of a slot is debited for it, and by its price; nobody is born with a
  debit. -/
  debits : ∀ u c k price profile,
    (st (.userAccount u)).version c = some ⟨.debit k price, profile⟩ → 1 < c ∧
    ∃ slotDoc, FilledWith st k slotDoc ∧ slotDoc.slotFilledWith.username = u ∧
      slotDoc.purchasePrice = price
  transactions : ∀ k c doc, (st (.transaction k)).docAt c = some doc → PaysFor st k doc
  slotFillers : ∀ k c doc, (st (.adSpaceSlotFiller k)).docAt c = some doc →
    doc.username = k.username

namespace PurchasesOk

variable {st : Db} {slot : SlotKey} {slotDoc : SlotDoc}

/-- What reading a slot document tells. -/
lemma filledWith_of_get (h : PurchasesOk st) {cas : ℕ}
    (hread : (st (.adSpaceCampaignSlot slot)).get = some (cas, slotDoc)) :
    FilledWith st slot slotDoc := by
  obtain ⟨rfl, hdoc⟩ := Cell.get_eq_some.1 hread
  have hb := Cell.docAt_bounds hdoc
  have honce := h.slotOnce slot
  obtain hone : (st (.adSpaceCampaignSlot slot)).cas = 1 := by omega
  rwa [hone] at hdoc

lemma not_filledWith (habsent : (st (.adSpaceCampaignSlot slot)).cas = 0) :
    ¬ FilledWith st slot slotDoc := by
  intro hfilled
  have := (Cell.docAt_bounds hfilled).2
  omega

/-- A lock toward an absent slot is still there. -/
lemma lock_current (h : PurchasesOk st) (habsent : (st (.adSpaceCampaignSlot slot)).cas = 0)
    {u : Username} {cas : ℕ} {profile : UserAccount}
    (hprofile : (st (.userAccount u)).docAt cas = some profile)
    (hslot : profile.slotToAttemptToFillAkaPurchase = some slot) :
    cas = (st (.userAccount u)).cas := by
  have hb := Cell.docAt_bounds hprofile
  by_contra hne
  obtain ⟨slotDoc, hfilled⟩ := h.lockHeld u cas slot profile hprofile hslot (by omega)
  exact not_filledWith habsent hfilled

/-- If the slot is absent while some version of the account with CAS `cas` is unlocked, no
version up to `cas` was ever locked toward the slot. -/
lemma neverLockedToward (h : PurchasesOk st)
    (habsent : (st (.adSpaceCampaignSlot slot)).cas = 0) {u : Username} {cas : ℕ}
    {unlocked : UserAccount} (hunlocked : (st (.userAccount u)).docAt cas = some unlocked)
    (hslot : unlocked.slotToAttemptToFillAkaPurchase = none) :
    NeverLockedToward st u cas slot := by
  intro c profile hc hprofile hlocked
  have hb := Cell.docAt_bounds hunlocked
  obtain rfl : c = cas := by
    have := h.lock_current habsent hprofile hlocked
    omega
  rw [hunlocked] at hprofile
  obtain rfl := Option.some.inj hprofile
  rw [hslot] at hlocked
  cases hlocked

end PurchasesOk

/-! ## The writes that keep it -/

/-- What a write of `u`'s account over the version with CAS `cas` has to satisfy, by its note. -/
def NoteOk (st : Db) (u : Username) (cas : ℕ) : Note → Prop
  | .lockToward slot => NeverLockedToward st u cas slot
  | .debit slot price => ∃ slotDoc, FilledWith st slot slotDoc ∧
      slotDoc.slotFilledWith.username = u ∧ slotDoc.purchasePrice = price
  | .unlockWithoutDebit slot => ∃ slotDoc, FilledWith st slot slotDoc ∧
      ∀ profile, (st (.userAccount u)).docAt cas = some profile →
        profile.slotToAttemptToFillAkaPurchaseItWith ≠ some slotDoc.slotFilledWith
  | _ => True

/-- The writes the purchase protocol allows. -/
def PurchaseWritesOk {σ : Type} (st : Db) : DbAction σ → Prop
  | .set (.userAccount u) note _ cas _ => NoteOk st u cas note
  | .add (.adSpaceCampaignSlot k) _ doc _ =>
      ∃ c profile, (st (.userAccount doc.slotFilledWith.username)).docAt c = some profile ∧
        profile.LockedTowardWith k doc.slotFilledWith
  | .set (.adSpaceCampaignSlot _) _ _ _ _ => False
  | .add (.transaction k) _ doc _ => PaysFor st k doc
  | .set (.transaction k) _ doc _ _ => PaysFor st k doc
  | .add (.adSpaceSlotFiller _) _ _ _ => False
  | .set (.adSpaceSlotFiller _) _ _ _ _ => False
  | _ => True

namespace PurchasesOk

variable {st : Db}

/-- The write of an account. -/
lemma push_account (h : PurchasesOk st) {u : Username} {note : Note} {base doc : UserAccount}
    (hbase : (st (.userAccount u)).current = some base) (hstep : base.Step note doc)
    (hnote : NoteOk st u (st (.userAccount u)).cas note) :
    PurchasesOk (st.push (.userAccount u) note doc) := by
  have hwf := h.accounts.wellFormed u _ base hbase
  have hst : st ≤ st.push (.userAccount u) note doc := Store.le_push _ _ _ _
  -- a lock that was current until now is being released, and then its slot exists
  have hreleased {k : SlotKey} (hslot : base.slotToAttemptToFillAkaPurchase = some k) :
      ∃ slotDoc, FilledWith st k slotDoc ∧
        (note = .debit k slotDoc.purchasePrice ∨
          base.slotToAttemptToFillAkaPurchaseItWith ≠ some slotDoc.slotFilledWith) := by
    rcases hstep.of_slot hwf hslot with ⟨price, rfl⟩ | rfl
    · obtain ⟨slotDoc, hfilled, -, rfl⟩ := hnote
      exact ⟨slotDoc, hfilled, .inl rfl⟩
    · obtain ⟨slotDoc, hfilled, hne⟩ := hnote
      exact ⟨slotDoc, hfilled, .inr (hne base hbase)⟩
  refine
    { accounts := h.accounts.push_account hbase hstep
      slotOnce := fun k => by simpa using h.slotOnce k
      lockHeld := ?_
      lockUnique := ?_
      slotOwned := ?_
      debits := ?_
      transactions := fun k c d hd => (h.transactions k c d (by simpa using hd)).mono hst
      slotFillers := fun k c d hd => h.slotFillers k c d (by simpa using hd) }
  · intro v c k profile hprofile hslot hc
    by_cases hv : v = u
    · subst hv
      rw [Store.push_self, Cell.cas_push] at hc
      rw [Store.push_self, Cell.docAt_push, if_neg (by omega)] at hprofile
      rcases Nat.lt_or_ge c (st (.userAccount v)).cas with hlt | hge
      · obtain ⟨slotDoc, hfilled⟩ := h.lockHeld v c k profile hprofile hslot hlt
        exact ⟨slotDoc, hfilled.mono hst⟩
      · obtain rfl : c = (st (.userAccount v)).cas := by omega
        obtain rfl := Option.some.inj (hprofile.symm.trans hbase)
        obtain ⟨slotDoc, hfilled, -⟩ := hreleased hslot
        exact ⟨slotDoc, hfilled.mono hst⟩
    · have hne : Key.userAccount v ≠ .userAccount u := fun he => hv (Key.userAccount.inj he)
      rw [Store.push_of_ne st hne] at hprofile hc
      obtain ⟨slotDoc, hfilled⟩ := h.lockHeld v c k profile hprofile hslot hc
      exact ⟨slotDoc, hfilled.mono hst⟩
  · intro v c c' k profile profile' hprofile hprofile' hslot hslot'
    by_cases hv : v = u
    · subst hv
      -- a new lock is announced, so none of the older versions has it
      have hfresh {e : ℕ} {old : UserAccount} (hold : (st (.userAccount v)).docAt e = some old)
          (holdslot : old.slotToAttemptToFillAkaPurchase = some k)
          (hnew : doc.slotToAttemptToFillAkaPurchase = some k) : False := by
        obtain rfl := hstep.eq_lockToward hwf hnew
        exact hnote e old (Cell.docAt_bounds hold).2 hold holdslot
      rw [Store.push_self, Cell.docAt_push] at hprofile hprofile'
      split at hprofile <;> split at hprofile'
      · omega
      · obtain rfl := Option.some.inj hprofile
        exact (hfresh hprofile' hslot' hslot).elim
      · obtain rfl := Option.some.inj hprofile'
        exact (hfresh hprofile hslot hslot').elim
      · exact h.lockUnique v c c' k profile profile' hprofile hprofile' hslot hslot'
    · have hne : Key.userAccount v ≠ .userAccount u := fun he => hv (Key.userAccount.inj he)
      rw [Store.push_of_ne st hne] at hprofile hprofile'
      exact h.lockUnique v c c' k profile profile' hprofile hprofile' hslot hslot'
  · intro k slotDoc hfilled
    have hfilled' : FilledWith st k slotDoc := by simpa [FilledWith] using hfilled
    obtain ⟨c, profile, hprofile, hlocked, hnow⟩ := h.slotOwned k slotDoc hfilled'
    refine ⟨c, profile, Cell.docAt_mono (hst _) hprofile, hlocked, ?_⟩
    rcases hnow with hcurrent | ⟨profile', hdebit⟩
    · by_cases hv : slotDoc.slotFilledWith.username = u
      · right
        subst hv
        rw [hcurrent] at hprofile
        obtain rfl := Option.some.inj (hprofile.symm.trans hbase)
        obtain ⟨slotDoc', hfilled'', hdebit⟩ := hreleased hlocked.1
        obtain rfl := hfilled'.unique hfilled''
        obtain rfl := hdebit.resolve_right fun hne => hne hlocked.2
        refine ⟨doc, ?_⟩
        rw [hcurrent, Store.push_self, Cell.version_push_self]
      · left
        rw [Store.push_of_ne st (fun he => hv (Key.userAccount.inj he))]
        exact hcurrent
    · exact .inr ⟨profile', Cell.version_mono (hst _) hdebit⟩
  · intro v c k price profile hversion
    by_cases hv : v = u
    · subst hv
      rw [Store.push_self, Cell.version_push] at hversion
      split at hversion
      · next hc =>
          cases hversion
          have hb := Cell.docAt_bounds hbase
          obtain ⟨slotDoc, hfilled, hfacts⟩ := hnote
          exact ⟨by omega, slotDoc, hfilled.mono hst, hfacts⟩
      · obtain ⟨hc, slotDoc, hfilled, hfacts⟩ := h.debits v c k price profile hversion
        exact ⟨hc, slotDoc, hfilled.mono hst, hfacts⟩
    · have hne : Key.userAccount v ≠ .userAccount u := fun he => hv (Key.userAccount.inj he)
      rw [Store.push_of_ne st hne] at hversion
      obtain ⟨hc, slotDoc, hfilled, hfacts⟩ := h.debits v c k price profile hversion
      exact ⟨hc, slotDoc, hfilled.mono hst, hfacts⟩

/-- A store with the same accounts and the same slots; transactions and slot fillers may have
come in. -/
lemma of_same (h : PurchasesOk st) {st' : Db} (hst : st ≤ st')
    (haccounts : ∀ u, st' (.userAccount u) = st (.userAccount u))
    (hslots : ∀ k, st' (.adSpaceCampaignSlot k) = st (.adSpaceCampaignSlot k))
    (htransactions : ∀ k c doc, (st' (.transaction k)).docAt c = some doc →
      (st (.transaction k)).docAt c = some doc ∨ PaysFor st k doc)
    (hslotFillers : ∀ k, st' (.adSpaceSlotFiller k) = st (.adSpaceSlotFiller k)) :
    PurchasesOk st' where
  accounts :=
    { wellFormed := fun u => by rw [haccounts]; exact h.accounts.wellFormed u
      history := fun u => by rw [haccounts]; exact h.accounts.history u }
  slotOnce k := by rw [hslots]; exact h.slotOnce k
  lockHeld u c k profile := by
    rw [haccounts]
    intro hprofile hslot hc
    obtain ⟨slotDoc, hfilled⟩ := h.lockHeld u c k profile hprofile hslot hc
    exact ⟨slotDoc, hfilled.mono hst⟩
  lockUnique u := by rw [haccounts]; exact h.lockUnique u
  slotOwned k slotDoc hfilled := by
    rw [haccounts]
    exact h.slotOwned k slotDoc (by rwa [FilledWith, hslots] at hfilled)
  debits u c k price profile hversion := by
    rw [haccounts] at hversion
    obtain ⟨hc, slotDoc, hfilled, hfacts⟩ := h.debits u c k price profile hversion
    exact ⟨hc, slotDoc, hfilled.mono hst, hfacts⟩
  transactions k c doc hdoc := by
    rcases htransactions k c doc hdoc with hold | hpays
    · exact (h.transactions k c doc hold).mono hst
    · exact hpays.mono hst
  slotFillers k := by rw [hslotFillers]; exact h.slotFillers k

lemma push_transaction (h : PurchasesOk st) {k : SlotKey} {note : Note} {doc : TransactionDoc}
    (hpays : PaysFor st k doc) : PurchasesOk (st.push (.transaction k) note doc) := by
  refine h.of_same (Store.le_push _ _ _ _) (fun u => by simp) (fun k' => by simp) ?_
    (fun k' => by simp)
  intro k' c d hd
  by_cases hk : k' = k
  · subst hk
    rw [Store.push_self, Cell.docAt_push] at hd
    split at hd
    · exact .inr (Option.some.inj hd ▸ hpays)
    · exact .inl hd
  · have hne : Key.transaction k' ≠ .transaction k := fun he => hk (Key.transaction.inj he)
    rw [Store.push_of_ne st hne] at hd
    exact .inl hd

/-- The filling of a slot. -/
lemma push_slot (h : PurchasesOk st) {k : SlotKey} {note : Note} {doc : SlotDoc}
    (habsent : (st (.adSpaceCampaignSlot k)).cas = 0) {c : ℕ} {profile : UserAccount}
    (hprofile : (st (.userAccount doc.slotFilledWith.username)).docAt c = some profile)
    (hlocked : profile.LockedTowardWith k doc.slotFilledWith) :
    PurchasesOk (st.push (.adSpaceCampaignSlot k) note doc) := by
  have hst : st ≤ st.push (.adSpaceCampaignSlot k) note doc := Store.le_push _ _ _ _
  have hother {k' : SlotKey} (hk : k' ≠ k) :
      st.push (.adSpaceCampaignSlot k) note doc (.adSpaceCampaignSlot k') =
        st (.adSpaceCampaignSlot k') :=
    Store.push_of_ne st (fun he => hk (Key.adSpaceCampaignSlot.inj he)) _ _
  refine
    { accounts := h.accounts.push_other (by simp)
      slotOnce := fun k' => ?_
      lockHeld := fun u c k' d hd hslot hc => ?_
      lockUnique := fun u => by simpa using h.lockUnique u
      slotOwned := fun k' slotDoc hfilled => ?_
      debits := fun u c k' price d hversion => ?_
      transactions := fun k' c d hd => (h.transactions k' c d (by simpa using hd)).mono hst
      slotFillers := fun k' c d hd => h.slotFillers k' c d (by simpa using hd) }
  · by_cases hk : k' = k
    · subst hk
      rw [Store.push_self, Cell.cas_push, habsent]
    · rw [hother hk]
      exact h.slotOnce k'
  · rw [Store.push_of_ne st (by simp)] at hd hc
    obtain ⟨slotDoc, hfilled⟩ := h.lockHeld u c k' d hd hslot hc
    exact ⟨slotDoc, hfilled.mono hst⟩
  · by_cases hk : k' = k
    · subst hk
      obtain rfl : doc = slotDoc := by
        have := hfilled
        rw [FilledWith, Store.push_self, Cell.docAt_push, habsent] at this
        exact Option.some.inj this
      refine ⟨c, profile, by simpa using hprofile, hlocked, .inl ?_⟩
      rw [Store.push_of_ne st (by simp)]
      exact h.lock_current habsent hprofile hlocked.1
    · rw [Store.push_of_ne st (by simp)]
      exact h.slotOwned k' slotDoc (by rwa [FilledWith, hother hk] at hfilled)
  · rw [Store.push_of_ne st (by simp)] at hversion
    obtain ⟨hc, slotDoc, hfilled, hfacts⟩ := h.debits u c k' price d hversion
    exact ⟨hc, slotDoc, hfilled.mono hst, hfacts⟩

/-- Any other document. -/
lemma push_other (h : PurchasesOk st) {k : Key} {note : Note} {doc : Doc k}
    (haccount : ∀ u, k ≠ .userAccount u) (hslot : ∀ k', k ≠ .adSpaceCampaignSlot k')
    (htransaction : ∀ k', k ≠ .transaction k') (hslotFiller : ∀ k', k ≠ .adSpaceSlotFiller k') :
    PurchasesOk (st.push k note doc) := by
  refine h.of_same (Store.le_push _ _ _ _)
    (fun u => Store.push_of_ne st (haccount u).symm _ _)
    (fun k' => Store.push_of_ne st (hslot k').symm _ _) (fun k' c d hd => .inl ?_)
    (fun k' => Store.push_of_ne st (hslotFiller k').symm _ _)
  rwa [Store.push_of_ne st (htransaction k').symm] at hd

/-- The write of a document that is none of the four, and the refused write. -/
lemma perform_other {σ : Type} (h : PurchasesOk st) {k : Key} {note : Note} {doc : Doc k}
    (cas : ℕ) {resume : Reply → σ} (haccount : ∀ u, k ≠ .userAccount u)
    (hslot : ∀ k', k ≠ .adSpaceCampaignSlot k') (htransaction : ∀ k', k ≠ .transaction k')
    (hslotFiller : ∀ k', k ≠ .adSpaceSlotFiller k') :
    PurchasesOk (perform st (.add k note doc resume)).1 ∧
      PurchasesOk (perform st (.set k note doc cas resume)).1 :=
  ⟨perform_add (P := fun r => PurchasesOk r.1)
      (fun _ => h.push_other haccount hslot htransaction hslotFiller) (fun _ => h),
    perform_set_any (P := fun r => PurchasesOk r.1)
      (h.push_other haccount hslot htransaction hslotFiller) (fun _ => h)⟩

/-- Step lemma: what the account machine and the purchase protocol allow keeps the invariant. -/
lemma perform {σ : Type} {a : DbAction σ} (h : PurchasesOk st) (haccount : AccountWritesOk st a)
    (ha : PurchaseWritesOk st a) : PurchasesOk (perform st a).1 := by
  cases a with
  | pause next => exact h
  | get k resume => exact h
  | feed k c resume => exact h
  | add k note doc resume =>
      cases k with
      | userAccount u => exact haccount.elim
      | adSpaceCampaignSlot k =>
          obtain ⟨c, profile, hprofile, hlocked⟩ := ha
          exact perform_add (P := fun r => PurchasesOk r.1)
            (fun habsent => h.push_slot habsent hprofile hlocked) (fun _ => h)
      | transaction k =>
          exact perform_add (P := fun r => PurchasesOk r.1)
            (fun _ => h.push_transaction ha) (fun _ => h)
      | adSpaceSlotFiller k => exact ha.elim
      | _ => exact (h.perform_other 0 (by simp) (by simp) (by simp) (by simp)).1
  | set k note doc cas resume =>
      cases k with
      | userAccount u =>
          obtain ⟨base, hbase, hstep⟩ := haccount
          refine perform_set (P := fun r => PurchasesOk r.1) (Cell.docAt_bounds hbase).1
            (fun hcas => ?_) (fun _ _ => h)
          subst hcas
          exact h.push_account hbase hstep ha
      | adSpaceCampaignSlot k => exact ha.elim
      | transaction k =>
          exact perform_set_any (P := fun r => PurchasesOk r.1)
            (h.push_transaction ha) (fun _ => h)
      | adSpaceSlotFiller k => exact ha.elim
      | _ => exact (h.perform_other cas (by simp) (by simp) (by simp) (by simp)).2

end PurchasesOk

/-- The store before the first purchase: no slot is filled, no account is locked toward one, and
every ad belongs to the user under whose name it is stored. -/
structure PurchasesStart (st : Db) : Prop where
  accounts : AccountsStart st
  noSlots : ∀ k, (st (.adSpaceCampaignSlot k)).cas = 0
  noTransactions : ∀ k, (st (.transaction k)).cas = 0
  noLocks : ∀ u c profile, (st (.userAccount u)).docAt c = some profile →
    profile.slotToAttemptToFillAkaPurchase = none
  noDebits : ∀ u c slot price profile,
    (st (.userAccount u)).version c ≠ some ⟨.debit slot price, profile⟩
  slotFillers : ∀ k c doc, (st (.adSpaceSlotFiller k)).docAt c = some doc →
    doc.username = k.username

lemma PurchasesStart.ok {st : Db} (h : PurchasesStart st) : PurchasesOk st where
  accounts := h.accounts.ok
  slotOnce k := by rw [h.noSlots]; exact Nat.zero_le 1
  lockHeld u c k profile hprofile hslot _ := by
    rw [h.noLocks u c profile hprofile] at hslot
    cases hslot
  lockUnique u c c' k profile profile' hprofile _ hslot _ := by
    rw [h.noLocks u c profile hprofile] at hslot
    cases hslot
  slotOwned k slotDoc hfilled := absurd hfilled (PurchasesOk.not_filledWith (h.noSlots k))
  debits u c k price profile hversion := absurd hversion (h.noDebits u c k price profile)
  transactions k c doc hdoc := by
    have hb := Cell.docAt_bounds hdoc
    rw [h.noTransactions] at hb
    omega
  slotFillers := h.slotFillers

namespace PurchasesStart

variable {st : Db}

lemma empty : PurchasesStart (fun _ => Cell.absent) where
  accounts := .empty
  noSlots _ := rfl
  noTransactions _ := rfl
  noLocks _ _ _ hprofile := by simp at hprofile
  noDebits _ _ _ _ _ := by simp
  slotFillers _ _ _ hdoc := by simp at hdoc

/-- Registering a user. -/
lemma register (h : PurchasesStart st) {u : Username} (habsent : (st (.userAccount u)).cas = 0)
    {profile : UserAccount} (hwf : profile.WellFormed)
    (hslot : profile.slotToAttemptToFillAkaPurchase = none) :
    PurchasesStart (st.push (.userAccount u) .document profile) where
  accounts := h.accounts.register habsent _ hwf
  noSlots k := by simpa using h.noSlots k
  noTransactions k := by simpa using h.noTransactions k
  noLocks v c d hd := by
    by_cases hv : Key.userAccount v = .userAccount u
    · obtain rfl := Key.userAccount.inj hv
      rw [Store.push_self, Cell.docAt_push] at hd
      split at hd
      · exact Option.some.inj hd ▸ hslot
      · exact h.noLocks v c d hd
    · rw [Store.push_of_ne st hv] at hd
      exact h.noLocks v c d hd
  noDebits v c slot price d := by
    by_cases hv : Key.userAccount v = .userAccount u
    · obtain rfl := Key.userAccount.inj hv
      rw [Store.push_self, Cell.version_push]
      split
      · simp
      · exact h.noDebits v c slot price d
    · rw [Store.push_of_ne st hv]
      exact h.noDebits v c slot price d
  slotFillers k c d hd := h.slotFillers k c d (by simpa using hd)

/-- Creating an ad. -/
lemma createSlotFiller (h : PurchasesStart st) (k : SlotFillerKey) (nickname : String) :
    PurchasesStart (st.push (.adSpaceSlotFiller k) .document ⟨k.username, nickname⟩) where
  accounts := h.accounts.create _ _ _ (by simp)
  noSlots k' := by simpa using h.noSlots k'
  noTransactions k' := by simpa using h.noTransactions k'
  noLocks v c d hd := h.noLocks v c d (by simpa using hd)
  noDebits v := by simpa using h.noDebits v
  slotFillers k' c d hd := by
    by_cases hk : k' = k
    · subst hk
      rw [Store.push_self, Cell.docAt_push] at hd
      split at hd
      · exact Option.some.inj hd ▸ rfl
      · exact h.slotFillers k' c d hd
    · rw [Store.push_of_ne st (fun he => hk (Key.adSpaceSlotFiller.inj he))] at hd
      exact h.slotFillers k' c d hd

/-- Creating any other document that is no slot and no transaction. -/
lemma create (h : PurchasesStart st) (k : Key) (doc : Doc k) (haccount : ∀ u, k ≠ .userAccount u)
    (hslot : ∀ k', k ≠ .adSpaceCampaignSlot k') (htransaction : ∀ k', k ≠ .transaction k')
    (hslotFiller : ∀ k', k ≠ .adSpaceSlotFiller k') :
    PurchasesStart (st.push k .document doc) where
  accounts := h.accounts.create _ _ _ haccount
  noSlots k' := by rw [Store.push_of_ne st (hslot k').symm]; exact h.noSlots k'
  noTransactions k' := by
    rw [Store.push_of_ne st (htransaction k').symm]
    exact h.noTransactions k'
  noLocks v c d := by rw [Store.push_of_ne st (haccount v).symm]; exact h.noLocks v c d
  noDebits v c := by rw [Store.push_of_ne st (haccount v).symm]; exact h.noDebits v c
  slotFillers k' c d := by
    rw [Store.push_of_ne st (hslotFiller k').symm]
    exact h.slotFillers k' c d

end PurchasesStart

end Autobackup.Abc2
