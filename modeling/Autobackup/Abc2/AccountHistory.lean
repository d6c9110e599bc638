import Autobackup.Abc2.System

/-!
# What happens to a user account

Five programs rewrite the whole account document from a copy they read some steps before.  Seen
from the account they are transitions of one small machine, `UserAccount.Step`: an unlocked
account is locked toward a slot or a transaction, gets a key or a deposit, and a locked one is
debited, credited or released.  The main result says that the history of every account is a run
of that machine, whatever the interleaving.

The connection is one property of the writes, `AccountWritesOk`: a write carries, with CAS `c`,
a document that is one step away from *the version whose CAS is `c`*.  Since a `set` is accepted
only if that version is still the current one, a stale copy never gets in.  What each program has
to know for its writes to be like that is its `Saved` predicate: which version the JSON and the
CAS it holds came from.
-/

namespace Autobackup.Abc2

/-! ## The account as a machine -/

namespace UserAccount

/-- The transition a write with the given note makes. -/
def Step (before : UserAccount) (note : Note) (after : UserAccount) : Prop :=
  match note with
  | .lockToward slot =>
      before.profileIsLocked = false ∧ ∃ filler, after = before.lockedToward slot filler
  | .debit slot price =>
      before.slotToAttemptToFillAkaPurchase = some slot ∧ after = before.debittedAndUnlocked price
  | .unlockWithoutDebit slot =>
      before.slotToAttemptToFillAkaPurchase = some slot ∧ after = before.withoutSlotLock
  | .lockToCredit tx => before.profileIsLocked = false ∧ after = before.lockedToCredit tx
  | .credit tx amount =>
      before.lockedCredittingTransaction = some tx ∧ after = before.credittedAndUnlocked amount
  | .gettingKey =>
      before.profileIsLocked = false ∧ ∃ setN pageY uuid,
        after = { before with bitcoinState := .GettingKey setN pageY uuid }
  | .haveKey =>
      before.profileIsLocked = false ∧ ∃ key, after = { before with bitcoinState := .HaveKey key }
  | .deposit amount =>
      before.profileIsLocked = false ∧ (∃ key, before.bitcoinState = .HaveKey key) ∧
        after = { before with
          balanceInSatoshis := before.balanceInSatoshis + amount, bitcoinState := .NoKey }
  | .document => False

/-- The invariant of one account document. -/
structure WellFormed (profile : UserAccount) : Prop where
  locks : profile.LocksExclusive
  /-- A filler is named only beside a slot. -/
  filler : profile.slotToAttemptToFillAkaPurchase = none →
    profile.slotToAttemptToFillAkaPurchaseItWith = none

lemma WellFormed.of_not_locked {profile : UserAccount} (h : profile.profileIsLocked = false)
    (hfiller : profile.slotToAttemptToFillAkaPurchaseItWith = none) : profile.WellFormed :=
  ⟨.of_not_locked h, fun _ => hfiller⟩

end UserAccount

/-- What a write takes from the balance. -/
def Note.debitted : Note → ℤ
  | .debit _ price => price
  | _ => 0

/-- What a write adds to the balance. -/
def Note.creditted : Note → ℤ
  | .credit _ amount => amount
  | .deposit amount => amount
  | _ => 0

/-- By how much a write changes the balance. -/
def Note.balanceChange (note : Note) : ℤ := note.creditted - note.debitted

namespace UserAccount

lemma withoutSlotLock_eq_self {profile : UserAccount}
    (hslot : profile.slotToAttemptToFillAkaPurchase = none)
    (hfiller : profile.slotToAttemptToFillAkaPurchaseItWith = none) :
    profile.withoutSlotLock = profile := by
  cases profile
  simp only [withoutSlotLock] at hslot hfiller ⊢
  rw [hslot, hfiller]

variable {before after : UserAccount} {note : Note}

lemma Step.balance (h : before.Step note after) :
    after.balanceInSatoshis = before.balanceInSatoshis + note.balanceChange := by
  unfold Note.balanceChange
  cases note with
  | lockToward slot =>
      obtain ⟨-, filler, rfl⟩ := h
      simp [lockedToward, Note.creditted, Note.debitted]
  | debit slot price =>
      obtain ⟨-, rfl⟩ := h
      simp [debittedAndUnlocked, Note.creditted, Note.debitted, sub_eq_add_neg]
  | unlockWithoutDebit slot =>
      obtain ⟨-, rfl⟩ := h
      simp [withoutSlotLock, Note.creditted, Note.debitted]
  | lockToCredit tx =>
      obtain ⟨-, rfl⟩ := h
      simp [lockedToCredit, Note.creditted, Note.debitted]
  | credit tx amount =>
      obtain ⟨-, rfl⟩ := h
      simp [credittedAndUnlocked, Note.creditted, Note.debitted]
  | gettingKey => obtain ⟨-, _, _, _, rfl⟩ := h; simp [Note.creditted, Note.debitted]
  | haveKey => obtain ⟨-, _, rfl⟩ := h; simp [Note.creditted, Note.debitted]
  | deposit amount => obtain ⟨-, -, rfl⟩ := h; simp [Note.creditted, Note.debitted]
  | document => exact h.elim

lemma Step.wellFormed (h : before.Step note after) (hb : before.WellFormed) :
    after.WellFormed := by
  cases note with
  | lockToward slot =>
      obtain ⟨hunlocked, filler, rfl⟩ := h
      obtain ⟨-, hwithdraw, hcredit⟩ := profileIsLocked_eq_false.1 hunlocked
      exact ⟨⟨fun _ => ⟨hwithdraw, hcredit⟩, fun h => absurd hwithdraw h⟩, by
        simp [lockedToward]⟩
  | debit slot price =>
      obtain ⟨hslot, rfl⟩ := h
      have hothers := hb.locks.slot (by rw [hslot]; simp)
      exact ⟨⟨fun h => absurd rfl h, fun h => absurd hothers.1 h⟩, fun _ => rfl⟩
  | unlockWithoutDebit slot =>
      obtain ⟨hslot, rfl⟩ := h
      have hothers := hb.locks.slot (by rw [hslot]; simp)
      exact ⟨⟨fun h => absurd rfl h, fun h => absurd hothers.1 h⟩, fun _ => rfl⟩
  | lockToCredit tx =>
      obtain ⟨hunlocked, rfl⟩ := h
      obtain ⟨hslot, hwithdraw, -⟩ := profileIsLocked_eq_false.1 hunlocked
      exact ⟨⟨fun h => absurd hslot h, fun h => absurd hwithdraw h⟩, hb.filler⟩
  | credit tx amount =>
      obtain ⟨hcredit, rfl⟩ := h
      refine ⟨⟨fun h => ?_, fun _ => rfl⟩, hb.filler⟩
      have := (hb.locks.slot h).2
      rw [hcredit] at this
      cases this
  | gettingKey => obtain ⟨-, _, _, _, rfl⟩ := h; exact ⟨⟨hb.locks.1, hb.locks.2⟩, hb.filler⟩
  | haveKey => obtain ⟨-, _, rfl⟩ := h; exact ⟨⟨hb.locks.1, hb.locks.2⟩, hb.filler⟩
  | deposit amount => obtain ⟨-, -, rfl⟩ := h; exact ⟨⟨hb.locks.1, hb.locks.2⟩, hb.filler⟩
  | document => exact h.elim

/-- What a transition presupposes: no lock at all, or the very lock it removes. -/
lemma Step.inversion (h : before.Step note after) :
    before.profileIsLocked = false ∨
      (∃ slot, before.slotToAttemptToFillAkaPurchase = some slot ∧
        ((∃ price, note = .debit slot price) ∨ note = .unlockWithoutDebit slot)) ∨
      ∃ tx amount, before.lockedCredittingTransaction = some tx ∧ note = .credit tx amount := by
  cases note with
  | lockToward slot => exact .inl h.1
  | debit slot price => exact .inr (.inl ⟨slot, h.1, .inl ⟨price, rfl⟩⟩)
  | unlockWithoutDebit slot => exact .inr (.inl ⟨slot, h.1, .inr rfl⟩)
  | lockToCredit tx => exact .inl h.1
  | credit tx amount => exact .inr (.inr ⟨tx, amount, h.1, rfl⟩)
  | gettingKey => exact .inl h.1
  | haveKey => exact .inl h.1
  | deposit amount => exact .inl h.1
  | document => exact h.elim

/-- An account locked toward a slot can only be debited for it or released from it. -/
lemma Step.of_slot (h : before.Step note after) (hb : before.WellFormed) {slot : SlotKey}
    (hslot : before.slotToAttemptToFillAkaPurchase = some slot) :
    (∃ price, note = .debit slot price) ∨ note = .unlockWithoutDebit slot := by
  rcases h.inversion with hunlocked | ⟨slot', hslot', hnote⟩ | ⟨tx, amount, htx, -⟩
  · rw [(profileIsLocked_eq_false.1 hunlocked).1] at hslot
    cases hslot
  · rw [hslot] at hslot'
    obtain rfl := Option.some.inj hslot'
    exact hnote
  · rw [(hb.locks.slot (by rw [hslot]; simp)).2] at htx
    cases htx

/-- An account locked toward a transaction can only be credited for it. -/
lemma Step.of_credit (h : before.Step note after) (hb : before.WellFormed) {tx : SlotKey}
    (htx : before.lockedCredittingTransaction = some tx) :
    ∃ amount, note = .credit tx amount := by
  rcases h.inversion with hunlocked | ⟨slot', hslot', -⟩ | ⟨tx', amount, htx', hnote⟩
  · rw [(profileIsLocked_eq_false.1 hunlocked).2.2] at htx
    cases htx
  · rw [(hb.locks.slot (by rw [hslot']; simp)).2] at htx
    cases htx
  · rw [htx] at htx'
    obtain rfl := Option.some.inj htx'
    exact ⟨amount, hnote⟩

/-- Nothing here touches an account that is being withdrawn from. -/
lemma Step.not_withdrawing (h : before.Step note after) (hb : before.WellFormed) :
    before.lockedWithdrawingFunds = none := by
  rcases h.inversion with hunlocked | ⟨slot', hslot', -⟩ | ⟨tx', amount, htx', -⟩
  · exact (profileIsLocked_eq_false.1 hunlocked).2.1
  · exact (hb.locks.slot (by rw [hslot']; simp)).1
  · by_contra hwithdraw
    rw [hb.locks.withdrawing hwithdraw] at htx'
    cases htx'

end UserAccount

/-! ## The store invariant and the writes that keep it -/

/-- Every account document is well formed and every account's history is a run of the account
machine. -/
structure AccountsOk (st : Db) : Prop where
  wellFormed : ∀ u c d, (st (.userAccount u)).docAt c = some d → d.WellFormed
  history : ∀ u, (st (.userAccount u)).Chain UserAccount.Step

/-- The account writes of an action are steps from the version their CAS belongs to. -/
def AccountWritesOk {σ : Type} (st : Db) : DbAction σ → Prop
  | .set (.userAccount u) note doc cas _ =>
      ∃ base, (st (.userAccount u)).docAt cas = some base ∧ base.Step note doc
  | .add (.userAccount _) _ _ _ => False
  | _ => True

lemma AccountsOk.push_account {st : Db} (h : AccountsOk st) {u : Username} {note : Note}
    {base doc : UserAccount} (hbase : (st (.userAccount u)).current = some base)
    (hstep : base.Step note doc) : AccountsOk (st.push (.userAccount u) note doc) := by
  constructor
  · intro v c d hd
    by_cases hv : Key.userAccount v = .userAccount u
    · obtain rfl := Key.userAccount.inj hv
      rw [Store.push_self, Cell.docAt_push] at hd
      split at hd
      · obtain rfl := Option.some.inj hd
        exact hstep.wellFormed (h.wellFormed v _ base hbase)
      · exact h.wellFormed v c d hd
    · rw [Store.push_of_ne st hv] at hd
      exact h.wellFormed v c d hd
  · intro v
    by_cases hv : Key.userAccount v = .userAccount u
    · obtain rfl := Key.userAccount.inj hv
      rw [Store.push_self]
      refine (h.history v).push fun e he => ?_
      rw [hbase] at he
      exact Option.some.inj he ▸ hstep
    · rw [Store.push_of_ne st hv]
      exact h.history v

lemma AccountsOk.push_other {st : Db} (h : AccountsOk st) {k : Key} {note : Note} {doc : Doc k}
    (hk : ∀ u, k ≠ .userAccount u) : AccountsOk (st.push k note doc) := by
  constructor
  · intro u c d hd
    rw [Store.push_of_ne st (hk u).symm] at hd
    exact h.wellFormed u c d hd
  · intro u
    rw [Store.push_of_ne st (hk u).symm]
    exact h.history u

/-- Step lemma: writes of that kind keep the account invariant. -/
lemma AccountsOk.perform {σ : Type} {st : Db} {a : DbAction σ} (h : AccountsOk st)
    (ha : AccountWritesOk st a) : AccountsOk (perform st a).1 := by
  cases a with
  | pause next => exact h
  | get k resume => exact h
  | feed k c resume => exact h
  | add k note doc resume =>
      refine perform_add (P := fun r => AccountsOk r.1) (fun _ => ?_) (fun _ => h)
      refine h.push_other fun u hu => ?_
      subst hu
      exact ha
  | set k note doc cas resume =>
      by_cases hk : ∃ u, k = .userAccount u
      · obtain ⟨u, rfl⟩ := hk
        obtain ⟨base, hbase, hstep⟩ := ha
        refine perform_set (P := fun r => AccountsOk r.1) (Cell.docAt_bounds hbase).1
          (fun hcas => ?_) (fun _ _ => h)
        subst hcas
        exact h.push_account hbase hstep
      · simp only [Autobackup.perform]
        split
        · exact h.push_other fun u hu => hk ⟨u, hu⟩
        · split <;> exact h

/-! ## Before the first step -/

/-- The accounts before the programs start: registered, well formed and not yet rewritten.
Registering an account is an `add` of its own, before any of the flows can touch it, and is not
modelled. -/
structure AccountsStart (st : Db) : Prop where
  single : ∀ u, (st (.userAccount u)).cas ≤ 1
  wellFormed : ∀ u c d, (st (.userAccount u)).docAt c = some d → d.WellFormed

lemma AccountsStart.ok {st : Db} (h : AccountsStart st) : AccountsOk st where
  wellFormed := h.wellFormed
  history u c d v hd hv := by
    have hsingle := h.single u
    have hc := Cell.docAt_bounds hd
    have hnext := Cell.version_bounds hv
    omega

namespace AccountsStart

variable {st : Db}

lemma empty : AccountsStart (fun _ => Cell.absent) where
  single _ := Nat.zero_le 1
  wellFormed u c d hd := by
    have hc := Cell.docAt_bounds hd
    rw [Cell.cas_absent] at hc
    omega

/-- Registering a user. -/
lemma register (h : AccountsStart st) {u : Username} (habsent : (st (.userAccount u)).cas = 0)
    (note : Note) {profile : UserAccount} (hwf : profile.WellFormed) :
    AccountsStart (st.push (.userAccount u) note profile) := by
  constructor
  · intro v
    by_cases hv : Key.userAccount v = .userAccount u
    · obtain rfl := Key.userAccount.inj hv
      rw [Store.push_self, Cell.cas_push, habsent]
    · rw [Store.push_of_ne st hv]
      exact h.single v
  · intro v c d hd
    by_cases hv : Key.userAccount v = .userAccount u
    · obtain rfl := Key.userAccount.inj hv
      rw [Store.push_self, Cell.docAt_push] at hd
      split at hd
      · exact Option.some.inj hd ▸ hwf
      · exact h.wellFormed v c d hd
    · rw [Store.push_of_ne st hv] at hd
      exact h.wellFormed v c d hd

/-- Creating any other document. -/
lemma create (h : AccountsStart st) (k : Key) (note : Note) (doc : Doc k)
    (hk : ∀ u, k ≠ .userAccount u) : AccountsStart (st.push k note doc) := by
  constructor
  · intro u
    rw [Store.push_of_ne st (hk u).symm]
    exact h.single u
  · intro u c d hd
    rw [Store.push_of_ne st (hk u).symm] at hd
    exact h.wellFormed u c d hd

end AccountsStart

end Autobackup.Abc2
