import Autobackup.Abc2.DebitedOnce

/-!
# No lost update on a user account

The five flows that rewrite accounts (purchase, login recovery, recoverer, creditor, add-funds
tab) never write a stale copy over a newer one.  The account machine says what a single write
does; here it is read off for every reachable state of the system: an account carries at most one
lock, the lock goes away only by a write over the very version that carries it, and the balance
is the initial one plus what was creditted and minus what was debitted since.

A client may stop after any of its operations and never come back, which is what a killed process or
a closed browser window is.  The five flows are one type of client here (`Process`), so that any
number of each may run at the same time.  Withdrawals are not among them: they lock a profile in a
field of their own and have their own system (`Autobackup.Abc2.WithdrawalRuns`,
`Autobackup.Abc2.ScheduledRequests`).
-/

namespace Autobackup.Abc2

/-! ## Locks -/

/-- What an account can be locked for. -/
inductive ProfileLock
  | fillingSlot (slot : SlotKey)
  | withdrawingFunds (request : WithdrawFundsRequestKey)
  | credittingTransaction (tx : SlotKey)
  deriving DecidableEq, Repr

/-- The lock is present in the account document.  There are three fields that a lock may stand in,
and a lock is known by the field and by what it names. -/
def UserAccount.Holds (profile : UserAccount) : ProfileLock → Prop
  | .fillingSlot slot => profile.slotToAttemptToFillAkaPurchase = some slot
  | .withdrawingFunds request => profile.lockedWithdrawingFunds = some request
  | .credittingTransaction tx => profile.lockedCredittingTransaction = some tx

instance (profile : UserAccount) (lock : ProfileLock) : Decidable (profile.Holds lock) := by
  cases lock <;> unfold UserAccount.Holds <;> infer_instance

/-- A write with this note is meant to remove the lock.  A debit removes the lock of its slot and a
credit that of its transaction; a release removes it without a change of the balance. -/
def Note.Releases : Note → ProfileLock → Prop
  | .debit slot _, .fillingSlot slot' => slot = slot'
  | .unlockWithoutDebit slot, .fillingSlot slot' => slot = slot'
  | .credit tx _, .credittingTransaction tx' => tx = tx'
  | _, _ => False

namespace UserAccount

lemma LocksExclusive.holds_unique {profile : UserAccount} (h : profile.LocksExclusive)
    {lock lock' : ProfileLock} (hlock : profile.Holds lock) (hlock' : profile.Holds lock') :
    lock = lock' := by
  obtain ⟨hslot, hwithdraw⟩ := h
  cases lock <;> cases lock' <;> simp_all [Holds]

/-- The only writes on a locked account are those that remove its lock. -/
lemma Step.releases {before after : UserAccount} {note : Note} (h : before.Step note after)
    (hb : before.WellFormed) {lock : ProfileLock} (hlock : before.Holds lock) :
    note.Releases lock := by
  cases lock with
  | fillingSlot slot =>
      rcases h.of_slot hb hlock with ⟨price, rfl⟩ | rfl
      · rfl
      · rfl
  | withdrawingFunds request =>
      have hnone : before.lockedWithdrawingFunds = none := h.not_withdrawing hb
      have hsome : before.lockedWithdrawingFunds = some request := hlock
      rw [hnone] at hsome
      cases hsome
  | credittingTransaction tx =>
      obtain ⟨amount, rfl⟩ := h.of_credit hb hlock
      rfl

end UserAccount

lemma Note.sum_balanceChange (notes : List Note) :
    (notes.map balanceChange).sum = (notes.map creditted).sum - (notes.map debitted).sum := by
  induction notes with
  | nil => rfl
  | cons note notes ih =>
      simp only [List.map_cons, List.sum_cons, ih, balanceChange]
      ring

/-! ## One step -/

/-- What changed an account document: a `set` with the CAS of the version it replaced, whose
document is one transition away from that version. -/
lemma account_changed {σ : Type} {st : Db} {a : DbAction σ} (ha : AccountWritesOk st a)
    {u : Username} (hne : (perform st a).1 (.userAccount u) ≠ st (.userAccount u)) :
    ∃ note profile before resume,
      a = .set (.userAccount u) note profile (st (.userAccount u)).cas resume ∧
      0 < (st (.userAccount u)).cas ∧ (st (.userAccount u)).current = some before ∧
      before.Step note profile ∧ (perform st a).1 = st.push (.userAccount u) note profile := by
  rcases perform_ne hne with ⟨n, d, resume, rfl, -, -⟩ | ⟨n, d, c, resume, rfl, hc, hst⟩
  · exact ha.elim
  · obtain ⟨before, hbefore, hstep⟩ := ha
    have hb := Cell.docAt_bounds hbefore
    obtain rfl := hc.resolve_left (by omega)
    exact ⟨n, d, before, resume, rfl, hb.1, hbefore, hstep, hst⟩

/-! ## Every run -/

section Runs

variable {ι : Type} [DecidableEq ι] {sizes : KeySetSizes} {w₀ w : System ι}

/-- The notes of the writes of `u`'s account since the start. -/
def accountWritesSince (w₀ w : System ι) (u : Username) : List Note :=
  (w.store (.userAccount u)).notes.drop (w₀.store (.userAccount u)).cas

/-- None of the programs registers accounts. -/
lemma account_of_reaches (haccounts : AccountsStart w₀.store)
    (hprocesses : ∀ i, (w₀.client i).Initial)
    (hreach : Reaches (Process.act sizes) anyStep w₀ w) {u : Username}
    (hpos : 0 < (w.store (.userAccount u)).cas) : 0 < (w₀.store (.userAccount u)).cas := by
  induction hreach with
  | start => exact hpos
  | @step w i x hreach _ ih =>
      obtain ⟨hok, hsaved⟩ := saved_of_reaches haccounts hprocesses hreach
      by_cases hne : (perform w.store ((w.client i).act sizes x)).1 (.userAccount u) =
          w.store (.userAccount u)
      · exact ih (hne ▸ hpos)
      · obtain ⟨_, _, _, _, -, hbefore, -⟩ :=
          account_changed (Process.act_accountWritesOk hok (hsaved i)) hne
        exact ih hbefore

lemma balance_of_reaches (haccounts : AccountsOk w.store)
    (hreach : Reaches (Process.act sizes) anyStep w₀ w) {u : Username}
    {profile₀ profile : UserAccount}
    (hfirst : (w₀.store (.userAccount u)).current = some profile₀)
    (hlast : (w.store (.userAccount u)).current = some profile) :
    profile.balanceInSatoshis = profile₀.balanceInSatoshis +
      ((accountWritesSince w₀ w u).map Note.creditted).sum -
      ((accountWritesSince w₀ w u).map Note.debitted).sum := by
  have hle := hreach.store_le (.userAccount u)
  have hsum := (haccounts.history u).sum (fun _ _ _ h => UserAccount.Step.balance h)
    (Cell.cas_mono hle) (Cell.docAt_mono hle hfirst) hlast
  have hlength : (w.store (.userAccount u)).notes.length = (w.store (.userAccount u)).cas := by
    simp [Cell.notes, Cell.cas]
  rw [List.take_of_length_le (by omega)] at hsum
  rw [hsum, add_sub_assoc, ← Note.sum_balanceChange]
  rfl

/-- **No lost update.**  However the programs are interleaved and wherever each of them stops: an
account carries at most one lock; whoever makes a lock disappear does it by a `set` whose CAS is
that of the locked version and whose document is one transition away from it; and the balance is the
initial balance plus the credits and minus the debits.

The second part is about the very step at which a lock disappears, so it says who did it and with
which document, not only that it is gone.  The third one sums over the notes of all versions since
the start; a write that was lost would leave its credit or its debit in the sum and not in the
balance. -/
theorem no_lost_update (haccounts : AccountsStart w₀.store)
    (hprocesses : ∀ i, (w₀.client i).Initial)
    (hreach : Reaches (Process.act sizes) anyStep w₀ w) {u : Username} {cas : ℕ}
    {profile : UserAccount} (hread : (w.store (.userAccount u)).get = some (cas, profile)) :
    (∀ lock lock', profile.Holds lock → profile.Holds lock' → lock = lock') ∧
    (∀ lock i x cas' profile', profile.Holds lock →
      ((w.step (Process.act sizes) i x).store (.userAccount u)).get = some (cas', profile') →
      ¬ profile'.Holds lock →
      ∃ note resume, (w.client i).act sizes x = .set (.userAccount u) note profile' cas resume ∧
        0 < cas ∧ note.Releases lock ∧ profile.Step note profile') ∧
    ∃ profile₀, (w₀.store (.userAccount u)).current = some profile₀ ∧
      profile.balanceInSatoshis = profile₀.balanceInSatoshis +
        ((accountWritesSince w₀ w u).map Note.creditted).sum -
        ((accountWritesSince w₀ w u).map Note.debitted).sum := by
  obtain ⟨hok, hsaved⟩ := saved_of_reaches haccounts hprocesses hreach
  obtain ⟨rfl, hprofile⟩ := Cell.get_eq_some.1 hread
  have hwf := hok.wellFormed u _ profile hprofile
  refine ⟨fun lock lock' => hwf.locks.holds_unique, ?_, ?_⟩
  · intro lock i x cas' profile' hlock hread' hreleased
    obtain ⟨rfl, hprofile'⟩ := Cell.get_eq_some.1 hread'
    have hne : (perform w.store ((w.client i).act sizes x)).1 (.userAccount u) ≠
        w.store (.userAccount u) := by
      intro hsame
      have hstore : (w.step (Process.act sizes) i x).store (.userAccount u) =
          w.store (.userAccount u) := hsame
      rw [hstore, hprofile] at hprofile'
      exact hreleased (Option.some.inj hprofile' ▸ hlock)
    obtain ⟨note, after, before, resume, hact, hcas, hbefore, hstep, hst⟩ :=
      account_changed (Process.act_accountWritesOk hok (hsaved i)) hne
    obtain rfl : profile = before := Option.some.inj (hprofile.symm.trans hbefore)
    obtain rfl : profile' = after := by
      have hstore : (w.step (Process.act sizes) i x).store =
          w.store.push (.userAccount u) note after := hst
      rw [hstore, Store.push_self] at hprofile'
      exact Option.some.inj (hprofile'.symm.trans (Cell.current_push _ _ _))
    exact ⟨note, resume, hact, hcas, hstep.releases hwf hlock, hstep⟩
  · have hpos := account_of_reaches haccounts hprocesses hreach (Cell.docAt_bounds hprofile).1
    obtain ⟨profile₀, hfirst⟩ := Cell.exists_docAt hpos (Nat.le_refl _)
    exact ⟨profile₀, hfirst, balance_of_reaches hok hreach hfirst hprofile⟩

end Runs

/-! ## Five programs on one account -/

/-- The account of a user who buys a slot, has sold one, and gets a deposit. -/
def busyAccount : System ℕ where
  store :=
    let st := oneCampaign.push (.transaction ⟨⟨"buyer", 0⟩, 0⟩) .document
      (createTransactionDoc "buyer" "somebody" 1000)
    let st := st.push (.bitcoinKeySetCurrentPage 0) .document (.currentPage 0)
    st.push (.bitcoinKeySetPage 0 0) .document [{ key := "1buyer" }]
  client
    | 0 => .session { members := { ajax := true, campaign := d3faultCampaign0 } }
    | 1 => .recoverer .sleeping
    | 2 => .addFunds { currentlyLoggedInUsername := "buyer" }
    | _ => .creditor (.creditTransactions [⟨⟨"buyer", 0⟩, 0⟩])

lemma busyAccount_accountsStart : AccountsStart busyAccount.store :=
  ((oneCampaign_purchasesStart.accounts.create _ _ _ (by simp)).create _ _ _ (by simp)).create
    _ _ _ (by simp)

lemma busyAccount_initial (i : ℕ) : (busyAccount.client i).Initial := by
  rcases i with _ | _ | _ | i
  · exact .session _ _
  · exact .recoverer
  · exact .addFunds _
  · exact .creditor _

/-- The add-funds tab and a creditor have read the account when the session locks it.  Both are
refused, the creditor for good.  The session stops when it has filled the slot. -/
def untilSlotFilled : List (ℕ × ProcessInput) :=
  let proceed := (2, .addFunds (.proceed 0 0))
  [(2, .addFunds .populateAndInitialize), proceed,
    (2, .addFunds .handleGetBitcoinKeyButtonClicked), proceed, proceed, (3, .run), (3, .run)] ++
  buyUntilFilled.map (fun x => (0, x)) ++ [(3, .run), (3, .run), proceed, proceed]

/-- The recoverer debits the account, a second creditor credits it, and the tab gets a key and
credits a deposit. -/
def untilDeposit : List (ℕ × ProcessInput) :=
  let proceed := (2, .addFunds (.proceed 0 1))
  List.replicate 14 (1, .run) ++ List.replicate 5 (4, .run) ++
    (2, .addFunds .handleGetBitcoinKeyButtonClicked) :: List.replicate 7 proceed ++
    [(2, .addFunds (.confirmedBitcoinBalance 300000)),
      (2, .addFunds .doneSendingBitcoinsToCurrentAddressButtonClicked), proceed, proceed]

theorem no_lost_update_busyAccount :
    let w := busyAccount.run (Process.act ⟨1, 1, 1⟩) (untilSlotFilled ++ untilDeposit)
    let notes := accountWritesSince busyAccount w "buyer"
    let profile : UserAccount := { balanceInSatoshis := 10 - 2 + 984 + 300000 }
    (w.store (.userAccount "buyer")).get = some (8, profile) ∧
      notes.map Note.creditted = [0, 0, 0, 984, 0, 0, 300000] ∧
      notes.map Note.debitted = [0, 2, 0, 0, 0, 0, 0] ∧
      ∃ profile₀, (busyAccount.store (.userAccount "buyer")).current = some profile₀ ∧
        profile.balanceInSatoshis = profile₀.balanceInSatoshis +
          (notes.map Note.creditted).sum - (notes.map Note.debitted).sum := by
  intro w notes profile
  have hread : (w.store (.userAccount "buyer")).get = some (8, profile) := by decide +kernel
  exact ⟨hread, by decide +kernel, by decide +kernel, (no_lost_update busyAccount_accountsStart
    busyAccount_initial (reaches_run _ _) hread).2.2⟩

end Autobackup.Abc2
