import Autobackup.Abc2.WithdrawFunds
import Autobackup.Foundation.OwnedVersions
import Mathlib.Tactic.Ring
import Mathlib.Tactic.FinCases

/-!
# Requests that were scheduled stay scheduled

Tabs and processors work on the same requests, at the same time.  A tab only creates them, and the
processor writes a request only over the version that it has read, changing nothing but its state.
So a request stays what the user was told it is, and what the processor sends for it is what was
asked for.

The balance is checked against a total that the tab computes in doubles, the processor goes by the
satoshis that are stored.  The second total is three satoshis more at most, and the same for a whole
number of satoshis up to 10 million bitcoin.

The tab and the processor are two kinds of clients of one database.  Left out are the texts that a
user is shown and the fields with a fee that are only displayed: what counts is the total at the
moment at which the button is clicked.
-/

namespace Autobackup.Abc2

open WithdrawRequestProcessor Binary64

/-! ## What is asked for -/

lemma minWithdrawAmount_bounds : 3 / 100 - 1 / 10 ^ 15 ≤ minWithdrawAmount := by decide +kernel

namespace WithdrawForm

variable {form : WithdrawForm}

/-- The amount of the text in satoshis, exactly. -/
def exactSatoshis (form : WithdrawForm) : ℚ := form.desiredAmountText * 10 ^ 8

/-- What the processor takes for the request. -/
def totalAmountOfRequest (form : WithdrawForm) : ℤ :=
  totalAmount withdrawalFeeInSatoshis form.request

lemma Valid.nonneg (h : form.Valid) : 0 ≤ form.desiredAmountToWithdraw := by
  have hmin := minWithdrawAmount_bounds
  linarith [h.1.1]

lemma Valid.satoshis_le (h : form.Valid) :
    form.desiredAmountToWithdraw * 10 ^ 8 ≤ 2100000000000000 := by
  linarith [h.1.2]

/-- The satoshis of a request are next to those of the double. -/
lemma request_amount_near (h : form.Valid) :
    form.desiredAmountToWithdraw * 10 ^ 8 - 97 / 100 <
        form.request.desiredWithdrawAmountInSatoshis ∧
      (form.request.desiredWithdrawAmountInSatoshis : ℚ) <
        form.desiredAmountToWithdraw * 10 ^ 8 + 97 / 100 := by
  have hmax := h.satoshis_le
  obtain ⟨hlow, hhigh⟩ := satoshis_bounds h.nonneg (by linarith)
  rw [request]
  constructor <;> linarith

/-- A request is for 0.03 bitcoin at least, and 21 million at most. -/
lemma request_amount_bounds (h : form.Valid) :
    3000000 ≤ form.request.desiredWithdrawAmountInSatoshis ∧
      form.request.desiredWithdrawAmountInSatoshis ≤ 2100000000000000 := by
  have hmin := minWithdrawAmount_bounds
  have hmax := h.satoshis_le
  obtain ⟨hlow, -⟩ := satoshis_bounds h.nonneg (by linarith)
  have hhigh := (request_amount_near h).2
  have hlower : (2999999 : ℚ) < form.request.desiredWithdrawAmountInSatoshis := by
    rw [request]
    linarith [h.1.1]
  have hupper : (form.request.desiredWithdrawAmountInSatoshis : ℚ) < 2100000000000001 := by
    linarith
  have hlower' : 2999999 < form.request.desiredWithdrawAmountInSatoshis := by exact_mod_cast hlower
  have hupper' : form.request.desiredWithdrawAmountInSatoshis < 2100000000000001 := by
    exact_mod_cast hupper
  omega

/-! ## The two totals -/

/-- The amount that the processor computes the fee of, which went through whole satoshis. -/
lemma amountOfRequest_bounds (h : form.Valid) :
    0 ≤ satoshiIntToJsonDouble roundToDouble form.request.desiredWithdrawAmountInSatoshis ∧
      satoshiIntToJsonDouble roundToDouble form.request.desiredWithdrawAmountInSatoshis * 10 ^ 8 ≤
        2200000000000000 ∧
      satoshiIntToJsonDouble roundToDouble form.request.desiredWithdrawAmountInSatoshis * 10 ^ 8 ≤
        form.desiredAmountToWithdraw * 10 ^ 8 + 2 := by
  have hsmall := smallest_le
  obtain ⟨hmin, hmax⟩ := request_amount_bounds h
  have hnear := (request_amount_near h).2
  have hminCast : (3000000 : ℚ) ≤ form.request.desiredWithdrawAmountInSatoshis := by
    exact_mod_cast hmin
  have hmaxCast : (form.request.desiredWithdrawAmountInSatoshis : ℚ) ≤ 2100000000000000 := by
    exact_mod_cast hmax
  rw [satoshiIntToJsonDouble, roundToDouble_intCast (by omega)]
  generalize (form.request.desiredWithdrawAmountInSatoshis : ℚ) = amount at *
  have hquotient : 0 ≤ amount / 10 ^ 8 := by positivity
  have hround := (roundToDouble_bounds hquotient).2
  refine ⟨roundToDouble_nonneg hquotient, ?_, ?_⟩
  · linarith
  · linarith

lemma totalAmountOfRequest_eq_add (h : form.Valid) :
    form.totalAmountOfRequest = form.request.desiredWithdrawAmountInSatoshis +
      feeInSatoshis
        (satoshiIntToJsonDouble roundToDouble form.request.desiredWithdrawAmountInSatoshis) := by
  obtain ⟨hnonneg, hmax, -⟩ := amountOfRequest_bounds h
  rw [totalAmountOfRequest, totalAmount, withdrawalFeeInSatoshis,
    satoshis_withdrawalFee hnonneg hmax]

/-- The amount with the fee, before it is rounded to satoshis. -/
def amountWithFee (form : WithdrawForm) : ℚ :=
  roundToDouble (form.desiredAmountToWithdraw +
    withdrawalFeeForWithdrawalAmount roundToDouble form.desiredAmountToWithdraw)

/-- The fee that the tab adds, in satoshis. -/
lemma withdrawalFee_bounds (h : form.Valid) :
    0 ≤ withdrawalFeeForWithdrawalAmount roundToDouble form.desiredAmountToWithdraw ∧
      (feeInSatoshis form.desiredAmountToWithdraw : ℚ) - 1 / 100 ≤
        withdrawalFeeForWithdrawalAmount roundToDouble form.desiredAmountToWithdraw * 10 ^ 8 ∧
      withdrawalFeeForWithdrawalAmount roundToDouble form.desiredAmountToWithdraw * 10 ^ 8 ≤
        feeInSatoshis form.desiredAmountToWithdraw + 1 / 100 := by
  have hsmall := smallest_le
  have hmax := h.satoshis_le
  have hnonneg := feeInSatoshis_nonneg h.nonneg
  have hfee := (feeInSatoshis_bounds h.nonneg (by linarith)).2
  have hle := feeInSatoshis_le h.nonneg (by linarith)
  rw [withdrawalFee_eq h.nonneg (by linarith), satoshiIntToJsonDouble,
    roundToDouble_intCast (by omega)]
  have hnonnegCast : (0 : ℚ) ≤ feeInSatoshis form.desiredAmountToWithdraw := by
    exact_mod_cast hnonneg
  generalize (feeInSatoshis form.desiredAmountToWithdraw : ℚ) = fee at *
  have hquotient : 0 ≤ fee / 10 ^ 8 := by positivity
  have hround := roundToDouble_bounds hquotient
  refine ⟨roundToDouble_nonneg hquotient, ?_, ?_⟩
  · linarith [hround.1]
  · linarith [hround.2]

/-- What the roundings of the fee and of the sum add up to. -/
lemma amountWithFee_bounds (h : form.Valid) {total : ℚ}
    (htotal : form.desiredAmountToWithdraw * 10 ^ 8 +
      feeInSatoshis form.desiredAmountToWithdraw = total) :
    0 ≤ form.amountWithFee ∧ total - total / 2 ^ 53 - 1 / 50 ≤ form.amountWithFee * 10 ^ 8 ∧
      form.amountWithFee * 10 ^ 8 ≤ total + total / 2 ^ 53 + 1 / 50 := by
  have hsmall := smallest_le
  have hnonneg := h.nonneg
  obtain ⟨hfeeNonneg, hfeeLow, hfeeHigh⟩ := withdrawalFee_bounds h
  have hsumNonneg := add_nonneg hnonneg hfeeNonneg
  have hround := roundToDouble_bounds hsumNonneg
  refine ⟨roundToDouble_nonneg hsumNonneg, ?_, ?_⟩
  · rw [amountWithFee]
    linarith [hround.1]
  · rw [amountWithFee]
    linarith [hround.2]

/-- **What the processor takes** is three satoshis more at most than what the tab has checked
for. -/
lemma totalAmountOfRequest_le (h : form.Valid) :
    form.totalAmountOfRequest ≤ form.totalAmountInSatoshis + 3 := by
  have hmax := h.satoshis_le
  obtain ⟨hnonneg, hmaxOfRequest, hclose⟩ := amountOfRequest_bounds h
  have hfees := feeInSatoshis_le_add_one hnonneg hmaxOfRequest h.nonneg (by linarith) hclose
  have hfeesCast : (feeInSatoshis (satoshiIntToJsonDouble roundToDouble
      form.request.desiredWithdrawAmountInSatoshis) : ℚ) ≤
      feeInSatoshis form.desiredAmountToWithdraw + 1 := by exact_mod_cast hfees
  have hamount := (request_amount_near h).2
  have hfee := (feeInSatoshis_bounds h.nonneg (by linarith)).2
  obtain ⟨hwithFee, hlow, hhigh⟩ := amountWithFee_bounds h rfl
  have hchecked := (satoshis_bounds hwithFee (by linarith)).1
  have hlt : (form.totalAmountOfRequest : ℚ) < form.totalAmountInSatoshis + 4 := by
    rw [totalAmountOfRequest_eq_add h, totalAmountInSatoshis, ← amountWithFee]
    push_cast
    linarith
  have hlt' : form.totalAmountOfRequest < form.totalAmountInSatoshis + 4 := by exact_mod_cast hlt
  omega

lemma text_nonneg (h : form.Valid) : 0 ≤ form.desiredAmountText := by
  by_contra hneg
  have hsmall := smallest_le
  have hmin := minWithdrawAmount_bounds
  have hvalid := h.1.1
  have hround := (abs_le.1 (abs_roundToDouble_sub_le form.desiredAmountText)).2
  rw [abs_of_neg (not_le.1 hneg)] at hround
  rw [desiredAmountToWithdraw] at hvalid
  linarith

/-- It is the same for a whole number of satoshis, up to 10 million bitcoin. -/
lemma totalAmountOfRequest_eq (h : form.Valid) {amount : ℤ} (hwhole : form.exactSatoshis = amount)
    (hmax : amount ≤ 10 ^ 15) : form.totalAmountOfRequest = form.totalAmountInSatoshis := by
  have hsmall := smallest_le
  have htext : form.desiredAmountText = amount / 10 ^ 8 := by
    rw [eq_div_iff (by norm_num)]
    exact hwhole
  have hcast : (0 : ℚ) ≤ amount := by
    rw [← hwhole, exactSatoshis]
    exact mul_nonneg (text_nonneg h) (by norm_num)
  have hcastMax : (amount : ℚ) ≤ 10 ^ 15 := by exact_mod_cast hmax
  have hamount : 0 ≤ amount := by exact_mod_cast hcast
  have hdouble : form.desiredAmountToWithdraw = satoshiIntToJsonDouble roundToDouble amount := by
    rw [desiredAmountToWithdraw, htext, satoshiIntToJsonDouble, roundToDouble_intCast (by omega)]
  have hrequest : form.request.desiredWithdrawAmountInSatoshis = amount := by
    rw [request, hdouble]
    exact satoshis_double hamount hmax
  have hround := roundToDouble_bounds (text_nonneg h)
  rw [← desiredAmountToWithdraw, htext] at hround
  have hfee := feeInSatoshis_bounds h.nonneg (by linarith [h.satoshis_le])
  obtain ⟨hwithFee, hlow, hhigh⟩ := amountWithFee_bounds h rfl
  -- both totals are the amount and one and the same fee
  rw [totalAmountOfRequest_eq_add h, hrequest, ← hdouble, totalAmountInSatoshis, ← amountWithFee]
  symm
  apply satoshis_eq hwithFee
  · linarith [hround.2]
  · push_cast
    linarith [hround.1]
  · push_cast
    linarith [hround.2]

end WithdrawForm

/-! ## What the database keeps -/

section Database

variable {st st' : WithdrawalsDb} {username u : Username} {form : WithdrawForm}

lemma next_ne_withdraw (k : WithdrawKey) :
    WithdrawalsKey.withdrawFundsRequestsNextAvailableIndex u ≠ .withdraw k := nofun

lemma account_ne_request (i : ℕ) :
    WithdrawalsKey.userAccount username ≠ .withdrawFundsRequest u i := nofun

/-- The user has a request under every index below `n`. -/
def FiledBelow (st : WithdrawalsDb) (username : Username) (n : ℕ) : Prop :=
  ∀ i < n, (st (.withdrawFundsRequest username i)).cas ≠ 0

lemma FiledBelow.mono (hst : st ≤ st') {n : ℕ} (h : FiledBelow st username n) :
    FiledBelow st' username n := by
  intro i hi
  have hfiled := h i hi
  have hle := Cell.cas_mono (hst (.withdrawFundsRequest username i))
  omega

/-- The profile had the money once. -/
def Funded (st : WithdrawalsDb) (username : Username) (form : WithdrawForm) : Prop :=
  ∃ c profile, (st (.userAccount username)).docAt c = some profile ∧
    form.totalAmountInSatoshis ≤ profile.balanceInSatoshis

lemma Funded.mono (hst : st ≤ st') (h : Funded st username form) : Funded st' username form := by
  obtain ⟨c, profile, hprofile, hbalance⟩ := h
  exact ⟨c, profile, Cell.docAt_mono (hst _) hprofile, hbalance⟩

/-- Of a request, only the state changes. -/
def WithdrawFundsRequest.SameWithdrawal (before after : WithdrawFundsRequest) : Prop :=
  after.desiredWithdrawAmountInSatoshis = before.desiredWithdrawAmountInSatoshis ∧
    after.bitcoinKeyToWithdrawTo = before.bitcoinKeyToWithdrawTo

lemma WithdrawFundsRequest.SameWithdrawal.totalAmount_eq {before after : WithdrawFundsRequest}
    (h : before.SameWithdrawal after) {fee : ℤ → ℤ} :
    totalAmount fee after = totalAmount fee before := by
  rw [totalAmount, totalAmount, h.1]

/-- The requests of all users, and the indexes that are cached of them. -/
structure ScheduleOk (st : WithdrawalsDb) : Prop where
  noGaps : ∀ username i, (st (.withdrawFundsRequest username i)).cas ≠ 0 →
    i < maxInt ∧ FiledBelow st username i
  cached : ∀ username c next,
    (st (.withdrawFundsRequestsNextAvailableIndex username)).docAt c = some next →
    next ≤ maxInt ∧ FiledBelow st username next
  filed : ∀ username i request, (st (.withdrawFundsRequest username i)).docAt 1 = some request →
    ∃ form : WithdrawForm, form.Valid ∧ request = form.request ∧ Funded st username form
  kept : ∀ username i, (st (.withdrawFundsRequest username i)).Chain
    fun before _ after => before.SameWithdrawal after

/-- Nobody has asked for a withdrawal yet. -/
def NoRequests (st : WithdrawalsDb) : Prop :=
  ∀ username, (st (.withdrawFundsRequestsNextAvailableIndex username)).cas = 0 ∧
    ∀ i, (st (.withdrawFundsRequest username i)).cas = 0

lemma NoRequests.scheduleOk (h : NoRequests st) : ScheduleOk st where
  noGaps username i hi := absurd ((h username).2 i) hi
  cached username c next hnext := by
    have hbounds := Cell.docAt_bounds hnext
    have habsent := (h username).1
    omega
  filed username i request hrequest := by
    have hbounds := Cell.docAt_bounds hrequest
    have habsent := (h username).2 i
    omega
  kept username i c d v hd _ := by
    have hbounds := Cell.docAt_bounds hd
    have habsent := (h username).2 i
    omega

namespace ScheduleOk

/-- A request is created. -/
lemma addRequest (h : ScheduleOk st) {index : ℕ} (hmax : index < maxInt)
    (hbelow : FiledBelow st u index) (hform : form.Valid) (hfunded : Funded st u form)
    (habsent : (st (.withdrawFundsRequest u index)).cas = 0) (n : WithdrawNote) :
    ScheduleOk (st.push (.withdrawFundsRequest u index) n form.request) where
  noGaps username i hi := by
    have hgrows := Store.le_push st (.withdrawFundsRequest u index) n form.request
    by_cases hkey : WithdrawalsKey.withdrawFundsRequest username i = .withdrawFundsRequest u index
    · cases hkey
      exact ⟨hmax, hbelow.mono hgrows⟩
    · rw [Store.push_of_ne st hkey] at hi
      exact ⟨(h.noGaps username i hi).1, (h.noGaps username i hi).2.mono hgrows⟩
  cached username c next hnext := by
    rw [Store.push_of_ne st (next_ne_withdraw _)] at hnext
    obtain ⟨hle, hfiled⟩ := h.cached username c next hnext
    exact ⟨hle, hfiled.mono (Store.le_push _ _ _ _)⟩
  filed username i request hrequest := by
    have hgrows := Store.le_push st (.withdrawFundsRequest u index) n form.request
    by_cases hkey : WithdrawalsKey.withdrawFundsRequest username i = .withdrawFundsRequest u index
    · cases hkey
      rw [Store.push_self, Cell.docAt_push, if_pos (by omega)] at hrequest
      exact ⟨form, hform, (Option.some.inj hrequest).symm, hfunded.mono hgrows⟩
    · rw [Store.push_of_ne st hkey] at hrequest
      obtain ⟨form', hvalid, hrequest', hfunded'⟩ := h.filed username i request hrequest
      exact ⟨form', hvalid, hrequest', hfunded'.mono hgrows⟩
  kept username i := by
    by_cases hkey : WithdrawalsKey.withdrawFundsRequest username i = .withdrawFundsRequest u index
    · cases hkey
      rw [Store.push_self]
      apply (h.kept u index).push
      intro before hbefore
      have hbounds := Cell.docAt_bounds hbefore
      omega
    · rw [Store.push_of_ne st hkey]
      exact h.kept username i

/-- Another document than the requests is written. -/
lemma push_other (h : ScheduleOk st) {k : WithdrawalsKey} (n : WithdrawNote) (d : WithdrawalsDoc k)
    (hrequest : ∀ username i, k ≠ .withdrawFundsRequest username i)
    (hnext : ∀ username c next,
      (st.push k n d (.withdrawFundsRequestsNextAvailableIndex username)).docAt c = some next →
      next ≤ maxInt ∧ FiledBelow st username next) : ScheduleOk (st.push k n d) where
  noGaps username i hi := by
    rw [Store.push_of_ne st (hrequest username i).symm] at hi
    exact ⟨(h.noGaps username i hi).1, (h.noGaps username i hi).2.mono (Store.le_push _ _ _ _)⟩
  cached username c next hcached := by
    obtain ⟨hle, hfiled⟩ := hnext username c next hcached
    exact ⟨hle, hfiled.mono (Store.le_push _ _ _ _)⟩
  filed username i request hdoc := by
    rw [Store.push_of_ne st (hrequest username i).symm] at hdoc
    obtain ⟨form', hvalid, hrequest', hfunded⟩ := h.filed username i request hdoc
    exact ⟨form', hvalid, hrequest', hfunded.mono (Store.le_push _ _ _ _)⟩
  kept username i := by
    rw [Store.push_of_ne st (hrequest username i).symm]
    exact h.kept username i

/-- A profile is written, by whoever. -/
lemma writeProfile (h : ScheduleOk st) (n : WithdrawNote) (profile : UserAccount) :
    ScheduleOk (st.push (.userAccount u) n profile) := by
  apply h.push_other n profile (fun _ i => account_ne_request i)
  intro username c next hnext
  rw [Store.push_of_ne st (next_ne_withdraw _)] at hnext
  exact h.cached username c next hnext

/-- An index is cached. -/
lemma storeNextAvailableIndex (h : ScheduleOk st) {next : ℕ} (hmax : next ≤ maxInt)
    (hbelow : FiledBelow st u next) (n : WithdrawNote) :
    ScheduleOk (st.push (.withdrawFundsRequestsNextAvailableIndex u) n next) := by
  apply h.push_other n next (fun _ _ => next_ne_withdraw _)
  intro username c next' hnext'
  by_cases hu : username = u
  · subst hu
    rw [Store.push_self, Cell.docAt_push] at hnext'
    split at hnext'
    · obtain rfl := Option.some.inj hnext'
      exact ⟨hmax, hbelow⟩
    · exact h.cached username c next' hnext'
  · rw [Store.push_of_ne st fun heq => hu (by cases heq; rfl)] at hnext'
    exact h.cached username c next' hnext'

/-- A request is written over its current version. -/
lemma setRequest (h : ScheduleOk st) {index : ℕ} {before after : WithdrawFundsRequest}
    (hbefore : (st (.withdrawFundsRequest u index)).current = some before)
    (hsame : before.SameWithdrawal after) (n : WithdrawNote) :
    ScheduleOk (st.push (.withdrawFundsRequest u index) n after) where
  noGaps username i hi := by
    have hgrows := Store.le_push st (.withdrawFundsRequest u index) n after
    have hpresent : (st (.withdrawFundsRequest username i)).cas ≠ 0 := by
      by_cases hkey : WithdrawalsKey.withdrawFundsRequest username i = .withdrawFundsRequest u index
      · cases hkey
        have hbounds := Cell.docAt_bounds hbefore
        omega
      · rwa [Store.push_of_ne st hkey] at hi
    exact ⟨(h.noGaps username i hpresent).1, (h.noGaps username i hpresent).2.mono hgrows⟩
  cached username c next hnext := by
    rw [Store.push_of_ne st (next_ne_withdraw _)] at hnext
    obtain ⟨hle, hfiled⟩ := h.cached username c next hnext
    exact ⟨hle, hfiled.mono (Store.le_push _ _ _ _)⟩
  filed username i request hrequest := by
    have hgrows := Store.le_push st (.withdrawFundsRequest u index) n after
    have hfirst : (st (.withdrawFundsRequest username i)).docAt 1 = some request := by
      by_cases hkey : WithdrawalsKey.withdrawFundsRequest username i = .withdrawFundsRequest u index
      · cases hkey
        have hbounds := Cell.docAt_bounds hbefore
        rwa [Store.push_self, Cell.docAt_push, if_neg (by omega)] at hrequest
      · rwa [Store.push_of_ne st hkey] at hrequest
    obtain ⟨form', hvalid, hrequest', hfunded⟩ := h.filed username i request hfirst
    exact ⟨form', hvalid, hrequest', hfunded.mono hgrows⟩
  kept username i := by
    by_cases hkey : WithdrawalsKey.withdrawFundsRequest username i = .withdrawFundsRequest u index
    · cases hkey
      rw [Store.push_self]
      apply (h.kept u index).push
      intro before' hbefore'
      obtain rfl := Option.some.inj (hbefore.symm.trans hbefore')
      exact hsame
    · rw [Store.push_of_ne st hkey]
      exact h.kept username i

/-- Any version of a request is for what the first one is for. -/
lemma sameWithdrawal_first (h : ScheduleOk st) {i c : ℕ} {request : WithdrawFundsRequest}
    (hrequest : (st (.withdrawFundsRequest username i)).docAt c = some request) :
    ∃ first, (st (.withdrawFundsRequest username i)).docAt 1 = some first ∧
      first.SameWithdrawal request := by
  have hbounds := Cell.docAt_bounds hrequest
  obtain ⟨first, hfirst⟩ := Cell.exists_docAt (x := st (.withdrawFundsRequest username i)) (c := 1)
    Nat.one_pos (by omega)
  refine ⟨first, hfirst, ?_⟩
  apply (h.kept username i).later (P := fun request => first.SameWithdrawal request) _
    (show 1 ≤ c from hbounds.1) hfirst hrequest ⟨rfl, rfl⟩
  intro before _ after hfrom hstep
  exact ⟨hstep.1.trans hfrom.1, hstep.2.trans hfrom.2⟩

end ScheduleOk

end Database

/-! ## A tab -/

namespace WithdrawFundsTab

variable {st st' : WithdrawalsDb} {s : WithdrawFundsTab}

/-- What a tab knows where it is. -/
def KnowsPhase (st : WithdrawalsDb) (s : WithdrawFundsTab) : Prop :=
  match s.phase with
  | .idle | .renderingNotResumed => True
  | .getProfile => s.form.Valid
  | .getNextAvailableIndex => s.form.Valid ∧ Funded st s.currentlyLoggedInUsername s.form
  | .addRequest index =>
      (s.form.Valid ∧ Funded st s.currentlyLoggedInUsername s.form) ∧
        s.withdrawRequestDocBeingCreated = s.form.request ∧ index < maxInt ∧
        FiledBelow st s.currentlyLoggedInUsername index
  | .storeNextAvailableIndex next =>
      next ≤ maxInt ∧ FiledBelow st s.currentlyLoggedInUsername next

/-- The requests that the user was told of were stored, and the profile had the money. -/
structure Knows (st : WithdrawalsDb) (s : WithdrawFundsTab) : Prop where
  scheduled : ∀ e ∈ s.scheduled,
    (st (.withdrawFundsRequest s.currentlyLoggedInUsername e.1)).docAt 1 = some e.2.request ∧
      e.2.Valid ∧ Funded st s.currentlyLoggedInUsername e.2
  phase : s.KnowsPhase st

lemma KnowsPhase.mono (hst : st ≤ st') (h : s.KnowsPhase st) : s.KnowsPhase st' := by
  unfold KnowsPhase at h ⊢
  cases hphase : s.phase with
  | idle => trivial
  | renderingNotResumed => trivial
  | getProfile =>
      rw [hphase] at h
      exact h
  | getNextAvailableIndex =>
      rw [hphase] at h
      exact ⟨h.1, h.2.mono hst⟩
  | addRequest index =>
      rw [hphase] at h
      obtain ⟨⟨hvalid, hfunded⟩, hdoc, hmax, hbelow⟩ := h
      exact ⟨⟨hvalid, hfunded.mono hst⟩, hdoc, hmax, hbelow.mono hst⟩
  | storeNextAvailableIndex next =>
      rw [hphase] at h
      exact ⟨h.1, h.2.mono hst⟩

lemma Knows.mono (hst : st ≤ st') (h : s.Knows st) : s.Knows st' where
  scheduled e he := by
    obtain ⟨hstored, hvalid, hfunded⟩ := h.scheduled e he
    exact ⟨Cell.docAt_mono (hst _) hstored, hvalid, hfunded.mono hst⟩
  phase := h.phase.mono hst

/-- The same messages, at another place. -/
lemma Knows.withPhase {s' : WithdrawFundsTab} (h : s.Knows st)
    (hscheduled : s'.scheduled = s.scheduled)
    (huser : s'.currentlyLoggedInUsername = s.currentlyLoggedInUsername)
    (hphase : s'.KnowsPhase st) : s'.Knows st where
  scheduled e he := by
    rw [hscheduled] at he
    rw [huser]
    exact h.scheduled e he
  phase := hphase

lemma Knows.resumeRendering (h : s.Knows st) : s.resumeRendering.Knows st :=
  h.withPhase rfl rfl trivial

lemma Knows.ignoringResponse (h : s.Knows st) : s.ignoringResponse.Knows st := by
  unfold WithdrawFundsTab.ignoringResponse
  split
  · exact h.withPhase rfl rfl trivial
  · exact h.resumeRendering

lemma Knows.fail (h : s.Knows st) : s.fail.Knows st := by
  unfold WithdrawFundsTab.fail
  split
  · exact h.ignoringResponse
  · exact h
  · exact h.resumeRendering

lemma Knows.handleRequestWithdrawalButtonClicked (h : s.Knows st) (form : WithdrawForm) :
    (s.handleRequestWithdrawalButtonClicked form).Knows st := by
  unfold WithdrawFundsTab.handleRequestWithdrawalButtonClicked
  split
  · split
    · next hvalid => exact h.withPhase rfl rfl hvalid
    · exact h
  · exact h

/-- The profile is read. -/
lemma Knows.verifyBalance (h : s.Knows st) (hvalid : s.form.Valid) :
    (s.verifyBalance (st (.userAccount s.currentlyLoggedInUsername)).get).Knows st := by
  cases hget : (st (.userAccount s.currentlyLoggedInUsername)).get with
  | none => exact h.resumeRendering
  | some read =>
      obtain ⟨cas, profile⟩ := read
      obtain ⟨-, hprofile⟩ := Cell.get_eq_some.1 hget
      unfold WithdrawFundsTab.verifyBalance
      dsimp only
      split
      · exact h.resumeRendering
      · next henough =>
          exact h.withPhase rfl rfl ⟨hvalid, cas, profile, hprofile, not_lt.1 henough⟩

/-- An index below which everything is taken is tried next, if it is in range. -/
lemma Knows.attemptToLcbAddWithdrawRequest (h : s.Knows st)
    (hform : s.form.Valid ∧ Funded st s.currentlyLoggedInUsername s.form)
    (hdoc : s.withdrawRequestDocBeingCreated = s.form.request) {index : ℕ} (hle : index ≤ maxInt)
    (hbelow : FiledBelow st s.currentlyLoggedInUsername index) :
    (s.attemptToLcbAddWithdrawRequest index).Knows st := by
  unfold WithdrawFundsTab.attemptToLcbAddWithdrawRequest
  split
  · exact h.resumeRendering
  · next hmax => exact h.withPhase rfl rfl ⟨hform, hdoc, by omega, hbelow⟩

/-- The cached index is read. -/
lemma Knows.useNextAvailableWithdrawRequestIndex (hok : ScheduleOk st) (h : s.Knows st)
    (hform : s.form.Valid ∧ Funded st s.currentlyLoggedInUsername s.form) :
    (s.useNextAvailableWithdrawRequestIndexToScheduleTheWithdrawRequest
      (st (.withdrawFundsRequestsNextAvailableIndex
        s.currentlyLoggedInUsername)).get).Knows st := by
  have hmoved (cas : ℕ) : ({ s with
      casOfWithdrawRequestIndexDoc_OrZeroIfDocDoesNotExist := cas
      withdrawRequestDocBeingCreated := s.form.request
      phase := .idle } : WithdrawFundsTab).Knows st := h.withPhase rfl rfl trivial
  cases hget :
      (st (.withdrawFundsRequestsNextAvailableIndex s.currentlyLoggedInUsername)).get with
  | none =>
      exact (hmoved 0).attemptToLcbAddWithdrawRequest hform rfl (Nat.zero_le _)
        fun i hi => absurd hi (Nat.not_lt_zero i)
  | some read =>
      obtain ⟨cas, next⟩ := read
      obtain ⟨-, hnext⟩ := Cell.get_eq_some.1 hget
      obtain ⟨hle, hbelow⟩ := hok.cached s.currentlyLoggedInUsername cas next hnext
      exact (hmoved cas).attemptToLcbAddWithdrawRequest hform rfl hle hbelow

/-- The index was taken. -/
lemma Knows.retry (h : s.Knows st) {index : ℕ} (hphase : s.phase = .addRequest index)
    (htaken : (st (.withdrawFundsRequest s.currentlyLoggedInUsername index)).cas ≠ 0) :
    (s.attemptToLcbAddWithdrawRequest (index + 1)).Knows st := by
  have hknows := h.phase
  rw [KnowsPhase, hphase] at hknows
  obtain ⟨hform, hdoc, hmax, hbelow⟩ := hknows
  apply h.attemptToLcbAddWithdrawRequest hform hdoc hmax
  intro i hi
  rcases Nat.lt_succ_iff_lt_or_eq.1 hi with hlt | rfl
  · exact hbelow i hlt
  · exact htaken

/-- The request is stored, and the user is told. -/
lemma Knows.added (h : s.Knows st) {index : ℕ} (hphase : s.phase = .addRequest index)
    (habsent : (st (.withdrawFundsRequest s.currentlyLoggedInUsername index)).cas = 0)
    (n : WithdrawNote) (cas : ℕ) :
    (s.handleAttemptToAddWithdrawRequestAtIndexFinished index (.stored cas)).Knows
      (st.push (.withdrawFundsRequest s.currentlyLoggedInUsername index) n s.form.request) := by
  have hgrows := Store.le_push st (.withdrawFundsRequest s.currentlyLoggedInUsername index) n
    s.form.request
  have hknows := h.phase
  rw [KnowsPhase, hphase] at hknows
  obtain ⟨⟨hvalid, hfunded⟩, -, hmax, hbelow⟩ := hknows
  have hstored : (st.push (.withdrawFundsRequest s.currentlyLoggedInUsername index) n s.form.request
      (.withdrawFundsRequest s.currentlyLoggedInUsername index)).docAt 1 = some s.form.request :=
    Store.docAt_push_next habsent.symm n s.form.request
  constructor
  · intro e he
    rcases List.mem_append.1 he with hold | hnew
    · exact (h.mono hgrows).scheduled e hold
    · obtain rfl := List.mem_singleton.1 hnew
      exact ⟨hstored, hvalid, hfunded.mono hgrows⟩
  · refine ⟨hmax, fun i hi => ?_⟩
    rcases Nat.lt_succ_iff_lt_or_eq.1 hi with hlt | rfl
    · exact hbelow.mono hgrows i hlt
    · exact Nat.one_le_iff_ne_zero.1 (Cell.docAt_bounds hstored).2

/-- One step of a tab. -/
lemma perform_act (hok : ScheduleOk st) (h : s.Knows st) (x : WithdrawalsInput) :
    ScheduleOk (perform st (s.act x)).1 ∧
      (perform st (s.act x)).2.Knows (perform st (s.act x)).1 := by
  cases x with
  | handleRequestWithdrawalButtonClicked form =>
      exact ⟨hok, h.handleRequestWithdrawalButtonClicked form⟩
  | fail => exact ⟨hok, h.fail⟩
  | processWithdrawalRequests rows cas => exact ⟨hok, h⟩
  | proceedOntoExecutionIteration => exact ⟨hok, h⟩
  | writeProfile username profile => exact ⟨hok, h⟩
  | proceed dbError =>
      have hknows := h.phase
      unfold KnowsPhase at hknows
      rw [act, proceed]
      cases hphase : s.phase with
      | idle => exact ⟨hok, h⟩
      | renderingNotResumed => exact ⟨hok, h⟩
      | getProfile =>
          rw [hphase] at hknows
          refine ⟨hok, ?_⟩
          show (if dbError then _ else _ : WithdrawFundsTab).Knows st
          split
          · exact h.resumeRendering
          · exact h.verifyBalance hknows
      | getNextAvailableIndex =>
          rw [hphase] at hknows
          refine ⟨hok, ?_⟩
          show (if dbError then _ else _ : WithdrawFundsTab).Knows st
          split
          · exact h.resumeRendering
          · exact h.useNextAvailableWithdrawRequestIndex hok hknows
      | addRequest index =>
          rw [hphase] at hknows
          obtain ⟨⟨hvalid, hfunded⟩, hdoc, hmax, hbelow⟩ := hknows
          rw [hdoc]
          dsimp only
          apply perform_add (P := fun r : WithdrawalsDb × WithdrawFundsTab =>
              ScheduleOk r.1 ∧ r.2.Knows r.1)
          · intro habsent
            refine ⟨hok.addRequest hmax hbelow hvalid hfunded habsent .other, ?_⟩
            split
            · exact (h.mono (Store.le_push _ _ _ _)).resumeRendering
            · exact h.added hphase habsent .other 1
          · intro htaken
            refine ⟨hok, ?_⟩
            split
            · exact h.resumeRendering
            · exact h.retry hphase htaken
      | storeNextAvailableIndex next =>
          rw [hphase] at hknows
          have hstored := hok.storeNextAvailableIndex hknows.1 hknows.2 .other
          have hafter := (h.mono (Store.le_push st (.withdrawFundsRequestsNextAvailableIndex
            s.currentlyLoggedInUsername) .other next)).ignoringResponse
          dsimp only
          split
          · apply perform_add (P := fun r : WithdrawalsDb × WithdrawFundsTab =>
              ScheduleOk r.1 ∧ r.2.Knows r.1)
            · intro _
              exact ⟨hstored, hafter⟩
            · intro _
              exact ⟨hok, h.ignoringResponse⟩
          · apply perform_set_any (P := fun r : WithdrawalsDb × WithdrawFundsTab =>
              ScheduleOk r.1 ∧ r.2.Knows r.1)
            · exact ⟨hstored, hafter⟩
            · intro _
              exact ⟨hok, h.ignoringResponse⟩

end WithdrawFundsTab

/-! ## A processor -/

/-- The current request, with the CAS that its next write is made with. -/
def ProcessorPhase.row : ProcessorPhase → Option (WithdrawRow × ℕ)
  | .getUserProfile x cas | .setInsufficientFunds x cas | .lockUserProfile x cas _ _
  | .setProcessing x cas _ | .sendToAddress x cas _
  | .setProcessedButProfileNeedsDeductingAndUnlocking x cas _ | .deductAmountAndUnlock x cas _
  | .setProcessedAndDone x cas => some (x, cas)
  | .getWithdrawalRequest _ | .calculationIterationComplete | .finished _ => none

namespace WithdrawRequestProcessor

variable {st st' : WithdrawalsDb} {fee : ℤ → ℤ} {s s' next : WithdrawRequestProcessor}
  {row : Option (WithdrawRow × ℕ)} {x : WithdrawRow} {cas : ℕ}

/-- The next state is at `row`, or at no request, and nothing else was sent. -/
structure ContinuesWith (s : WithdrawRequestProcessor) (row : Option (WithdrawRow × ℕ))
    (next : WithdrawRequestProcessor) : Prop where
  atRow : ∀ y ∈ next.phase.row, y ∈ row
  sent : ∀ e ∈ next.sent, e ∈ s.sent ∨ ∃ y ∈ row, e = (y.1.key, y.1.amount)

lemma ContinuesWith.of_sent (hrow : ∀ y ∈ next.phase.row, y ∈ row) (hsent : next.sent = s.sent) :
    s.ContinuesWith row next where
  atRow := hrow
  sent e he := .inl (by rwa [hsent] at he)

lemma continuesWith_finish (success : Bool) : s.ContinuesWith row (s.finish success) :=
  .of_sent (fun _ hy => absurd hy (Option.not_mem_none _)) rfl

lemma continuesWith_next (hsent : s'.sent = s.sent) :
    s.ContinuesWith row s'.processNextWithdrawalRequestOrEmitFinishedIfNoMore := by
  unfold processNextWithdrawalRequestOrEmitFinishedIfNoMore
  split
  · exact .of_sent (fun _ hy => absurd hy (Option.not_mem_none _)) hsent
  · split
    · exact .of_sent (fun _ hy => absurd hy (Option.not_mem_none _)) hsent
    · exact .of_sent (fun _ hy => absurd hy (Option.not_mem_none _)) hsent

lemma continuesWith_afterWithdrawalRequest (key : WithdrawFundsRequestKey)
    (r : Option (ℕ × WithdrawFundsRequest)) :
    s.ContinuesWith (r.map fun read => (⟨key, read.2⟩, read.1))
      (s.afterWithdrawalRequest key r) := by
  cases r with
  | none => exact continuesWith_finish false
  | some read =>
      unfold afterWithdrawalRequest
      dsimp only
      split
      · exact continuesWith_next rfl
      · split
        · exact continuesWith_next rfl
        · exact .of_sent (fun y hy => hy) rfl

lemma sent_debitFromUsersCalculatedRollingBalance {userBalance : ℤ}
    (h : s.debitFromUsersCalculatedRollingBalance fee x userBalance = some s') :
    s'.sent = s.sent := by
  simp only [debitFromUsersCalculatedRollingBalance] at h
  split at h
  · cases h
  · obtain rfl := Option.some.inj h
    rfl

lemma continuesWith_continueAtDeduct (hsent : s'.sent = s.sent) (userProfile : UserAccount) :
    s.ContinuesWith (some (x, cas)) (s'.continueAtDeduct fee x cas userProfile) := by
  unfold continueAtDeduct
  split
  · split
    · exact .of_sent (fun _ hy => absurd hy (Option.not_mem_none _)) hsent
    · next hdebit =>
        exact .of_sent (fun y hy => hy)
          ((sent_debitFromUsersCalculatedRollingBalance hdebit).trans hsent)
  · exact .of_sent (fun y hy => hy) hsent

lemma continuesWith_processUnprocessed (userProfileCas : ℕ) (userProfile : UserAccount) :
    s.ContinuesWith (some (x, cas))
      (s.processUnprocessed fee x cas userProfileCas userProfile) := by
  unfold processUnprocessed
  split
  · split
    · exact .of_sent (fun y hy => hy) rfl
    · exact .of_sent (fun y hy => hy) rfl
  · split
    · exact continuesWith_next rfl
    · next hdebit =>
        have hsent := sent_debitFromUsersCalculatedRollingBalance hdebit
        exact continuesWith_next hsent

lemma continuesWith_afterUserProfile (r : Option (ℕ × UserAccount)) :
    s.ContinuesWith (some (x, cas)) (s.afterUserProfile fee x cas r) := by
  cases r with
  | none => exact continuesWith_finish false
  | some read =>
      unfold afterUserProfile continueFromProcessedButProfileNeedsDeductingAndUnlocking
      dsimp only
      split
      · exact continuesWith_finish false
      · split
        · split
          · apply continuesWith_continueAtDeduct
            rfl
          · exact .of_sent (fun y hy => hy) rfl
        · split
          · exact continuesWith_next rfl
          · exact continuesWith_processUnprocessed _ _

/-- Only the current request is written, over the version that was read, and only its state is
changed. -/
def Follows (s : WithdrawRequestProcessor) : WithdrawAction WithdrawRequestProcessor → Prop
  | .pause next => s.ContinuesWith s.phase.row next
  | .get (.withdrawFundsRequest k) resume =>
      ∀ r, s.ContinuesWith (r.map fun read => (⟨k, read.2⟩, read.1)) (resume r)
  | .get (.userAccount _) resume => ∀ r, s.ContinuesWith s.phase.row (resume r)
  | .set (.withdrawFundsRequest k) _ d c resume =>
      ∃ x state, s.phase.row = some (x, c) ∧ k = x.key ∧ d = (x.inState state).request ∧
        (∀ c', s.ContinuesWith (some (x.inState state, c')) (resume (.stored c'))) ∧
        ∀ r, (∀ c', r ≠ .stored c') → s.ContinuesWith none (resume r)
  | .set (.userAccount _) _ _ _ resume => ∀ r, s.ContinuesWith s.phase.row (resume r)
  | .feed _ _ _ | .add _ _ _ _ => False

lemma sent_afterSendToAddress (userProfile : UserAccount) :
    (s.afterSendToAddress x cas userProfile).sent = s.sent ++ [(x.key, x.amount)] := by
  unfold sent
  exact List.reverse_cons

lemma act_follows (fee : ℤ → ℤ) (s : WithdrawRequestProcessor) : s.Follows (s.act fee) := by
  unfold act
  cases hphase : s.phase with
  | getWithdrawalRequest key => exact continuesWith_afterWithdrawalRequest key
  | getUserProfile x cas =>
      intro r
      rw [hphase]
      exact continuesWith_afterUserProfile r
  | setInsufficientFunds x cas =>
      refine ⟨x, .insufficientFunds_Done, by rw [hphase]; rfl, rfl, rfl, ?_, ?_⟩
      · intro c'
        exact continuesWith_next rfl
      · intro r hr
        cases r with
        | stored c' => exact absurd rfl (hr c')
        | keyExists => exact continuesWith_finish false
        | keyMissing => exact continuesWith_finish false
  | lockUserProfile x cas userProfileCas userProfile =>
      intro r
      rw [hphase]
      cases r with
      | stored c' => exact .of_sent (fun y hy => hy) rfl
      | keyExists => exact continuesWith_next rfl
      | keyMissing => exact continuesWith_finish false
  | setProcessing x cas userProfile =>
      refine ⟨x, .processing, by rw [hphase]; rfl, rfl, rfl, ?_, ?_⟩
      · intro c'
        exact .of_sent (fun y hy => hy) rfl
      · intro r hr
        cases r with
        | stored c' => exact absurd rfl (hr c')
        | keyExists => exact continuesWith_finish false
        | keyMissing => exact continuesWith_finish false
  | sendToAddress x cas userProfile =>
      show s.ContinuesWith s.phase.row (s.afterSendToAddress x cas userProfile)
      rw [hphase]
      refine ⟨fun y hy => hy, fun e he => ?_⟩
      rw [sent_afterSendToAddress, List.mem_append, List.mem_singleton] at he
      rcases he with hold | hnew
      · exact .inl hold
      · exact .inr ⟨(x, cas), rfl, hnew⟩
  | setProcessedButProfileNeedsDeductingAndUnlocking x cas userProfile =>
      refine ⟨x, .processedButProfileNeedsDeductingAndUnlocking, by rw [hphase]; rfl, rfl, rfl,
        ?_, ?_⟩
      · intro c'
        exact continuesWith_continueAtDeduct rfl _
      · intro r hr
        cases r with
        | stored c' => exact absurd rfl (hr c')
        | keyExists => exact continuesWith_finish false
        | keyMissing => exact continuesWith_finish false
  | deductAmountAndUnlock x cas userProfile =>
      intro r
      rw [hphase]
      cases r with
      | stored c' => exact .of_sent (fun y hy => hy) rfl
      | keyExists => exact continuesWith_finish false
      | keyMissing => exact continuesWith_finish false
  | setProcessedAndDone x cas =>
      refine ⟨x, .processed_Done, by rw [hphase]; rfl, rfl, rfl, ?_, ?_⟩
      · intro c'
        exact continuesWith_next rfl
      · intro r hr
        cases r with
        | stored c' => exact absurd rfl (hr c')
        | keyExists => exact continuesWith_finish false
        | keyMissing => exact continuesWith_finish false
  | calculationIterationComplete => exact .of_sent (fun y hy => hy) rfl
  | finished success => exact .of_sent (fun y hy => hy) rfl

/-- The current request is a version of the one in the database, and what was sent was asked for. -/
structure Knows (st : WithdrawalsDb) (s : WithdrawRequestProcessor) : Prop where
  row : ∀ y ∈ s.phase.row,
    (st (.withdraw (.withdrawFundsRequest y.1.key))).docAt y.2 = some y.1.request
  sent : ∀ e ∈ s.sent, ∃ first, (st (.withdraw (.withdrawFundsRequest e.1))).docAt 1 = some first ∧
    first.desiredWithdrawAmountInSatoshis = e.2

lemma Knows.mono (hst : st ≤ st') (h : s.Knows st) : s.Knows st' where
  row y hy := Cell.docAt_mono (hst _) (h.row y hy)
  sent e he := by
    obtain ⟨first, hfirst, hamount⟩ := h.sent e he
    exact ⟨first, Cell.docAt_mono (hst _) hfirst, hamount⟩

lemma Knows.continuesWith (hok : ScheduleOk st) (h : s.Knows st)
    (hrow : ∀ y ∈ row,
      (st (.withdraw (.withdrawFundsRequest y.1.key))).docAt y.2 = some y.1.request)
    (hnext : s.ContinuesWith row next) : next.Knows st where
  row y hy := hrow y (hnext.atRow y hy)
  sent e he := by
    rcases hnext.sent e he with hold | ⟨y, hy, rfl⟩
    · exact h.sent e hold
    · obtain ⟨first, hfirst, hsame⟩ := hok.sameWithdrawal_first (hrow y hy)
      exact ⟨first, hfirst, hsame.1.symm⟩

/-- One operation of a processor. -/
lemma perform_lift (hok : ScheduleOk st) (h : s.Knows st)
    {a : WithdrawAction WithdrawRequestProcessor} (ha : s.Follows a) :
    ScheduleOk (perform st a.lift).1 ∧ (perform st a.lift).2.Knows (perform st a.lift).1 := by
  cases a with
  | pause next => exact ⟨hok, h.continuesWith hok h.row ha⟩
  | feed k c resume => exact ha.elim
  | add k n d resume => exact ha.elim
  | get k resume =>
      refine ⟨hok, ?_⟩
      cases k with
      | userAccount username => exact h.continuesWith hok h.row (ha _)
      | withdrawFundsRequest k =>
          refine h.continuesWith hok ?_ (ha _)
          intro y hy
          obtain ⟨⟨cas, request⟩, hget, rfl⟩ := Option.map_eq_some_iff.1 hy
          exact (Cell.get_eq_some.1 hget).2
  | set k n d c resume =>
      cases k with
      | userAccount username =>
          apply perform_set_any (P := fun r : WithdrawalsDb × WithdrawRequestProcessor =>
            ScheduleOk r.1 ∧ r.2.Knows r.1)
          · have hstored := hok.writeProfile n d (u := username)
            have hgrows := h.mono (Store.le_push st (.userAccount username) n d)
            exact ⟨hstored, hgrows.continuesWith hstored hgrows.row (ha _)⟩
          · intro r
            exact ⟨hok, h.continuesWith hok h.row (ha r)⟩
      | withdrawFundsRequest k =>
          obtain ⟨x, state, hrow, rfl, rfl, hstored, hrefused⟩ := ha
          have hread := h.row (x, c) hrow
          have hpos := (Cell.docAt_bounds hread).1
          apply perform_set (P := fun r : WithdrawalsDb × WithdrawRequestProcessor =>
            ScheduleOk r.1 ∧ r.2.Knows r.1) hpos
          · intro hcurrent
            have hbefore : (st (.withdraw (.withdrawFundsRequest x.key))).current =
                some x.request := by
              rw [Cell.current, ← hcurrent]
              exact hread
            have hsame : x.request.SameWithdrawal (x.inState state).request := ⟨rfl, rfl⟩
            have hafter : ScheduleOk (st.push (.withdraw (.withdrawFundsRequest x.key)) n
                (x.inState state).request) := hok.setRequest hbefore hsame n
            refine ⟨hafter, (h.mono (Store.le_push _ _ _ _)).continuesWith hafter ?_ (hstored _)⟩
            intro y hy
            obtain rfl := Option.some.inj hy
            exact Store.docAt_push_next hcurrent n _
          · intro r hr
            exact ⟨hok, h.continuesWith hok (fun _ hy => absurd hy (Option.not_mem_none _))
              (hrefused r hr)⟩

/-- One step of the runs. -/
lemma perform_actOn (hok : ScheduleOk st) (h : s.Knows st) (x : WithdrawalsInput) :
    ScheduleOk (perform st (s.actOn x)).1 ∧
      (perform st (s.actOn x)).2.Knows (perform st (s.actOn x)).1 := by
  have hnone (y : WithdrawRow × ℕ) (hy : y ∈ (none : Option (WithdrawRow × ℕ))) :
      (st (.withdraw (.withdrawFundsRequest y.1.key))).docAt y.2 = some y.1.request :=
    absurd hy (Option.not_mem_none y)
  cases x with
  | proceed dbError => exact perform_lift hok h (act_follows _ s)
  | fail => exact ⟨hok, h.continuesWith hok hnone (continuesWith_finish false)⟩
  | handleRequestWithdrawalButtonClicked form => exact ⟨hok, h⟩
  | writeProfile username profile => exact ⟨hok, h⟩
  | processWithdrawalRequests rows uninitializedCas =>
      refine ⟨hok, h.continuesWith hok hnone (.of_sent ?_ rfl)⟩
      show ∀ y ∈ (processWithdrawalRequests rows uninitializedCas).phase.row, y ∈ none
      unfold processWithdrawalRequests
      exact (continuesWith_next rfl).atRow
  | proceedOntoExecutionIteration =>
      rw [actOn]
      split
      · exact ⟨hok, h.continuesWith hok hnone (continuesWith_next rfl)⟩
      · exact ⟨hok, h⟩

end WithdrawRequestProcessor

/-! ## Runs -/

namespace WithdrawalsClient

/-- What a client knows. -/
def Knows (st : WithdrawalsDb) : WithdrawalsClient → Prop
  | .tab s => s.Knows st
  | .processor s => s.Knows st
  | .otherPrograms => True

lemma Knows.mono {st st' : WithdrawalsDb} (hst : st ≤ st') {c : WithdrawalsClient}
    (h : c.Knows st) : c.Knows st' := by
  cases c with
  | tab s => exact WithdrawFundsTab.Knows.mono hst h
  | processor s => exact WithdrawRequestProcessor.Knows.mono hst h
  | otherPrograms => trivial

/-- One step of a client. -/
lemma perform_act {st : WithdrawalsDb} (hok : ScheduleOk st) {c : WithdrawalsClient}
    (h : c.Knows st) (x : WithdrawalsInput) :
    ScheduleOk (perform st (c.act x)).1 ∧
      (perform st (c.act x)).2.Knows (perform st (c.act x)).1 := by
  cases c with
  | tab s =>
      rw [act, perform_map]
      exact WithdrawFundsTab.perform_act hok h x
  | processor s =>
      rw [act, perform_map]
      exact WithdrawRequestProcessor.perform_actOn hok h x
  | otherPrograms =>
      cases x with
      | writeProfile username profile =>
          apply perform_set_any (P := fun r : WithdrawalsDb × WithdrawalsClient =>
            ScheduleOk r.1 ∧ r.2.Knows r.1)
          · exact ⟨hok.writeProfile .other profile, trivial⟩
          · intro _
            exact ⟨hok, trivial⟩
      | _ => exact ⟨hok, trivial⟩

/-- Nothing has happened yet. -/
def Idle : WithdrawalsClient → Prop
  | .tab s => s.phase = .idle ∧ s.scheduled = []
  | .processor s => s.phase.row = none ∧ s.sent = []
  | .otherPrograms => True

lemma Idle.knows {c : WithdrawalsClient} (h : c.Idle) (st : WithdrawalsDb) : c.Knows st := by
  cases c with
  | tab s =>
      obtain ⟨hphase, hscheduled⟩ := h
      refine ⟨fun e he => ?_, ?_⟩
      · rw [hscheduled] at he
        exact absurd he List.not_mem_nil
      · simp only [WithdrawFundsTab.KnowsPhase, hphase]
  | processor s =>
      obtain ⟨hrow, hsent⟩ := h
      refine ⟨fun y hy => ?_, fun e he => ?_⟩
      · rw [hrow] at hy
        exact absurd hy (Option.not_mem_none y)
      · rw [hsent] at he
        exact absurd he List.not_mem_nil
  | otherPrograms => trivial

/-- The requests that the user of a tab was told of. -/
def told : WithdrawalsClient → List WithdrawalsKey
  | .tab s => s.scheduled.map fun e => .withdrawFundsRequest s.currentlyLoggedInUsername e.1
  | .processor _ | .otherPrograms => []

lemma Idle.told_eq_nil {c : WithdrawalsClient} (h : c.Idle) : c.told = [] := by
  cases c with
  | tab s => rw [told, h.2, List.map_nil]
  | processor s => rfl
  | otherPrograms => rfl

end WithdrawalsClient

namespace WithdrawFundsTab

variable {st : WithdrawalsDb} {s : WithdrawFundsTab}

/-- The same user, who is told nothing. -/
structure TellsNothing (s s' : WithdrawFundsTab) : Prop where
  user : s'.currentlyLoggedInUsername = s.currentlyLoggedInUsername
  scheduled : s'.scheduled = s.scheduled

namespace TellsNothing

variable {s' : WithdrawFundsTab}

lemma told (h : s.TellsNothing s') :
    (WithdrawalsClient.tab s').told = (WithdrawalsClient.tab s).told := by
  rw [WithdrawalsClient.told, WithdrawalsClient.told, h.scheduled, h.user]

lemma resumeRendering : s.TellsNothing s.resumeRendering := ⟨rfl, rfl⟩

lemma ignoringResponse : s.TellsNothing s.ignoringResponse := by
  unfold WithdrawFundsTab.ignoringResponse
  split
  · exact ⟨rfl, rfl⟩
  · exact ⟨rfl, rfl⟩

lemma fail : s.TellsNothing s.fail := by
  unfold WithdrawFundsTab.fail
  split
  · exact ignoringResponse
  · exact ⟨rfl, rfl⟩
  · exact ⟨rfl, rfl⟩

lemma handleRequestWithdrawalButtonClicked (form : WithdrawForm) :
    s.TellsNothing (s.handleRequestWithdrawalButtonClicked form) := by
  unfold WithdrawFundsTab.handleRequestWithdrawalButtonClicked
  split
  · split
    · exact ⟨rfl, rfl⟩
    · exact ⟨rfl, rfl⟩
  · exact ⟨rfl, rfl⟩

lemma verifyBalance (r : Option (ℕ × UserAccount)) : s.TellsNothing (s.verifyBalance r) := by
  cases r with
  | none => exact ⟨rfl, rfl⟩
  | some read =>
      unfold WithdrawFundsTab.verifyBalance
      dsimp only
      split
      · exact ⟨rfl, rfl⟩
      · exact ⟨rfl, rfl⟩

lemma attemptToLcbAddWithdrawRequest (index : ℕ) :
    s.TellsNothing (s.attemptToLcbAddWithdrawRequest index) := by
  unfold WithdrawFundsTab.attemptToLcbAddWithdrawRequest
  split
  · exact ⟨rfl, rfl⟩
  · exact ⟨rfl, rfl⟩

lemma useNextAvailableWithdrawRequestIndex (r : Option (ℕ × ℕ)) :
    s.TellsNothing (s.useNextAvailableWithdrawRequestIndexToScheduleTheWithdrawRequest r) := by
  cases r with
  | none =>
      have h := attemptToLcbAddWithdrawRequest (s := { s with
        casOfWithdrawRequestIndexDoc_OrZeroIfDocDoesNotExist := 0
        withdrawRequestDocBeingCreated := s.form.request }) 0
      exact ⟨h.user, h.scheduled⟩
  | some read =>
      have h := attemptToLcbAddWithdrawRequest (s := { s with
        casOfWithdrawRequestIndexDoc_OrZeroIfDocDoesNotExist := read.1
        withdrawRequestDocBeingCreated := s.form.request }) read.2
      exact ⟨h.user, h.scheduled⟩

end TellsNothing

/-- A request is told of in the very step that it is created in. -/
lemma told_perform_act (st : WithdrawalsDb) (s : WithdrawFundsTab) (x : WithdrawalsInput) :
    s.TellsNothing (perform st (s.act x)).2 ∨
    ∃ k, (st k).cas = 0 ∧ ((perform st (s.act x)).1 k).cas ≠ 0 ∧
      (WithdrawalsClient.tab (perform st (s.act x)).2).told =
        (WithdrawalsClient.tab s).told ++ [k] := by
  cases x with
  | handleRequestWithdrawalButtonClicked form =>
      exact .inl (.handleRequestWithdrawalButtonClicked form)
  | fail => exact .inl .fail
  | processWithdrawalRequests rows cas => exact .inl ⟨rfl, rfl⟩
  | proceedOntoExecutionIteration => exact .inl ⟨rfl, rfl⟩
  | writeProfile username profile => exact .inl ⟨rfl, rfl⟩
  | proceed dbError =>
      rw [act, proceed]
      cases hphase : s.phase with
      | idle => exact .inl ⟨rfl, rfl⟩
      | renderingNotResumed => exact .inl ⟨rfl, rfl⟩
      | getProfile =>
          refine .inl ?_
          show s.TellsNothing (if dbError then _ else _)
          split
          · exact .resumeRendering
          · exact .verifyBalance _
      | getNextAvailableIndex =>
          refine .inl ?_
          show s.TellsNothing (if dbError then _ else _)
          split
          · exact .resumeRendering
          · exact .useNextAvailableWithdrawRequestIndex _
      | storeNextAvailableIndex next =>
          refine .inl ?_
          dsimp only
          split
          · apply perform_add (P := fun r : WithdrawalsDb × WithdrawFundsTab => s.TellsNothing r.2)
            · intro _
              exact .ignoringResponse
            · intro _
              exact .ignoringResponse
          · apply perform_set_any (P := fun r : WithdrawalsDb × WithdrawFundsTab =>
              s.TellsNothing r.2)
            · exact .ignoringResponse
            · intro _
              exact .ignoringResponse
      | addRequest index =>
          dsimp only
          apply perform_add (P := fun r : WithdrawalsDb × WithdrawFundsTab =>
            s.TellsNothing r.2 ∨ ∃ k, (st k).cas = 0 ∧ (r.1 k).cas ≠ 0 ∧
              (WithdrawalsClient.tab r.2).told = (WithdrawalsClient.tab s).told ++ [k])
          · intro habsent
            cases dbError with
            | true => exact .inl .resumeRendering
            | false =>
                refine .inr ⟨_, habsent, ?_, List.map_append⟩
                dsimp only
                rw [Store.push_self, Cell.cas_push]
                exact Nat.succ_ne_zero _
          · intro _
            cases dbError with
            | true => exact .inl .resumeRendering
            | false => exact .inl (.attemptToLcbAddWithdrawRequest _)

end WithdrawFundsTab

/-- The same of any client. -/
lemma WithdrawalsClient.told_perform_act (st : WithdrawalsDb) (c : WithdrawalsClient)
    (x : WithdrawalsInput) :
    (perform st (c.act x)).2.told = c.told ∨
    ∃ k, (st k).cas = 0 ∧ ((perform st (c.act x)).1 k).cas ≠ 0 ∧
      (perform st (c.act x)).2.told = c.told ++ [k] := by
  cases c with
  | tab s =>
      rw [act, perform_map]
      rcases WithdrawFundsTab.told_perform_act st s x with hnothing | htold
      · exact .inl hnothing.told
      · exact .inr htold
  | processor s =>
      rw [act, perform_map]
      exact .inl rfl
  | otherPrograms =>
      cases x with
      | writeProfile username profile =>
          apply perform_set_any (P := fun r : WithdrawalsDb × WithdrawalsClient =>
            r.2.told = [] ∨ ∃ k, (st k).cas = 0 ∧ (r.1 k).cas ≠ 0 ∧ r.2.told = [] ++ [k])
          · exact .inl rfl
          · intro _
            exact .inl rfl
      | _ => exact .inl rfl

/-- **What was scheduled.**  The requests of a user have the indexes below some number.  A request
that a user was told of is there, with the amount and the key of the form, and was told of once.
The profile had the money for every request once, up to three satoshis, and exactly if the form has
no more than eight decimals and asks for 10 million bitcoin at most.  What the processors have sent
was asked for. -/
structure ScheduledRequestsOk {ι : Type} (w : Withdrawals ι) : Prop where
  indexes : ∀ username, ∃ n ≤ maxInt,
    (∀ i, (w.store (.withdrawFundsRequest username i)).current.isSome ↔ i < n) ∧
    ∀ next, (w.store (.withdrawFundsRequestsNextAvailableIndex username)).current = some next →
      next ≤ n
  told : ∀ i tab, w.client i = .tab tab → ∀ index form, (index, form) ∈ tab.scheduled →
    ∃ request, (w.store (.withdrawFundsRequest tab.currentlyLoggedInUsername index)).current =
        some request ∧ form.request.SameWithdrawal request ∧
      ∃ c profile, (w.store (.userAccount tab.currentlyLoggedInUsername)).docAt c = some profile ∧
        (∀ amount : ℤ, form.exactSatoshis = amount → amount ≤ 10 ^ 15 →
          totalAmount withdrawalFeeInSatoshis request ≤ profile.balanceInSatoshis)
  toldOnce : ∀ i, (w.client i).told.Nodup
  toldNobodyElse : ∀ i j, i ≠ j → (w.client i).told.Disjoint (w.client j).told
  funded : ∀ username i request, (w.store (.withdrawFundsRequest username i)).current =
      some request → ∃ c profile, (w.store (.userAccount username)).docAt c = some profile ∧
    totalAmount withdrawalFeeInSatoshis request ≤ profile.balanceInSatoshis + 3
  sent : ∀ i processor, w.client i = .processor processor → ∀ k amount,
    (k, amount) ∈ processor.sent →
    ∃ request, (w.store (.withdraw (.withdrawFundsRequest k))).current = some request ∧
      request.desiredWithdrawAmountInSatoshis = amount ∧
      3000000 ≤ amount ∧ amount ≤ 2100000000000000

namespace ScheduleOk

variable {st : WithdrawalsDb} {username : Username}

/-- A request is there from its first version on. -/
lemma exists_current (h : ScheduleOk st) {i : ℕ} {first : WithdrawFundsRequest}
    (hfirst : (st (.withdrawFundsRequest username i)).docAt 1 = some first) :
    ∃ request, (st (.withdrawFundsRequest username i)).current = some request ∧
      first.SameWithdrawal request := by
  have hbounds := Cell.docAt_bounds hfirst
  obtain ⟨request, hrequest⟩ := Cell.exists_docAt (x := st (.withdrawFundsRequest username i))
    (c := (st (.withdrawFundsRequest username i)).cas) (by omega) (le_refl _)
  obtain ⟨first', hfirst', hsame⟩ := h.sameWithdrawal_first hrequest
  obtain rfl := Option.some.inj (hfirst.symm.trans hfirst')
  exact ⟨request, hrequest, hsame⟩

lemma indexes (h : ScheduleOk st) (username : Username) : ∃ n ≤ maxInt,
    (∀ i, (st (.withdrawFundsRequest username i)).cas ≠ 0 ↔ i < n) ∧
    ∀ c next, (st (.withdrawFundsRequestsNextAvailableIndex username)).docAt c = some next →
      next ≤ n := by
  have habsent : (st (.withdrawFundsRequest username maxInt)).cas = 0 := by
    by_contra hpresent
    exact absurd (h.noGaps username maxInt hpresent).1 (Nat.lt_irrefl _)
  have hexists : ∃ n, (st (.withdrawFundsRequest username n)).cas = 0 := ⟨_, habsent⟩
  have hiff (i : ℕ) : (st (.withdrawFundsRequest username i)).cas ≠ 0 ↔ i < Nat.find hexists := by
    constructor
    · intro hi
      by_contra hlt
      rcases Nat.lt_or_eq_of_le (Nat.not_lt.1 hlt) with hgt | heq
      · exact (h.noGaps username i hi).2 _ hgt (Nat.find_spec hexists)
      · exact hi (heq ▸ Nat.find_spec hexists)
    · exact Nat.find_min hexists
  refine ⟨Nat.find hexists, Nat.find_min' hexists habsent, hiff, fun c next hnext => ?_⟩
  by_contra hlt
  exact (h.cached username c next hnext).2 _ (Nat.not_le.1 hlt) (Nat.find_spec hexists)

end ScheduleOk

lemma isSome_current_iff {ν α : Type} (x : Cell ν α) : x.current.isSome ↔ x.cas ≠ 0 := by
  constructor
  · intro h
    obtain ⟨d, hd⟩ := Option.isSome_iff_exists.1 h
    have hbounds := Cell.docAt_bounds hd
    omega
  · intro h
    obtain ⟨d, hd⟩ := Cell.exists_docAt (x := x) (Nat.pos_of_ne_zero h) (le_refl _)
    exact Option.isSome_iff_exists.2 ⟨d, hd⟩

/-- **Requests that were scheduled stay scheduled**, whatever the tabs, the processors and all other
programs do, at the same time.

A request has to be what its user has confirmed, or a tab of the same user could change an address
behind their back.  The indexes have no gap below the next free one, and that is what keeps a
request from being overlooked. -/
theorem scheduledRequestsOk {ι : Type} [DecidableEq ι] {w₀ w : Withdrawals ι}
    (hstart : NoRequests w₀.store) (hidle : ∀ i, (w₀.client i).Idle)
    (hreach : Reaches WithdrawalsClient.act anyStep w₀ w) : ScheduledRequestsOk w := by
  obtain ⟨hok, hknows⟩ := hreach.threadModular (I := ScheduleOk)
    (L := fun st c => c.Knows st) (fun _ _ _ hst _ hc => hc.mono hst)
    (fun _ _ x _ hok hc => WithdrawalsClient.perform_act hok hc x) hstart.scheduleOk
    fun i => (hidle i).knows _
  have hcreated : w.CreatedOnce WithdrawalsClient.told :=
    hreach.createdOnce (fun st c x _ => c.told_perform_act st x) fun i => (hidle i).told_eq_nil
  constructor
  · intro username
    obtain ⟨n, hle, hindexes, hcached⟩ := hok.indexes username
    refine ⟨n, hle, fun i => ?_, fun next hnext => hcached _ next hnext⟩
    rw [isSome_current_iff]
    exact hindexes i
  · intro i tab hi index form hform
    have htab := hknows i
    rw [hi] at htab
    obtain ⟨hstored, hvalid, c, profile, hprofile, hbalance⟩ := htab.scheduled (index, form) hform
    obtain ⟨request, hrequest, hsame⟩ := hok.exists_current hstored
    refine ⟨request, hrequest, hsame, c, profile, hprofile, ?_⟩
    intro amount hwhole hmax
    rw [hsame.totalAmount_eq]
    exact (WithdrawForm.totalAmountOfRequest_eq hvalid hwhole hmax).trans_le hbalance
  · exact hcreated.nodup
  · exact hcreated.disjoint
  · intro username i request hrequest
    obtain ⟨first, hfirst, hsame⟩ := hok.sameWithdrawal_first hrequest
    obtain ⟨form, hvalid, hform, c, profile, hprofile, hbalance⟩ :=
      hok.filed username i first hfirst
    refine ⟨c, profile, hprofile, ?_⟩
    rw [hsame.totalAmount_eq, hform]
    have hbound := WithdrawForm.totalAmountOfRequest_le hvalid
    rw [WithdrawForm.totalAmountOfRequest] at hbound
    omega
  · intro i processor hi k amount hsent
    have hprocessor := hknows i
    rw [hi] at hprocessor
    obtain ⟨first, hfirst, hamount⟩ := hprocessor.sent (k, amount) hsent
    obtain ⟨form, hvalid, hform, -⟩ := hok.filed _ _ first hfirst
    obtain ⟨request, hrequest, hsame⟩ := hok.exists_current hfirst
    obtain ⟨hmin, hmax⟩ := WithdrawForm.request_amount_bounds hvalid
    rw [← hform, hamount] at hmin hmax
    exact ⟨request, hrequest, hsame.1.trans hamount, hmin, hmax⟩

/-! ## Two tabs of one user -/

/-- Two tabs of one user, the processor, and the other programs. -/
def twoWithdrawTabs : Withdrawals (Fin 4) where
  store _ := Cell.absent
  client
    | 0 => .tab { currentlyLoggedInUsername := "anna" }
    | 1 => .tab { currentlyLoggedInUsername := "anna" }
    | 2 => .processor (processWithdrawalRequests [] 0)
    | 3 => .otherPrograms

lemma twoWithdrawTabs_idle (i : Fin 4) : (twoWithdrawTabs.client i).Idle := by
  fin_cases i
  · exact ⟨rfl, rfl⟩
  · exact ⟨rfl, rfl⟩
  · exact ⟨rfl, rfl⟩
  · exact trivial

/-- Both tabs find no index, and the second one finds request 0 taken.  Then both are paid out. -/
def twoWithdrawals : List (Fin 4 × WithdrawalsInput) :=
  [(3, .writeProfile "anna" { balanceInSatoshis := 10000000 }),
    (0, .handleRequestWithdrawalButtonClicked ⟨3 / 100, "1abc"⟩),
    (1, .handleRequestWithdrawalButtonClicked ⟨4 / 100, "2def"⟩)] ++
  List.replicate 3 (0, .proceed false) ++ List.replicate 5 (1, .proceed false) ++
  [(0, .proceed false), (2, .processWithdrawalRequests [⟨"anna", 0⟩, ⟨"anna", 1⟩] 0)] ++
  List.replicate 4 (2, .proceed false) ++ [(2, .proceedOntoExecutionIteration)] ++
  List.replicate 16 (2, .proceed false)

theorem scheduledRequestsOk_twoWithdrawTabs :
    ScheduledRequestsOk (twoWithdrawTabs.run WithdrawalsClient.act twoWithdrawals) ∧
      ((twoWithdrawTabs.run WithdrawalsClient.act twoWithdrawals).client 0).told =
        [.withdrawFundsRequest "anna" 0] ∧
      ((twoWithdrawTabs.run WithdrawalsClient.act twoWithdrawals).client 1).told =
        [.withdrawFundsRequest "anna" 1] :=
  ⟨scheduledRequestsOk (fun _ => ⟨rfl, fun _ => rfl⟩) twoWithdrawTabs_idle (reaches_run _ _),
    by decide +kernel, by decide +kernel⟩

end Autobackup.Abc2
