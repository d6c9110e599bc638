import Autobackup.Abc2.KeyRequests
import Autobackup.Abc2.SavedKeys

/-!
# What an add-funds tab knows about its request

A tab that drew its uuid itself and has not locked the account yet (`FreshSaved`) knows that no
account is in `GettingKey` with the uuid, hence no place is claimed with it.  From then on, and
from the start where the tab found the account in `GettingKey` (`EnteredSaved`), it knows that
all pages before the one it is at are passed by.

One step can break this: a tab that has a page and finds the set's current-page document locked
goes on at the page being filled, wherever it was.  `Process.SkipsNoClaim` is the condition that
no claim of the request is left behind by that.
-/

namespace Autobackup.Abc2

/-- The current version of the page carries a claim with the uuid. -/
def claimedOn (st : Db) (setN pageY : ℕ) (uuid : GetKeyUuid) : Bool :=
  (st (.bitcoinKeySetPage setN pageY)).current.any
    fun page => page.any fun place => place.claimedUuid = some uuid

/-- If the tab is about to replace its page by the one that is being filled, then no page before
that one carries a claim of its request. -/
def AddFunds.SkipsNoClaim (st : Db) (s : AddFunds) : Prop :=
  match s.phase, s.pageY, (st (.bitcoinKeySetCurrentPage s.setN)).get with
  | .getCurrentPage, some _, some (_, .fillingNextBitcoinKeySetPage pageY _ _) =>
      ∀ q < pageY, claimedOn st s.setN q s.perGetBitcoinKeyUUID = false
  | _, _, _ => True

/-- The condition, on a step of any process.  It concerns a tab that has a page of its own to look
at and goes to the one that is being filled: on none of the pages in between is there a claim of its
request. -/
def Process.SkipsNoClaim (st : Db) : Process → ProcessInput → Prop
  | .addFunds s, .addFunds (.proceed _ _) => s.SkipsNoClaim st
  | _, _ => True

namespace AddFunds

variable {sizes : KeySetSizes} {st₀ st st' : Db} {s : AddFunds}

/-! ## What a tab knows -/

/-- The account had no key when the tab read it. -/
def NoKeySaved (st : Db) (s : AddFunds) : Prop :=
  s.doingGettingKeyRecovery = false ∧ ∃ base,
    (st (.userAccount s.currentlyLoggedInUsername)).docAt s.userAccountCas = some base ∧
    base.bitcoinState = .NoKey

/-- The uuid is the tab's own, and nobody else has heard of it, unless the account was written
since. -/
def FreshSaved (sizes : KeySetSizes) (st : Db) (s : AddFunds) : Prop :=
  s.NoKeySaved st ∧
  (∀ c doc setN pageY, c ≤ s.userAccountCas →
    (st (.userAccount s.currentlyLoggedInUsername)).docAt c = some doc →
    doc.bitcoinState ≠ .GettingKey setN pageY s.perGetBitcoinKeyUUID) ∧
  ∀ q < s.page, PageExhausted sizes st s.setN q

/-- The account is in `GettingKey` with the tab's set and uuid, and every page before the tab's is
passed by. -/
def EnteredSaved (sizes : KeySetSizes) (st : Db) (s : AddFunds) : Prop :=
  s.pageY ≠ none ∧
  (∃ base pageY, (st (.userAccount s.currentlyLoggedInUsername)).docAt s.userAccountCas =
    some base ∧ base.bitcoinState = .GettingKey s.setN pageY s.perGetBitcoinKeyUUID) ∧
  ∀ q < s.page, PassedBy sizes st s.perGetBitcoinKeyUUID s.setN q

/-- Either of the two, with a page. -/
def ProgressSaved (sizes : KeySetSizes) (st : Db) (s : AddFunds) : Prop :=
  FreshSaved sizes st s ∧ s.pageY ≠ none ∨ EnteredSaved sizes st s

/-- The request facts of an add-funds tab. -/
def RequestsSaved (sizes : KeySetSizes) (st : Db) (s : AddFunds) : Prop :=
  match s.phase with
  | .idle | .threw | .determineBitcoinState | .getUserAccountForGettingKey
  | .getUserAccountForCredit | .creditConfirmedBitcoinAmount _ _ => True
  | .generateSetAndUuid => s.NoKeySaved st
  | .getCurrentPage => FreshSaved sizes st s ∨ EnteredSaved sizes st s
  | .getPageY | .claimKey _ _ | .unlockIntoHaveKey | .getNextPageY
  | .getHugeBitcoinKeyListCurrentPage => EnteredSaved sizes st s
  | _ => ProgressSaved sizes st s

lemma NoKeySaved.mono (hst : st ≤ st') (h : s.NoKeySaved st) : s.NoKeySaved st' := by
  obtain ⟨hnormal, base, hbase, hstate⟩ := h
  exact ⟨hnormal, base, Cell.docAt_mono (hst _) hbase, hstate⟩

lemma FreshSaved.mono (hst : st ≤ st') (h : FreshSaved sizes st s) : FreshSaved sizes st' s := by
  obtain ⟨hnoKey, hnew, hfull⟩ := h
  refine ⟨hnoKey.mono hst, fun c doc setN pageY hc hdoc => ?_, fun q hq => (hfull q hq).mono hst⟩
  obtain ⟨-, base, hbase, -⟩ := hnoKey
  have hb := Cell.docAt_bounds hbase
  rw [Cell.docAt_eq_of_le (hst _) (by omega)] at hdoc
  exact hnew c doc setN pageY hc hdoc

lemma EnteredSaved.mono (hst : st ≤ st') (h : EnteredSaved sizes st s) :
    EnteredSaved sizes st' s := by
  obtain ⟨hpage, ⟨base, pageY, hbase, hstate⟩, hpassed⟩ := h
  exact ⟨hpage, ⟨base, pageY, Cell.docAt_mono (hst _) hbase, hstate⟩,
    fun q hq => (hpassed q hq).mono hst⟩

lemma ProgressSaved.mono (hst : st ≤ st') (h : ProgressSaved sizes st s) :
    ProgressSaved sizes st' s := by
  rcases h with ⟨hfresh, hpage⟩ | hentered
  · exact .inl ⟨hfresh.mono hst, hpage⟩
  · exact .inr (hentered.mono hst)

lemma RequestsSaved.mono (hst : st ≤ st') (h : RequestsSaved sizes st s) :
    RequestsSaved sizes st' s := by
  unfold RequestsSaved at h ⊢
  cases hphase : s.phase with
  | generateSetAndUuid => rw [hphase] at h; exact NoKeySaved.mono hst h
  | getCurrentPage =>
      rw [hphase] at h
      exact h.imp (FreshSaved.mono hst) (EnteredSaved.mono hst)
  | _ =>
      rw [hphase] at h
      first | trivial | exact EnteredSaved.mono hst h | exact ProgressSaved.mono hst h

lemma ProgressSaved.exhausted (h : ProgressSaved sizes st s) :
    ∀ q < s.page, PageExhausted sizes st s.setN q := by
  intro q hq
  rcases h with ⟨⟨-, -, hfull⟩, -⟩ | ⟨-, -, hpassed⟩
  · exact hfull q hq
  · exact (hpassed q hq).exhausted

/-- In recovery the account is in `GettingKey` already. -/
lemma ProgressSaved.entered (h : ProgressSaved sizes st s)
    (hrecovery : s.doingGettingKeyRecovery = true) : EnteredSaved sizes st s := by
  rcases h with ⟨⟨⟨hnormal, -⟩, -⟩, -⟩ | hentered
  · rw [hnormal] at hrecovery
    cases hrecovery
  · exact hentered

/-- As long as the account is the version the tab has read, a fresh uuid is on no page. -/
lemma FreshSaved.not_claimed (hkeys : KeysOk sizes st₀ st) (hrequests : RequestsOk sizes st)
    (hrequest : s.RequestSaved st) (h : FreshSaved sizes st s)
    (hcurrent : s.userAccountCas = (st (.userAccount s.currentlyLoggedInUsername)).cas)
    {setN pageY c : ℕ} {page : List KeyPlace}
    (hpage : (st (.bitcoinKeySetPage setN pageY)).docAt c = some page) :
    ∀ place ∈ page, place.claimedUuid ≠ some s.perGetBitcoinKeyUUID := by
  intro place hmem hclaimed
  obtain ⟨⟨u, e, doc, y, hdoc, hstate⟩, -⟩ :=
    (hrequests.docs (.bitcoinKeySetPage setN pageY) c page hpage).2 place hmem _ hclaimed
  have hrequested := hkeys.docs (.userAccount u) e doc hdoc
  simp only [KeyDocOk, hstate] at hrequested
  obtain ⟨rfl, -⟩ := Requested.unique hrequested hrequest
  have he := Cell.docAt_bounds hdoc
  exact h.2.1 e doc setN y (by omega) hdoc hstate

lemma FreshSaved.passedBy (hkeys : KeysOk sizes st₀ st) (hrequests : RequestsOk sizes st)
    (hrequest : s.RequestSaved st) (h : FreshSaved sizes st s)
    (hcurrent : s.userAccountCas = (st (.userAccount s.currentlyLoggedInUsername)).cas) :
    ∀ q < s.page, PassedBy sizes st s.perGetBitcoinKeyUUID s.setN q := by
  intro q hq
  obtain ⟨c, page, hpage, hfull⟩ := h.2.2 q hq
  exact ⟨c, page, hpage, hfull, h.not_claimed hkeys hrequests hrequest hcurrent hpage⟩

/-- Whichever it is, when the account is locked the pages before the tab's are passed by. -/
lemma ProgressSaved.passedBy (hkeys : KeysOk sizes st₀ st) (hrequests : RequestsOk sizes st)
    (hrequest : s.RequestSaved st) (h : ProgressSaved sizes st s)
    (hcurrent : s.userAccountCas = (st (.userAccount s.currentlyLoggedInUsername)).cas) :
    ∀ q < s.page, PassedBy sizes st s.perGetBitcoinKeyUUID s.setN q := by
  rcases h with ⟨hfresh, -⟩ | ⟨-, -, hpassed⟩
  · exact hfresh.passedBy hkeys hrequests hrequest hcurrent
  · exact hpassed

/-- Under the condition, a page that is skipped is passed by. -/
lemma passedBy_of_skipsNoClaim (hkeys : KeysOk sizes st₀ st) {q : ℕ}
    (hnot : claimedOn st s.setN q s.perGetBitcoinKeyUUID = false)
    (hfull : PageExhausted sizes st s.setN q) :
    PassedBy sizes st s.perGetBitcoinKeyUUID s.setN q := by
  obtain ⟨c, page, hpage, hfull⟩ := hfull
  obtain rfl := hkeys.current_of_exhausted hpage hfull
  have hcurrent : (st (.bitcoinKeySetPage s.setN q)).current = some page := hpage
  refine ⟨_, page, hpage, hfull, fun place hmem hclaimed => ?_⟩
  rw [claimedOn, hcurrent, Option.any_some, List.any_eq_false] at hnot
  exact hnot place hmem (by simpa using hclaimed)

/-! ### The callbacks -/

lemma checkNotAttemptingToFill_requestsSaved (hrequests : RequestsOk sizes st) {cas : ℕ}
    {doc : UserAccount}
    (hread : (st (.userAccount s.currentlyLoggedInUsername)).docAt cas = some doc) :
    RequestsSaved sizes st (s.checkNotAttemptingToFill (some (cas, doc))) := by
  have hdoc := hrequests.docs (.userAccount s.currentlyLoggedInUsername) cas doc hread
  unfold checkNotAttemptingToFill
  simp only
  split_ifs
  · trivial
  · cases hstate : doc.bitcoinState with
    | NoKey => exact ⟨rfl, doc, hread, hstate⟩
    | HaveKey key => trivial
    | GettingKey setN pageY uuid =>
        exact .inr ⟨by simp [request], ⟨doc, pageY, hread, hstate⟩, hdoc setN pageY uuid hstate⟩

lemma determineBitcoinState_requestsSaved (hrequests : RequestsOk sizes st) {cas : ℕ}
    {doc : UserAccount}
    (hread : (st (.userAccount s.currentlyLoggedInUsername)).docAt cas = some doc) :
    RequestsSaved sizes st (s.determineBitcoinState (some (cas, doc))) := by
  unfold determineBitcoinState
  simp only
  split
  · trivial
  · split_ifs <;> trivial
  · split_ifs
    · trivial
    · exact checkNotAttemptingToFill_requestsSaved hrequests hread

lemma proceedToBitcoinKeySetNgetting_requestsSaved (h : ProgressSaved sizes st s) :
    RequestsSaved sizes st s.proceedToBitcoinKeySetNgetting := by
  unfold proceedToBitcoinKeySetNgetting
  split_ifs with hrecovery
  · exact h.entered hrecovery
  · exact h

/-- The set's current-page document: here the tab may change its page. -/
lemma analyzeCurrentPageDoc_requestsSaved (hkeys : KeysOk sizes st₀ st)
    (hrequests : RequestsOk sizes st) (hphase : s.phase = .getCurrentPage)
    (hskips : s.SkipsNoClaim st) (h : FreshSaved sizes st s ∨ EnteredSaved sizes st s) :
    RequestsSaved sizes st
      (s.analyzeCurrentPageDoc (st (.bitcoinKeySetCurrentPage s.setN)).get) := by
  unfold analyzeCurrentPageDoc
  cases hread : (st (.bitcoinKeySetCurrentPage s.setN)).get with
  | none => trivial
  | some found =>
      obtain ⟨cas, doc⟩ := found
      obtain ⟨-, hdoc⟩ := Cell.get_eq_some.1 hread
      have hfull := hrequests.docs (.bitcoinKeySetCurrentPage s.setN) _ _ hdoc
      cases doc with
      | currentPage pageY =>
          refine proceedToBitcoinKeySetNgetting_requestsSaved ?_
          rcases h with ⟨hnoKey, hnew, hbefore⟩ | ⟨hpage, hbase, hpassed⟩
          · refine .inl ⟨⟨hnoKey, hnew, ?_⟩, by simp⟩
            cases hpage : s.pageY with
            | none => exact hfull
            | some y =>
                simp only [page, hpage] at hbefore ⊢
                exact hbefore
          · obtain ⟨y, hpage⟩ := Option.ne_none_iff_exists'.1 hpage
            refine .inr ⟨by simp, hbase, ?_⟩
            simp only [page, hpage] at hpassed ⊢
            exact hpassed
      | fillingNextBitcoinKeySetPage pageY uuid pageZ =>
          rcases h with ⟨hnoKey, hnew, -⟩ | ⟨hpage, hbase, -⟩
          · exact .inl ⟨⟨hnoKey, hnew, hfull⟩, by simp [request]⟩
          · obtain ⟨y, hpage⟩ := Option.ne_none_iff_exists'.1 hpage
            simp only [SkipsNoClaim, hphase, hpage, hread] at hskips
            exact .inr ⟨by simp [request], hbase, fun q hq =>
              passedBy_of_skipsNoClaim hkeys (hskips q hq) (hfull q hq)⟩

lemma analyzePageY_requestsSaved (hrequests : RequestsOk sizes st) {cas : ℕ}
    {page : List KeyPlace}
    (hpage : (st (.bitcoinKeySetPage s.setN s.page)).docAt cas = some page)
    (h : EnteredSaved sizes st s) : RequestsSaved sizes st (s.analyzePageY sizes cas page) := by
  unfold analyzePageY
  split
  · exact h
  · exact h
  · next hfull =>
      obtain ⟨-, hbase, hpassed⟩ := h
      have horder := (hrequests.docs (.bitcoinKeySetPage s.setN s.page) cas page hpage).1
      refine ⟨by simp [request], hbase, fun q hq => ?_⟩
      rcases Nat.lt_succ_iff_lt_or_eq.1 hq with hlt | rfl
      · exact hpassed q hlt
      · exact ⟨cas, page, hpage, exhausted_of_claim_full hfull,
          claim_full_not_owner hfull horder.freeBeyond⟩
  · trivial

lemma gotHugeBitcoinKeyListPage_requestsSaved {r : Option (ℕ × List KeyRange)}
    (h : ProgressSaved sizes st s) :
    RequestsSaved sizes st (s.gotHugeBitcoinKeyListPage sizes r) := by
  unfold gotHugeBitcoinKeyListPage
  cases r with
  | none =>
      simp only
      split_ifs
      · exact h
      · trivial
  | some found =>
      simp only
      split
      · exact h
      · exact h
      · simp only [request]
        split_ifs <;> exact h
      · trivial

/-! ### The steps -/

/-- The first time a tab knows its uuid. -/
lemma freshSaved_of_stored (hkeys : KeysOk sizes st₀ st) {setN : ℕ} {uuid : GetKeyUuid}
    (habsent : (st (.uuidPerKeyRequest uuid)).cas = 0) (h : s.NoKeySaved st) :
    FreshSaved sizes st
      ({ s with setN := setN, perGetBitcoinKeyUUID := uuid, pageY := none }.request
        .getCurrentPage) := by
  refine ⟨h, fun c doc n y _ hdoc hstate => ?_, fun q hq => absurd hq (Nat.not_lt_zero q)⟩
  have hrequested := hkeys.docs (.userAccount s.currentlyLoggedInUsername) c doc hdoc
  simp only [KeyDocOk, hstate] at hrequested
  have hb : _ ≤ (st (.uuidPerKeyRequest uuid)).cas := (Cell.docAt_bounds hrequested).2
  omega

lemma perform_requestsSaved (hkeys : KeysOk sizes st₀ st) (hrequests : RequestsOk sizes st)
    (hsaved : s.Saved st) (hkeysSaved : s.KeysSaved sizes st₀ st) (hskips : s.SkipsNoClaim st)
    {setN : ℕ} {uuid : GetKeyUuid} (h : RequestsSaved sizes st s) :
    RequestsSaved sizes (Autobackup.perform st (s.perform sizes setN uuid)).1
      (Autobackup.perform st (s.perform sizes setN uuid)).2 := by
  unfold RequestsSaved at h
  unfold AddFunds.perform
  cases hphase : s.phase with
  | idle => simp only [Autobackup.perform, RequestsSaved, hphase]
  | threw => simp only [Autobackup.perform, RequestsSaved, hphase]
  | determineBitcoinState =>
      simp only [Autobackup.perform]
      cases hread : (st (.userAccount s.currentlyLoggedInUsername)).get with
      | none => trivial
      | some found =>
          exact determineBitcoinState_requestsSaved hrequests (Cell.get_eq_some.1 hread).2
  | getUserAccountForGettingKey =>
      simp only [Autobackup.perform]
      cases hread : (st (.userAccount s.currentlyLoggedInUsername)).get with
      | none => trivial
      | some found =>
          exact checkNotAttemptingToFill_requestsSaved hrequests (Cell.get_eq_some.1 hread).2
  | generateSetAndUuid =>
      rw [hphase] at h
      simp only
      split_ifs
      · exact perform_add (P := fun r => RequestsSaved sizes r.1 r.2)
          (fun habsent => .inl ((freshSaved_of_stored hkeys habsent h).mono
            (Store.le_push _ _ _ _)))
          (fun _ => by simpa only [RequestsSaved, setAndUuidGenerated, hphase] using h)
      · simpa only [Autobackup.perform, RequestsSaved, hphase] using h
  | getCurrentPage =>
      rw [hphase] at h
      exact analyzeCurrentPageDoc_requestsSaved hkeys hrequests hphase hskips h
  | lockIntoGettingKey =>
      rw [hphase] at h
      unfold Saved at hsaved
      unfold KeysSaved at hkeysSaved
      rw [hphase] at hsaved hkeysSaved
      obtain ⟨base, hbase, -⟩ := hsaved
      refine perform_set (P := fun r => RequestsSaved sizes r.1 r.2) (Cell.docAt_bounds hbase).1
        (fun hcas => ?_) (fun r hr => ?_)
      · have hpassed := h.passedBy hkeys hrequests hkeysSaved hcas
        have hpage : s.pageY ≠ none := by
          rcases h with ⟨-, hpage⟩ | ⟨hpage, -⟩ <;> exact hpage
        exact ⟨hpage, ⟨_, s.page, Store.docAt_push_next hcas _ _, rfl⟩,
          fun q hq => (hpassed q hq).mono (Store.le_push _ _ _ _)⟩
      · cases r with
        | stored cas => exact absurd rfl (hr cas)
        | keyExists => trivial
        | keyMissing => trivial
  | getPageY =>
      rw [hphase] at h
      simp only [Autobackup.perform, gotPageY]
      split
      · trivial
      · next cas page hread =>
          exact analyzePageY_requestsSaved hrequests (Cell.get_eq_some.1 hread).2 h
  | claimKey pageY cas =>
      rw [hphase] at h
      refine perform_set_any (P := fun r => RequestsSaved sizes r.1 r.2)
        (EnteredSaved.mono (Store.le_push _ _ _ _) h) (fun r => ?_)
      cases r <;> exact h
  | unlockIntoHaveKey =>
      refine perform_set_any (P := fun r => RequestsSaved sizes r.1 r.2) trivial (fun r => ?_)
      cases r <;> trivial
  | getNextPageY =>
      rw [hphase] at h
      simp only [Autobackup.perform, gotNextPageY]
      split
      · exact h
      · next cas page hread =>
          exact analyzePageY_requestsSaved hrequests (Cell.get_eq_some.1 hread).2 h
  | getHugeBitcoinKeyListCurrentPage =>
      rw [hphase] at h
      simp only [Autobackup.perform, hugeBitcoinKeyListCurrentPageGetComplete]
      split
      · trivial
      · exact .inr h
  | lockCurrentPage =>
      rw [hphase] at h
      refine perform_set_any (P := fun r => RequestsSaved sizes r.1 r.2)
        (ProgressSaved.mono (Store.le_push _ _ _ _) h) (fun r => ?_)
      cases r with
      | stored cas => exact h
      | keyExists => trivial
      | keyMissing => trivial
  | getHugeBitcoinKeyListPage =>
      rw [hphase] at h
      exact gotHugeBitcoinKeyListPage_requestsSaved h
  | relockCurrentPage =>
      exact perform_set_any (P := fun r => RequestsSaved sizes r.1 r.2) trivial (fun _ => trivial)
  | claimKeyRange pageZ cas =>
      rw [hphase] at h
      refine perform_set_any (P := fun r => RequestsSaved sizes r.1 r.2)
        (ProgressSaved.mono (Store.le_push _ _ _ _) h) (fun r => ?_)
      cases r <;> exact h
  | changeHugeBitcoinKeyListCurrentPage =>
      rw [hphase] at h
      exact perform_set_any (P := fun r => RequestsSaved sizes r.1 r.2)
        (ProgressSaved.mono (Store.le_push _ _ _ _) h) (fun _ => h)
  | createPageY =>
      rw [hphase] at h
      exact perform_add (P := fun r => RequestsSaved sizes r.1 r.2)
        (fun _ => ProgressSaved.mono (Store.le_push _ _ _ _) h) (fun _ => h)
  | unlockCurrentPage =>
      rw [hphase] at h
      refine perform_set_any (P := fun r => RequestsSaved sizes r.1 r.2)
        (proceedToBitcoinKeySetNgetting_requestsSaved
          (ProgressSaved.mono (Store.le_push _ _ _ _) h)) (fun r => ?_)
      cases r with
      | stored cas => exact proceedToBitcoinKeySetNgetting_requestsSaved h
      | keyExists => exact h.imp And.left id
      | keyMissing => exact h.imp And.left id
  | getUserAccountForCredit =>
      simp only [Autobackup.perform, creditAfterAnalyzingUserAccount]
      split
      · trivial
      · split_ifs <;> trivial
  | creditConfirmedBitcoinAmount doc cas =>
      refine perform_set_any (P := fun r => RequestsSaved sizes r.1 r.2) trivial (fun r => ?_)
      cases r <;> trivial

lemma act_requestsSaved (hkeys : KeysOk sizes st₀ st) (hrequests : RequestsOk sizes st)
    (hsaved : s.Saved st) (hkeysSaved : s.KeysSaved sizes st₀ st) {x : AddFundsInput}
    (hskips : Process.SkipsNoClaim st (.addFunds s) (.addFunds x))
    (h : RequestsSaved sizes st s) :
    RequestsSaved sizes (Autobackup.perform st (s.act sizes x)).1
      (Autobackup.perform st (s.act sizes x)).2 := by
  cases x with
  | proceed setN uuid =>
      exact perform_requestsSaved hkeys hrequests hsaved hkeysSaved hskips h
  | populateAndInitialize =>
      simp only [act]
      split_ifs
      · trivial
      · exact h
  | handleGetBitcoinKeyButtonClicked =>
      simp only [act]
      split_ifs
      · trivial
      · exact h
  | confirmedBitcoinBalance balance =>
      simp only [act]
      split_ifs with hidle
      · simp only [Autobackup.perform, RequestsSaved, hidle.1]
      · exact h
  | doneSendingBitcoinsToCurrentAddressButtonClicked =>
      simp only [act]
      split_ifs with hidle
      · simp only [Autobackup.perform, doneSendingBitcoinsToCurrentAddressButtonClicked]
        split_ifs
        · exact h
        · trivial
      · exact h

/-! ### The writes -/

/-- The account was not in `GettingKey` with any other request when the tab read it. -/
lemma ProgressSaved.versionOk (h : ProgressSaved sizes st s) {base after : UserAccount}
    (hbase : (st (.userAccount s.currentlyLoggedInUsername)).docAt s.userAccountCas = some base)
    (hafter : ∃ pageY, after.bitcoinState = .GettingKey s.setN pageY s.perGetBitcoinKeyUUID) :
    RequestVersionOk st (.userAccount s.currentlyLoggedInUsername) base after := by
  intro setN pageY uuid hstate
  rcases h with ⟨⟨⟨-, base', hbase', hnoKey⟩, -⟩, -⟩ | ⟨-, ⟨base', y, hbase', hgetting⟩, -⟩
  · obtain rfl := Option.some.inj (hbase.symm.trans hbase')
    rw [hnoKey] at hstate
    cases hstate
  · obtain rfl := Option.some.inj (hbase.symm.trans hbase')
    rw [hgetting] at hstate
    obtain ⟨rfl, -, rfl⟩ := BitcoinState.GettingKey.inj hstate
    exact .inl hafter

/-- What a tab writes, in any phase, is as the rules for requests demand. -/
lemma perform_writesKeepRequests (hkeys : KeysOk sizes st₀ st) (hrequests : RequestsOk sizes st)
    (hsaved : s.Saved st) (hkeysSaved : s.KeysSaved sizes st₀ st) {setN : ℕ} {uuid : GetKeyUuid}
    (h : RequestsSaved sizes st s) :
    WritesKeep (RequestDocOk sizes) RequestVersionOk st (s.perform sizes setN uuid) := by
  unfold RequestsSaved at h
  unfold Saved at hsaved
  unfold KeysSaved at hkeysSaved
  unfold AddFunds.perform
  cases hphase : s.phase with
  | generateSetAndUuid =>
      simp only
      split_ifs
      · exact fun _ => trivial
      · trivial
  | lockIntoGettingKey =>
      rw [hphase] at h hsaved hkeysSaved
      obtain ⟨base, hbase, -⟩ := hsaved
      intro hcas
      have hpos := (Cell.docAt_bounds hbase).1
      have hcurrent := hcas.resolve_left (by omega)
      refine ⟨fun n y v hstate q hq => ?_, fun e he => ?_⟩
      · obtain ⟨rfl, rfl, rfl⟩ := BitcoinState.GettingKey.inj hstate
        exact h.passedBy hkeys hrequests hkeysSaved hcurrent q hq
      · rw [Cell.current, ← hcurrent] at he
        exact h.versionOk he ⟨s.page, rfl⟩
  | claimKey pageY cas =>
      rw [hphase] at h hkeysSaved
      obtain ⟨-, base, place, hbase, htook, -⟩ := hkeysSaved
      obtain ⟨-, ⟨account, y, haccount, hstate⟩, hpassed⟩ := h
      obtain ⟨horder, hclaims⟩ := hrequests.docs (.bitcoinKeySetPage s.setN s.page) cas base hbase
      refine fun _ => ⟨⟨horder.took htook, fun b hmem v hclaimed => ?_⟩, fun _ _ => trivial⟩
      rcases mem_of_claim_took htook hmem with hold | rfl
      · exact hclaims b hold v hclaimed
      · obtain rfl : s.perGetBitcoinKeyUUID = v := Option.some.inj hclaimed
        exact ⟨⟨_, _, account, y, haccount, hstate⟩, hpassed⟩
  | unlockIntoHaveKey =>
      rw [hphase] at h hkeysSaved
      obtain ⟨-, ⟨account, y, haccount, hstate⟩, -⟩ := h
      intro hcas
      have hpos := (Cell.docAt_bounds haccount).1
      have hcurrent := hcas.resolve_left (by omega)
      refine ⟨fun _ _ _ hgetting => absurd hgetting (by simp [userAccountHaveKey]),
        fun e he n y v hgetting => .inr ⟨_, rfl, ?_⟩⟩
      rw [Cell.current, ← hcurrent] at he
      obtain rfl : account = e := Option.some.inj (haccount.symm.trans he)
      rw [hstate] at hgetting
      obtain ⟨-, -, rfl⟩ := BitcoinState.GettingKey.inj hgetting
      exact hkeysSaved.2
  | lockCurrentPage =>
      rw [hphase] at h
      exact fun _ => ⟨h.exhausted, fun _ _ => trivial⟩
  | relockCurrentPage =>
      rw [hphase] at h
      exact fun _ => ⟨h.exhausted, fun _ _ => trivial⟩
  | claimKeyRange pageZ cas => exact fun _ => ⟨trivial, fun _ _ => trivial⟩
  | changeHugeBitcoinKeyListCurrentPage => exact fun _ => ⟨trivial, fun _ _ => trivial⟩
  | createPageY =>
      have hfree (place : KeyPlace) (hmem : place ∈ s.newPageY) : place.claimedUuid = none := by
        obtain ⟨key, -, rfl⟩ := List.mem_map.1 hmem
        rfl
      refine fun _ => ⟨.of_free hfree, fun place hmem v hclaimed => ?_⟩
      rw [hfree place hmem] at hclaimed
      cases hclaimed
  | unlockCurrentPage =>
      rw [hphase] at h
      exact fun _ => ⟨h.exhausted, fun _ _ => trivial⟩
  | creditConfirmedBitcoinAmount doc cas =>
      rw [hphase] at hsaved
      obtain ⟨base, hbase, -, ⟨key, hkey⟩, rfl⟩ := hsaved
      intro hcas
      have hpos := (Cell.docAt_bounds hbase).1
      have hcurrent := hcas.resolve_left (by omega)
      refine ⟨fun _ _ _ hgetting => absurd hgetting (by simp), fun e he n y v hgetting => ?_⟩
      rw [Cell.current, ← hcurrent] at he
      obtain rfl : base = e := Option.some.inj (hbase.symm.trans he)
      rw [hkey] at hgetting
      cases hgetting
  | _ => trivial

lemma act_writesKeepRequests (hkeys : KeysOk sizes st₀ st) (hrequests : RequestsOk sizes st)
    (hsaved : s.Saved st) (hkeysSaved : s.KeysSaved sizes st₀ st) {x : AddFundsInput}
    (h : RequestsSaved sizes st s) :
    WritesKeep (RequestDocOk sizes) RequestVersionOk st (s.act sizes x) := by
  cases x with
  | proceed setN uuid => exact perform_writesKeepRequests hkeys hrequests hsaved hkeysSaved h
  | populateAndInitialize => simp only [act]; split_ifs <;> trivial
  | handleGetBitcoinKeyButtonClicked => simp only [act]; split_ifs <;> trivial
  | confirmedBitcoinBalance balance => simp only [act]; split_ifs <;> trivial
  | doneSendingBitcoinsToCurrentAddressButtonClicked => simp only [act]; split_ifs <;> trivial

end AddFunds

/-! ## All programs together -/

namespace Process

/-- What a process knows about requests. -/
def RequestsSaved (sizes : KeySetSizes) (st : Db) : Process → Prop
  | addFunds a => a.RequestsSaved sizes st
  | _ => True

variable {sizes : KeySetSizes} {st₀ st st' : Db} {p : Process}

lemma RequestsSaved.mono (hst : st ≤ st') (h : p.RequestsSaved sizes st) :
    p.RequestsSaved sizes st' := by
  cases p with
  | addFunds a => exact AddFunds.RequestsSaved.mono hst h
  | _ => trivial

lemma Initial.requestsSaved (h : p.Initial) : p.RequestsSaved sizes st := by
  cases h <;> trivial

lemma act_requestsSaved (hkeys : KeysOk sizes st₀ st) (hrequests : RequestsOk sizes st)
    (hsaved : p.Saved st) (hkeysSaved : p.KeysSaved sizes st₀ st) {x : ProcessInput}
    (hskips : p.SkipsNoClaim st x) (h : p.RequestsSaved sizes st) :
    RequestsSaved sizes (perform st (p.act sizes x)).1 (perform st (p.act sizes x)).2 := by
  cases p with
  | addFunds a =>
      cases x with
      | addFunds y =>
          rw [act, perform_map]
          exact AddFunds.act_requestsSaved hkeys hrequests hsaved hkeysSaved hskips h
      | _ => exact h
  | _ =>
      refine perform_act (P := fun r => RequestsSaved sizes r.1 r.2) ?_ ?_ ?_ ?_ trivial
      · exact fun _ _ _ => trivial
      · exact fun _ _ => trivial
      · exact fun _ _ => trivial
      · exact fun _ _ h => by cases h

lemma act_writesKeepRequests (hkeys : KeysOk sizes st₀ st) (hrequests : RequestsOk sizes st)
    (haccounts : AccountsOk st) (hsaved : p.Saved st) (hkeysSaved : p.KeysSaved sizes st₀ st)
    (h : p.RequestsSaved sizes st) {x : ProcessInput} :
    WritesKeep (RequestDocOk sizes) RequestVersionOk st (p.act sizes x) := by
  refine act_writesKeep (fun k d hk hu => ?_) (fun u d e hsame hd => ⟨?_, ?_⟩) hrequests haccounts
    hsaved ?_
  · cases k with
    | userAccount u => exact absurd rfl (hu u)
    | bitcoinKeySetCurrentPage setN => exact absurd trivial hk
    | bitcoinKeySetPage setN pageY => exact absurd trivial hk
    | _ => exact ⟨trivial, fun _ => trivial⟩
  · simp only [RequestDocOk, hsame] at hd ⊢
    exact hd
  · exact fun n y v hstate => .inl ⟨y, hsame.trans hstate⟩
  · rintro a y rfl
    exact AddFunds.act_writesKeepRequests hkeys hrequests hsaved hkeysSaved h

end Process

/-! ## Every run -/

section Runs

variable {ι : Type} [DecidableEq ι] {sizes : KeySetSizes} {w₀ w : System ι}

/-- Run lemma: if every step satisfies the condition, the rules for requests hold in every
reachable state. -/
lemma requests_of_reaches (hstart : KeysStart w₀.store) (hprocesses : ∀ i, (w₀.client i).Initial)
    (hreach : Reaches (Process.act sizes) Process.SkipsNoClaim w₀ w) :
    KeysOk sizes w₀.store w.store ∧ RequestsOk sizes w.store := by
  have hinv := hreach.threadModular
    (I := fun st => KeysInvariant sizes w₀.store st ∧ RequestsOk sizes st)
    (L := fun st p => p.Saved st ∧ p.KeysSaved sizes w₀.store st ∧ p.RequestsSaved sizes st)
    (fun _ _ _ hst _ h => ⟨h.1.mono hst, h.2.1.mono hst, h.2.2.mono hst⟩)
    (fun st p x hskips hok h => by
      obtain ⟨⟨haccounts, hkeys⟩, hrequests⟩ := hok
      obtain ⟨hsaved, hkeysSaved, hrequestsSaved⟩ := h
      refine ⟨⟨⟨?_, ?_⟩, ?_⟩, p.act_saved hsaved, p.act_keysSaved hkeys hkeysSaved,
        p.act_requestsSaved hkeys hrequests hsaved hkeysSaved hskips hrequestsSaved⟩
      · exact haccounts.perform (p.act_accountWritesOk haccounts hsaved)
      · exact hkeys.perform keyRules_growsWith
          (p.act_writesKeepKeys hkeys haccounts hsaved hkeysSaved)
      · exact hrequests.perform requestRules_growsWith
          (p.act_writesKeepRequests hkeys hrequests haccounts hsaved hkeysSaved hrequestsSaved))
    ⟨⟨hstart.accounts.ok, hstart.ok sizes⟩, hstart.requestsOk sizes⟩
    (fun i => ⟨(hprocesses i).saved _, (hprocesses i).keysSaved, (hprocesses i).requestsSaved⟩)
  exact ⟨hinv.1.1.keys, hinv.1.2⟩

end Runs

end Autobackup.Abc2
