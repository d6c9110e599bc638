import Autobackup.Abc2.KeyPages
import Autobackup.Abc2.SavedAccounts

/-!
# What an add-funds tab knows about keys

A tab that is after a key has drawn its uuid or found it in the account; one that fills a page
does so under the fill uuid of that page.  What it is about to write on a page is a version it
has read with one place taken, and the page it creates is a range claimed under its fill uuid.
`AddFunds.KeysSaved` says this phase by phase.

The other programs write no key documents and leave the bitcoin state of an account as it is
(`LeavesKeysAlone`), whatever else they do to it.
-/

namespace Autobackup.Abc2

/-! ## Programs that have nothing to do with keys -/

/-- The documents of the key procedure, accounts apart. -/
def Key.OfKeys : Key → Prop
  | .bitcoinKeySetCurrentPage _ | .bitcoinKeySetPage _ _ | .hugeBitcoinKeyListCurrentPage
  | .hugeBitcoinKeyListPage _ | .uuidPerKeyRequest _ => True
  | _ => False

/-- Account writes with this note do not touch the bitcoin state. -/
def Note.LeavesBitcoinState : Note → Prop
  | .gettingKey | .haveKey | .deposit _ => False
  | _ => True

/-- The action has no part in the key procedure. -/
def LeavesKeysAlone {σ : Type} : DbAction σ → Prop
  | .add k _ _ _ => ¬ k.OfKeys
  | .set k note _ _ _ => ¬ k.OfKeys ∧ note.LeavesBitcoinState
  | _ => True

lemma UserAccount.Step.bitcoinState {before after : UserAccount} {note : Note}
    (h : before.Step note after) (hnote : note.LeavesBitcoinState) :
    after.bitcoinState = before.bitcoinState := by
  cases note with
  | lockToward slot => obtain ⟨-, filler, rfl⟩ := h; rfl
  | debit slot price => obtain ⟨-, rfl⟩ := h; rfl
  | unlockWithoutDebit slot => obtain ⟨-, rfl⟩ := h; rfl
  | lockToCredit tx => obtain ⟨-, rfl⟩ := h; rfl
  | credit tx amount => obtain ⟨-, rfl⟩ := h; rfl
  | gettingKey => exact hnote.elim
  | haveKey => exact hnote.elim
  | deposit amount => exact hnote.elim
  | document => exact h.elim

/-- Rules about key documents and bitcoin states are kept by whatever leaves these alone. -/
lemma writesKeep_of_leavesKeysAlone {σ : Type} {Q : DocRule Note Doc} {R : VersionRule Note Doc}
    {st : Db} {a : DbAction σ} (hothers : ∀ k d, ¬ k.OfKeys → (∀ u, k ≠ .userAccount u) →
      Q st k d ∧ ∀ e, R st k e d)
    (haccount : ∀ u (d e : UserAccount), e.bitcoinState = d.bitcoinState →
      Q st (.userAccount u) d → Q st (.userAccount u) e ∧ R st (.userAccount u) d e)
    (hkeeps : Keeps Q R st) (hwrites : AccountWritesOk st a) (h : LeavesKeysAlone a) :
    WritesKeep Q R st a := by
  cases a with
  | add k note d resume =>
      intro _
      refine (hothers k d h fun u hk => ?_).1
      subst hk
      exact hwrites
  | set k note d c resume =>
      obtain ⟨hk, hnote⟩ := h
      intro hc
      by_cases hu : ∃ u, k = .userAccount u
      · obtain ⟨u, rfl⟩ := hu
        obtain ⟨base, hbase, hstep⟩ := hwrites
        have hc0 := (Cell.docAt_bounds hbase).1
        obtain rfl : c = (st (.userAccount u)).cas := hc.resolve_left (by omega)
        have hsame := haccount u base d (hstep.bitcoinState hnote) (hkeeps.docs _ _ _ hbase)
        refine ⟨hsame.1, fun e he => ?_⟩
        obtain rfl : base = e := Option.some.inj (hbase.symm.trans he)
        exact hsame.2
      · exact ⟨(hothers k d hk fun u h => hu ⟨u, h⟩).1,
          fun e _ => (hothers k d hk fun u h => hu ⟨u, h⟩).2 e⟩
  | _ => trivial

lemma leavesKeysAlone_map {σ τ : Type} {a : DbAction σ} (f : σ → τ) (h : LeavesKeysAlone a) :
    LeavesKeysAlone (a.map f) := by
  cases a with
  | add k note d resume => exact h
  | set k note d c resume => exact h
  | _ => trivial

lemma Session.act_leavesKeysAlone (s : Session) (x : SessionInput) :
    LeavesKeysAlone (s.act x) := by
  obtain ⟨m, phase⟩ := s
  cases x with
  | campaignUpdate cas => trivial
  | proceed now =>
      cases phase with
      | issued request => cases request <;> simp [act, SessionMembers.perform, LeavesKeysAlone,
          Key.OfKeys, Note.LeavesBitcoinState]
      | _ => trivial
  | _ => cases phase <;> trivial

lemma RecovererPhase.act_leavesKeysAlone (r : RecovererPhase) : LeavesKeysAlone r.act := by
  cases r <;> simp [act, LeavesKeysAlone, Key.OfKeys, Note.LeavesBitcoinState]

lemma Creditor.act_leavesKeysAlone (s : Creditor) : LeavesKeysAlone s.act := by
  obtain ⟨rows, found, creditted, earned, phase⟩ := s
  cases phase <;> simp [act, LeavesKeysAlone, Key.OfKeys, Note.LeavesBitcoinState]

/-! ## What a tab knows -/

namespace AddFunds

/-- The uuid was drawn for the tab's user and set. -/
def RequestSaved (st : Db) (s : AddFunds) : Prop :=
  Requested st s.perGetBitcoinKeyUUID s.currentlyLoggedInUsername s.setN

/-- The fill uuid is the one of the page to be filled. -/
def FillSaved (st : Db) (s : AddFunds) : Prop :=
  s.RequestSaved st ∧ s.perFillUuid = ⟨s.setN, s.page⟩

/-- The keys for the new page are a range claimed under the fill uuid. -/
def RangeSaved (st₀ st : Db) (s : AddFunds) : Prop :=
  s.FillSaved st ∧ ∃ pageZ i, RangeClaimed st pageZ i s.perFillUuid ∧
    s.bitcoinKeysVector = (KeySource.range pageZ i).keys st₀

/-- The key to give to the user was claimed with the tab's uuid. -/
def ClaimSaved (st : Db) (s : AddFunds) : Prop :=
  s.RequestSaved st ∧
    KeyClaimed st s.bitcoinKeyToGiveToUser s.perGetBitcoinKeyUUID s.currentlyLoggedInUsername

/-- The key facts of an add-funds tab. -/
def KeysSaved (sizes : KeySetSizes) (st₀ st : Db) (s : AddFunds) : Prop :=
  match s.phase with
  | .getCurrentPage | .lockIntoGettingKey | .getPageY | .getNextPageY
  | .getHugeBitcoinKeyListCurrentPage | .unlockCurrentPage => s.RequestSaved st
  | .claimKey pageY cas =>
      s.RequestSaved st ∧ ∃ base place,
        (st (.bitcoinKeySetPage s.setN s.page)).docAt cas = some base ∧
        s.analyzePlaces sizes base = .took place pageY ∧ s.bitcoinKeyToGiveToUser = place.key
  | .unlockIntoHaveKey => s.ClaimSaved st
  | .lockCurrentPage | .getHugeBitcoinKeyListPage | .relockCurrentPage
  | .changeHugeBitcoinKeyListCurrentPage => s.FillSaved st
  | .claimKeyRange pageZ cas =>
      s.FillSaved st ∧ ∃ base range,
        (st (.hugeBitcoinKeyListPage s.startingFromPageZ)).docAt cas = some base ∧
        s.analyzeRanges sizes base = .took range pageZ ∧ s.bitcoinKeysVector = range.keys
  | .createPageY => s.RangeSaved st₀ st
  | _ => True

variable {sizes : KeySetSizes} {st₀ st st' : Db} {s : AddFunds}

lemma RequestSaved.mono (hst : st ≤ st') (h : s.RequestSaved st) : s.RequestSaved st' :=
  Requested.mono hst h

lemma FillSaved.mono (hst : st ≤ st') (h : s.FillSaved st) : s.FillSaved st' :=
  ⟨h.1.mono hst, h.2⟩

lemma RangeSaved.mono (hst : st ≤ st') (h : s.RangeSaved st₀ st) : s.RangeSaved st₀ st' := by
  obtain ⟨hfill, pageZ, i, hclaimed, hkeys⟩ := h
  exact ⟨hfill.mono hst, pageZ, i, hclaimed.mono hst, hkeys⟩

lemma ClaimSaved.mono (hst : st ≤ st') (h : s.ClaimSaved st) : s.ClaimSaved st' :=
  ⟨h.1.mono hst, h.2.mono hst⟩

lemma KeysSaved.mono (hst : st ≤ st') (h : s.KeysSaved sizes st₀ st) :
    s.KeysSaved sizes st₀ st' := by
  unfold KeysSaved at h ⊢
  cases hphase : s.phase with
  | claimKey pageY cas =>
      rw [hphase] at h
      obtain ⟨hrequest, base, place, hbase, hfacts⟩ := h
      exact ⟨hrequest.mono hst, base, place, Cell.docAt_mono (hst _) hbase, hfacts⟩
  | claimKeyRange pageZ cas =>
      rw [hphase] at h
      obtain ⟨hfill, base, range, hbase, hfacts⟩ := h
      exact ⟨hfill.mono hst, base, range, Cell.docAt_mono (hst _) hbase, hfacts⟩
  | createPageY => rw [hphase] at h; exact RangeSaved.mono hst h
  | unlockIntoHaveKey => rw [hphase] at h; exact ClaimSaved.mono hst h
  | _ =>
      rw [hphase] at h
      first | trivial | exact RequestSaved.mono hst h | exact FillSaved.mono hst h

/-! ### The callbacks -/

lemma checkNotAttemptingToFill_keysSaved (hok : KeysOk sizes st₀ st) {cas : ℕ}
    {doc : UserAccount}
    (hread : (st (.userAccount s.currentlyLoggedInUsername)).docAt cas = some doc) :
    (s.checkNotAttemptingToFill (some (cas, doc))).KeysSaved sizes st₀ st := by
  have hdoc := hok.docs (.userAccount s.currentlyLoggedInUsername) cas doc hread
  unfold checkNotAttemptingToFill
  simp only
  split_ifs
  · trivial
  · cases hstate : doc.bitcoinState with
    | NoKey => trivial
    | HaveKey key => trivial
    | GettingKey setN pageY uuid =>
        simp only [KeyDocOk, hstate] at hdoc
        exact hdoc

lemma determineBitcoinState_keysSaved (hok : KeysOk sizes st₀ st) {cas : ℕ} {doc : UserAccount}
    (hread : (st (.userAccount s.currentlyLoggedInUsername)).docAt cas = some doc) :
    (s.determineBitcoinState (some (cas, doc))).KeysSaved sizes st₀ st := by
  unfold determineBitcoinState
  simp only
  split
  · trivial
  · split_ifs <;> trivial
  · split_ifs
    · trivial
    · exact checkNotAttemptingToFill_keysSaved hok hread

lemma proceedToBitcoinKeySetNgetting_keysSaved (h : s.RequestSaved st) :
    s.proceedToBitcoinKeySetNgetting.KeysSaved sizes st₀ st := by
  unfold proceedToBitcoinKeySetNgetting
  split_ifs <;> exact h

lemma analyzeCurrentPageDoc_keysSaved (hok : KeysOk sizes st₀ st) (h : s.RequestSaved st) :
    (s.analyzeCurrentPageDoc (st (.bitcoinKeySetCurrentPage s.setN)).get).KeysSaved
      sizes st₀ st := by
  unfold analyzeCurrentPageDoc
  split
  · trivial
  · next cas doc hread =>
      obtain ⟨-, hdoc⟩ := Cell.get_eq_some.1 hread
      cases doc with
      | currentPage pageY => exact proceedToBitcoinKeySetNgetting_keysSaved h
      | fillingNextBitcoinKeySetPage pageY uuid pageZ =>
          exact ⟨h, hok.docs (.bitcoinKeySetCurrentPage s.setN) _ _ hdoc⟩

/-- A place found to be one's own is one's own claim. -/
lemma claimSaved_of_found (hok : KeysOk sizes st₀ st) (h : s.RequestSaved st) {cas pageY : ℕ}
    {page : List KeyPlace} {place : KeyPlace}
    (hpage : (st (.bitcoinKeySetPage s.setN pageY)).docAt cas = some page)
    (hfound : s.analyzePlaces sizes page = .found place) :
    KeyClaimed st place.key s.perGetBitcoinKeyUUID s.currentlyLoggedInUsername := by
  obtain ⟨hmem, howner⟩ := claim_found hfound
  obtain ⟨⟨uuid, username⟩, hclaimed, rfl⟩ := Option.map_eq_some_iff.1 howner
  obtain ⟨i, hi⟩ := List.getElem?_of_mem hmem
  have hrequested := (hok.docs (.bitcoinKeySetPage s.setN pageY) cas page hpage).2 place _ _
    hmem hclaimed
  obtain ⟨rfl, -⟩ := hrequested.unique h
  exact ⟨s.setN, pageY, i, place, ⟨cas, page, hpage, hi, hclaimed⟩, rfl⟩

lemma analyzePageY_keysSaved (hok : KeysOk sizes st₀ st) (h : s.RequestSaved st) {cas : ℕ}
    {page : List KeyPlace}
    (hpage : (st (.bitcoinKeySetPage s.setN s.page)).docAt cas = some page) :
    (s.analyzePageY sizes cas page).KeysSaved sizes st₀ st := by
  unfold analyzePageY
  split
  · next place hfound => exact ⟨h, claimSaved_of_found hok h hpage hfound⟩
  · next place pageY htook => exact ⟨h, page, place, hpage, htook, rfl⟩
  · exact h
  · trivial

lemma gotHugeBitcoinKeyListPage_keysSaved (hok : KeysOk sizes st₀ st) (h : s.FillSaved st) :
    (s.gotHugeBitcoinKeyListPage sizes
      (st (.hugeBitcoinKeyListPage s.startingFromPageZ)).get).KeysSaved sizes st₀ st := by
  unfold gotHugeBitcoinKeyListPage
  split
  · split_ifs
    · exact h
    · trivial
  · next cas page hread =>
      obtain ⟨-, hpage⟩ := Cell.get_eq_some.1 hread
      split
      · next range hfound =>
          obtain ⟨hmem, howner⟩ := claim_found hfound
          obtain ⟨i, hi⟩ := List.getElem?_of_mem hmem
          exact ⟨h, s.startingFromPageZ, i, ⟨cas, page, range, hpage, hi, howner⟩,
            hok.docs (.hugeBitcoinKeyListPage s.startingFromPageZ) cas page hpage i range hi⟩
      · next range pageZ htook => exact ⟨h, page, range, hpage, htook, rfl⟩
      · simp only [request]
        split_ifs <;> exact h
      · trivial

/-! ### The steps -/

lemma perform_keysSaved (hok : KeysOk sizes st₀ st) {setN : ℕ} {uuid : GetKeyUuid}
    (h : s.KeysSaved sizes st₀ st) :
    KeysSaved sizes st₀ (Autobackup.perform st (s.perform sizes setN uuid)).1
      (Autobackup.perform st (s.perform sizes setN uuid)).2 := by
  unfold KeysSaved at h
  unfold AddFunds.perform
  cases hphase : s.phase with
  | idle => simp only [Autobackup.perform, KeysSaved, hphase]
  | threw => simp only [Autobackup.perform, KeysSaved, hphase]
  | determineBitcoinState =>
      simp only [Autobackup.perform]
      cases hread : (st (.userAccount s.currentlyLoggedInUsername)).get with
      | none => trivial
      | some found =>
          exact determineBitcoinState_keysSaved hok (Cell.get_eq_some.1 hread).2
  | getUserAccountForGettingKey =>
      simp only [Autobackup.perform]
      cases hread : (st (.userAccount s.currentlyLoggedInUsername)).get with
      | none => trivial
      | some found =>
          exact checkNotAttemptingToFill_keysSaved hok (Cell.get_eq_some.1 hread).2
  | generateSetAndUuid =>
      simp only
      split_ifs
      · exact perform_add (P := fun r => KeysSaved sizes st₀ r.1 r.2)
          (fun habsent => requested_push habsent _)
          (fun _ => by simp only [KeysSaved, setAndUuidGenerated, hphase])
      · simp only [Autobackup.perform, KeysSaved, hphase]
  | getCurrentPage => rw [hphase] at h; exact analyzeCurrentPageDoc_keysSaved hok h
  | lockIntoGettingKey =>
      rw [hphase] at h
      refine perform_set_any (P := fun r => KeysSaved sizes st₀ r.1 r.2)
        (RequestSaved.mono (Store.le_push _ _ _ _) h) (fun r => ?_)
      cases r with
      | stored cas => exact h
      | keyExists => trivial
      | keyMissing => trivial
  | getPageY =>
      rw [hphase] at h
      simp only [Autobackup.perform, gotPageY]
      split
      · trivial
      · next cas page hread =>
          exact analyzePageY_keysSaved hok h (Cell.get_eq_some.1 hread).2
  | claimKey pageY cas =>
      rw [hphase] at h
      obtain ⟨hrequest, base, place, hbase, htook, hkey⟩ := h
      refine perform_set (P := fun r => KeysSaved sizes st₀ r.1 r.2) (Cell.docAt_bounds hbase).1
        (fun hcas => ?_) (fun r hr => ?_)
      · obtain ⟨i, -, hi⟩ := getElem?_claim_took htook
        exact ⟨hrequest.mono (Store.le_push _ _ _ _), s.setN, s.page, i, _,
          ⟨cas + 1, pageY, Store.docAt_push_next hcas _ _, hi, rfl⟩, hkey.symm⟩
      · cases r with
        | stored cas => exact absurd rfl (hr cas)
        | keyExists => exact hrequest
        | keyMissing => exact hrequest
  | unlockIntoHaveKey =>
      refine perform_set_any (P := fun r => KeysSaved sizes st₀ r.1 r.2) trivial (fun r => ?_)
      cases r <;> trivial
  | getNextPageY =>
      rw [hphase] at h
      simp only [Autobackup.perform, gotNextPageY]
      split
      · exact h
      · next cas page hread =>
          exact analyzePageY_keysSaved hok h (Cell.get_eq_some.1 hread).2
  | getHugeBitcoinKeyListCurrentPage =>
      rw [hphase] at h
      simp only [Autobackup.perform, hugeBitcoinKeyListCurrentPageGetComplete]
      split
      · trivial
      · exact ⟨h, rfl⟩
  | lockCurrentPage =>
      rw [hphase] at h
      refine perform_set_any (P := fun r => KeysSaved sizes st₀ r.1 r.2)
        (FillSaved.mono (Store.le_push _ _ _ _) h) (fun r => ?_)
      cases r with
      | stored cas => exact h
      | keyExists => trivial
      | keyMissing => trivial
  | getHugeBitcoinKeyListPage =>
      rw [hphase] at h
      exact gotHugeBitcoinKeyListPage_keysSaved hok h
  | relockCurrentPage =>
      exact perform_set_any (P := fun r => KeysSaved sizes st₀ r.1 r.2) trivial (fun _ => trivial)
  | claimKeyRange pageZ cas =>
      rw [hphase] at h
      obtain ⟨hfill, base, range, hbase, htook, hkeys⟩ := h
      refine perform_set (P := fun r => KeysSaved sizes st₀ r.1 r.2) (Cell.docAt_bounds hbase).1
        (fun hcas => ?_) (fun r hr => ?_)
      · obtain ⟨i, hrange, hi⟩ := getElem?_claim_took htook
        exact ⟨hfill.mono (Store.le_push _ _ _ _), s.startingFromPageZ, i,
          ⟨cas + 1, pageZ, _, Store.docAt_push_next hcas _ _, hi, rfl⟩, hkeys.trans
            (hok.docs (.hugeBitcoinKeyListPage s.startingFromPageZ) cas base hbase i range hrange)⟩
      · cases r with
        | stored cas => exact absurd rfl (hr cas)
        | keyExists => exact hfill
        | keyMissing => exact hfill
  | changeHugeBitcoinKeyListCurrentPage =>
      rw [hphase] at h
      exact perform_set_any (P := fun r => KeysSaved sizes st₀ r.1 r.2)
        (FillSaved.mono (Store.le_push _ _ _ _) h) (fun _ => h)
  | createPageY =>
      rw [hphase] at h
      exact perform_add (P := fun r => KeysSaved sizes st₀ r.1 r.2)
        (fun _ => RequestSaved.mono (Store.le_push _ _ _ _) h.1.1) (fun _ => h.1.1)
  | unlockCurrentPage =>
      rw [hphase] at h
      refine perform_set_any (P := fun r => KeysSaved sizes st₀ r.1 r.2)
        (proceedToBitcoinKeySetNgetting_keysSaved (RequestSaved.mono (Store.le_push _ _ _ _) h))
        (fun r => ?_)
      cases r with
      | stored cas => exact proceedToBitcoinKeySetNgetting_keysSaved h
      | keyExists => exact h
      | keyMissing => exact h
  | getUserAccountForCredit =>
      simp only [Autobackup.perform, creditAfterAnalyzingUserAccount]
      split
      · trivial
      · split_ifs <;> trivial
  | creditConfirmedBitcoinAmount doc cas =>
      refine perform_set_any (P := fun r => KeysSaved sizes st₀ r.1 r.2) trivial (fun r => ?_)
      cases r <;> trivial

lemma act_keysSaved (hok : KeysOk sizes st₀ st) {x : AddFundsInput}
    (h : s.KeysSaved sizes st₀ st) :
    KeysSaved sizes st₀ (Autobackup.perform st (s.act sizes x)).1
      (Autobackup.perform st (s.act sizes x)).2 := by
  cases x with
  | proceed setN uuid => exact perform_keysSaved hok h
  | populateAndInitialize =>
      simp only [act]
      split_ifs
      · trivial
      · exact h
  | handleGetBitcoinKeyButtonClicked =>
      simp only [act]
      split_ifs
      · trivial
      · exact h
  | confirmedBitcoinBalance balance =>
      simp only [act]
      split_ifs with hidle
      · simp only [Autobackup.perform, KeysSaved, hidle.1]
      · exact h
  | doneSendingBitcoinsToCurrentAddressButtonClicked =>
      simp only [act]
      split_ifs with hidle
      · simp only [Autobackup.perform, doneSendingBitcoinsToCurrentAddressButtonClicked]
        split_ifs
        · exact h
        · trivial
      · exact h

/-! ### The writes -/

/-- A page with one place taken for the tab's request. -/
lemma keyDocOk_of_took (hok : KeysOk sizes st₀ st) (h : s.RequestSaved st) {cas pageY : ℕ}
    {base page : List KeyPlace} {place : KeyPlace}
    (hbase : (st (.bitcoinKeySetPage s.setN pageY)).docAt cas = some base)
    (htook : s.analyzePlaces sizes base = .took place page) :
    KeyDocOk st₀ st (.bitcoinKeySetPage s.setN pageY) page := by
  obtain ⟨⟨source, hbecomes, hkeys⟩, hclaims⟩ :=
    hok.docs (.bitcoinKeySetPage s.setN pageY) cas base hbase
  have htakes : TakesPlace sizes base page :=
    ⟨(s.perGetBitcoinKeyUUID, s.currentlyLoggedInUsername), place, htook⟩
  refine ⟨⟨source, hbecomes, ?_⟩, fun b uuid u hmem hclaimed => ?_⟩
  · rw [htakes.keys, hkeys]
  · rcases mem_of_claim_took htook hmem with hold | rfl
    · exact hclaims b uuid u hold hclaimed
    · obtain ⟨rfl, rfl⟩ := Prod.mk.inj (Option.some.inj hclaimed)
      exact h

/-- What a tab writes, in any phase, is as the rules for keys demand. -/
lemma perform_writesKeepKeys (hok : KeysOk sizes st₀ st) (hsaved : s.Saved st)
    (h : s.KeysSaved sizes st₀ st) {setN : ℕ} {uuid : GetKeyUuid} :
    WritesKeep (KeyDocOk st₀) (KeyVersionOk sizes) st (s.perform sizes setN uuid) := by
  unfold KeysSaved at h
  unfold AddFunds.perform
  cases hphase : s.phase with
  | generateSetAndUuid =>
      simp only
      split_ifs
      · exact fun _ => trivial
      · trivial
  | lockIntoGettingKey =>
      rw [hphase] at h
      exact fun _ => ⟨h, fun _ _ => trivial⟩
  | claimKey pageY cas =>
      rw [hphase] at h
      obtain ⟨hrequest, base, place, hbase, htook, -⟩ := h
      intro hcas
      have hpos := (Cell.docAt_bounds hbase).1
      obtain rfl := hcas.resolve_left (by omega)
      refine ⟨keyDocOk_of_took hok hrequest hbase htook, fun e he => ?_⟩
      obtain rfl : base = e := Option.some.inj (hbase.symm.trans he)
      exact ⟨(s.perGetBitcoinKeyUUID, s.currentlyLoggedInUsername), place, htook⟩
  | unlockIntoHaveKey =>
      rw [hphase] at h
      exact fun _ => ⟨⟨_, h.2⟩, fun _ _ => trivial⟩
  | lockCurrentPage =>
      rw [hphase] at h
      exact fun _ => ⟨h.2, fun _ _ => trivial⟩
  | relockCurrentPage =>
      rw [hphase] at h
      exact fun _ => ⟨h.2, fun _ _ => trivial⟩
  | claimKeyRange pageZ cas =>
      rw [hphase] at h
      obtain ⟨-, base, range, hbase, htook, -⟩ := h
      intro hcas
      have hpos := (Cell.docAt_bounds hbase).1
      obtain rfl := hcas.resolve_left (by omega)
      have htakes : TakesRange sizes base pageZ := ⟨s.perFillUuid, range, htook⟩
      refine ⟨fun i r hr => ?_, fun e he => ?_⟩
      · have hi : (base.map KeyRange.keys)[i]? = some r.keys := by
          rw [← htakes.keys, List.getElem?_map, hr]
          rfl
        rw [List.getElem?_map, Option.map_eq_some_iff] at hi
        obtain ⟨r', hr', hsame⟩ := hi
        rw [← hsame]
        exact hok.docs (.hugeBitcoinKeyListPage s.startingFromPageZ) _ base hbase i r' hr'
      · obtain rfl : base = e := Option.some.inj (hbase.symm.trans he)
        exact htakes
  | changeHugeBitcoinKeyListCurrentPage => exact fun _ => ⟨trivial, fun _ _ => trivial⟩
  | createPageY =>
      rw [hphase] at h
      obtain ⟨⟨-, hfill⟩, pageZ, i, hclaimed, hkeys⟩ := h
      rw [hfill] at hclaimed
      refine fun _ => ⟨⟨.range pageZ i, hclaimed, ?_⟩, fun place uuid u hmem hplace => ?_⟩
      · rw [← hkeys, newPageY, List.map_map]
        exact List.map_id _
      · obtain ⟨key, -, rfl⟩ := List.mem_map.1 hmem
        cases hplace
  | unlockCurrentPage => exact fun _ => ⟨trivial, fun _ _ => trivial⟩
  | creditConfirmedBitcoinAmount doc cas =>
      unfold Saved at hsaved
      rw [hphase] at hsaved
      obtain ⟨base, -, -, -, hdoc⟩ := hsaved
      refine fun _ => ⟨?_, fun _ _ => trivial⟩
      rw [hdoc]
      trivial
  | _ => trivial

lemma act_writesKeepKeys (hok : KeysOk sizes st₀ st) (hsaved : s.Saved st)
    (h : s.KeysSaved sizes st₀ st) {x : AddFundsInput} :
    WritesKeep (KeyDocOk st₀) (KeyVersionOk sizes) st (s.act sizes x) := by
  cases x with
  | proceed setN uuid => exact perform_writesKeepKeys hok hsaved h
  | populateAndInitialize => simp only [act]; split_ifs <;> trivial
  | handleGetBitcoinKeyButtonClicked => simp only [act]; split_ifs <;> trivial
  | confirmedBitcoinBalance balance => simp only [act]; split_ifs <;> trivial
  | doneSendingBitcoinsToCurrentAddressButtonClicked => simp only [act]; split_ifs <;> trivial

end AddFunds

/-! ## All programs together -/

namespace Process

/-- What a process knows about keys. -/
def KeysSaved (sizes : KeySetSizes) (st₀ st : Db) : Process → Prop
  | addFunds a => a.KeysSaved sizes st₀ st
  | _ => True

variable {sizes : KeySetSizes} {st₀ st st' : Db} {p : Process}

lemma KeysSaved.mono (hst : st ≤ st') (h : p.KeysSaved sizes st₀ st) :
    p.KeysSaved sizes st₀ st' := by
  cases p with
  | addFunds a => exact AddFunds.KeysSaved.mono hst h
  | _ => trivial

lemma Initial.keysSaved (h : p.Initial) : p.KeysSaved sizes st₀ st := by
  cases h <;> trivial

/-- A process that is no add-funds tab leaves keys alone. -/
lemma act_leavesKeysAlone (x : ProcessInput) (h : ∀ a, p ≠ addFunds a) :
    LeavesKeysAlone (p.act sizes x) := by
  cases p with
  | session s =>
      cases x with
      | session y => exact leavesKeysAlone_map _ (s.act_leavesKeysAlone y)
      | _ => trivial
  | recoverer r =>
      cases x with
      | run => exact leavesKeysAlone_map _ r.act_leavesKeysAlone
      | _ => trivial
  | creditor c =>
      cases x with
      | run => exact leavesKeysAlone_map _ c.act_leavesKeysAlone
      | _ => trivial
  | addFunds a => exact absurd rfl (h a)

lemma act_keysSaved (hok : KeysOk sizes st₀ st) {x : ProcessInput}
    (h : p.KeysSaved sizes st₀ st) :
    KeysSaved sizes st₀ (perform st (p.act sizes x)).1 (perform st (p.act sizes x)).2 := by
  refine perform_act (P := fun r => KeysSaved sizes st₀ r.1 r.2) ?_ ?_ ?_ ?_ h
  · exact fun _ _ _ => trivial
  · exact fun _ _ => trivial
  · exact fun _ _ => trivial
  · rintro a y rfl
    exact AddFunds.act_keysSaved hok h

/-- Rules about keys are kept by every process, once the add-funds tabs keep them. -/
lemma act_writesKeep {Q : DocRule Note Doc} {R : VersionRule Note Doc} {x : ProcessInput}
    (hothers : ∀ k d, ¬ k.OfKeys → (∀ u, k ≠ .userAccount u) → Q st k d ∧ ∀ e, R st k e d)
    (haccount : ∀ u (d e : UserAccount), e.bitcoinState = d.bitcoinState →
      Q st (.userAccount u) d → Q st (.userAccount u) e ∧ R st (.userAccount u) d e)
    (hkeeps : Keeps Q R st) (haccounts : AccountsOk st) (hsaved : p.Saved st)
    (haddFunds : ∀ a y, p = addFunds a → WritesKeep Q R st (a.act sizes y)) :
    WritesKeep Q R st (p.act sizes x) := by
  by_cases hp : ∃ a, p = addFunds a
  · obtain ⟨a, rfl⟩ := hp
    cases x with
    | addFunds y => exact writesKeep_map _ (haddFunds a y rfl)
    | _ => trivial
  · exact writesKeep_of_leavesKeysAlone hothers haccount hkeeps
      (act_accountWritesOk haccounts hsaved) (act_leavesKeysAlone x fun a ha => hp ⟨a, ha⟩)

lemma act_writesKeepKeys (hok : KeysOk sizes st₀ st) (haccounts : AccountsOk st)
    (hsaved : p.Saved st) (h : p.KeysSaved sizes st₀ st) {x : ProcessInput} :
    WritesKeep (KeyDocOk st₀) (KeyVersionOk sizes) st (p.act sizes x) := by
  refine act_writesKeep (fun k d hk hu => ?_) (fun u d e hsame hd => ⟨?_, trivial⟩) hok haccounts
    hsaved ?_
  · cases k with
    | userAccount u => exact absurd rfl (hu u)
    | bitcoinKeySetCurrentPage setN => exact absurd trivial hk
    | bitcoinKeySetPage setN pageY => exact absurd trivial hk
    | hugeBitcoinKeyListPage pageZ => exact absurd trivial hk
    | _ => exact ⟨trivial, fun _ => trivial⟩
  · simp only [KeyDocOk, hsame] at hd ⊢
    exact hd
  · rintro a y rfl
    exact AddFunds.act_writesKeepKeys hok hsaved h

end Process

/-! ## Every run -/

section Runs

variable {ι : Type} [DecidableEq ι] {sizes : KeySetSizes} {ok : Db → Process → ProcessInput → Prop}
  {w₀ w : System ι}

/-- What is known of keys in a system: all accounts, key documents and processes are in order. -/
structure KeysInvariant (sizes : KeySetSizes) (st₀ st : Db) : Prop where
  accounts : AccountsOk st
  keys : KeysOk sizes st₀ st

/-- Run lemma: the rules for keys hold, and every process knows what it has to, in every reachable
state. -/
lemma keys_of_reaches (hstart : KeysStart w₀.store) (hprocesses : ∀ i, (w₀.client i).Initial)
    (hreach : Reaches (Process.act sizes) ok w₀ w) :
    KeysInvariant sizes w₀.store w.store ∧
      ∀ i, (w.client i).Saved w.store ∧ (w.client i).KeysSaved sizes w₀.store w.store := by
  refine hreach.threadModular (I := KeysInvariant sizes w₀.store)
    (L := fun st p => p.Saved st ∧ p.KeysSaved sizes w₀.store st)
    (fun _ _ _ hst _ h => ⟨h.1.mono hst, h.2.mono hst⟩)
    (fun st p x _ hok h => ⟨⟨?_, ?_⟩, p.act_saved h.1, p.act_keysSaved hok.keys h.2⟩)
    ⟨hstart.accounts.ok, hstart.ok sizes⟩
    (fun i => ⟨(hprocesses i).saved _, (hprocesses i).keysSaved⟩)
  · exact hok.accounts.perform (p.act_accountWritesOk hok.accounts h.1)
  · exact hok.keys.perform keyRules_growsWith (p.act_writesKeepKeys hok.keys hok.accounts h.1 h.2)

end Runs

end Autobackup.Abc2
