import Autobackup.Abc2.SavedPurchases
import Autobackup.Abc2.DebitedOnce

/-!
# The campaign document and the last slot it names

A campaign document names the last slot sold.  The session that filled a slot writes it there,
and so does the recoverer, both over a version of the document they saved before.  What they
write is always true of the slot they name.  It is not always newer than what it replaces: a buy
event replaces the document and the CAS a session has saved, even in the middle of a purchase,
while the index it is about to write was fixed when the user clicked.

`Process.NotOvertaken` is the condition that this has not happened at the moment a session
composes its update.  With it the campaign document never goes back in time
(`campaign_never_goes_back`); without it, it does (`campaign_goes_back`).

The condition is not on the order of the steps but on the version that a session holds when it
composes its update.  All interleavings in which no buy event of a later slot reaches a session in
the middle of a purchase meet it, and a session may be stopped at any point.  The recoverer needs no
condition, since no event replaces the document it has read, and so its CAS tells.
-/

namespace Autobackup.Abc2

/-! ## The store invariant -/

/-- If a slot is named before, then one that is not older is named after. -/
def CampaignDoc.NotAfter (before after : CampaignDoc) : Prop :=
  ∀ last, before.lastSlotFilledAkaPurchased = some last →
    ∃ last', after.lastSlotFilledAkaPurchased = some last' ∧ last.slotIndex ≤ last'.slotIndex

/-- What the document names is a filled slot, and it is told as it is. -/
def CampaignDoc.Describes (st : Db) (k : CampaignKey) (doc : CampaignDoc) : Prop :=
  ∀ last, doc.lastSlotFilledAkaPurchased = some last →
    ∃ slotDoc, FilledWith st ⟨k, last.slotIndex⟩ slotDoc ∧
      last = slotDoc.asLastSlotFilled last.slotIndex

structure CampaignsOk (st : Db) : Prop where
  describes : ∀ k c doc, (st (.adSpaceCampaign k)).docAt c = some doc → doc.Describes st k
  history : ∀ k, (st (.adSpaceCampaign k)).Chain fun before _ after => before.NotAfter after

/-- An update of a campaign document over the version with CAS `cas`: it names a filled slot, and
if that version is still the current one then not an older slot than it. -/
def CampaignUpdateOk (st : Db) (k : CampaignKey) (doc : CampaignDoc) (cas : ℕ) : Prop :=
  ∃ base slotIndex slotDoc, (st (.adSpaceCampaign k)).docAt cas = some base ∧
    FilledWith st ⟨k, slotIndex⟩ slotDoc ∧
    doc.lastSlotFilledAkaPurchased = some (slotDoc.asLastSlotFilled slotIndex) ∧
    (cas < (st (.adSpaceCampaign k)).cas ∨
      ∀ last, base.lastSlotFilledAkaPurchased = some last → last.slotIndex ≤ slotIndex)

def CampaignWritesOk {σ : Type} (st : Db) : DbAction σ → Prop
  | .set (.adSpaceCampaign k) _ doc cas _ => CampaignUpdateOk st k doc cas
  | .add (.adSpaceCampaign _) _ _ _ => False
  | _ => True

section Mono

variable {st st' : Db} {k : CampaignKey} {doc : CampaignDoc} {cas : ℕ}

lemma CampaignDoc.Describes.mono (hst : st ≤ st') (h : doc.Describes st k) :
    doc.Describes st' k := by
  intro last hlast
  obtain ⟨slotDoc, hfilled, hdescribes⟩ := h last hlast
  exact ⟨slotDoc, hfilled.mono hst, hdescribes⟩

lemma CampaignUpdateOk.mono (hst : st ≤ st') (h : CampaignUpdateOk st k doc cas) :
    CampaignUpdateOk st' k doc cas := by
  obtain ⟨base, slotIndex, slotDoc, hbase, hfilled, hdoc, hnewer⟩ := h
  refine ⟨base, slotIndex, slotDoc, Cell.docAt_mono (hst _) hbase, hfilled.mono hst, hdoc, ?_⟩
  exact hnewer.imp_left fun hlt => Nat.lt_of_lt_of_le hlt (Cell.cas_mono (hst _))

end Mono

namespace CampaignsOk

variable {st : Db}

lemma of_same (h : CampaignsOk st) {st' : Db} (hst : st ≤ st')
    (hsame : ∀ k, st' (.adSpaceCampaign k) = st (.adSpaceCampaign k)) : CampaignsOk st' where
  describes k c doc hdoc := by
    rw [hsame] at hdoc
    exact (h.describes k c doc hdoc).mono hst
  history k := by rw [hsame]; exact h.history k

lemma push_campaign (h : CampaignsOk st) {k : CampaignKey} {note : Note} {doc : CampaignDoc}
    (hupdate : CampaignUpdateOk st k doc (st (.adSpaceCampaign k)).cas) :
    CampaignsOk (st.push (.adSpaceCampaign k) note doc) := by
  have hst : st ≤ st.push (.adSpaceCampaign k) note doc := Store.le_push _ _ _ _
  obtain ⟨base, slotIndex, slotDoc, hbase, hfilled, hdoc, hnewer⟩ := hupdate
  have hnotAfter : base.NotAfter doc := fun last hlast =>
    ⟨_, hdoc, hnewer.resolve_left (Nat.lt_irrefl _) last hlast⟩
  constructor
  · intro k' c d hd
    by_cases hk : k' = k
    · subst hk
      rw [Store.push_self, Cell.docAt_push] at hd
      split at hd
      · obtain rfl := Option.some.inj hd
        intro last hlast
        obtain rfl := Option.some.inj (hdoc.symm.trans hlast)
        exact ⟨slotDoc, hfilled.mono hst, rfl⟩
      · exact (h.describes k' c d hd).mono hst
    · rw [Store.push_of_ne st (fun he => hk (Key.adSpaceCampaign.inj he))] at hd
      exact (h.describes k' c d hd).mono hst
  · intro k'
    by_cases hk : k' = k
    · subst hk
      rw [Store.push_self]
      refine (h.history k').push fun e he => ?_
      obtain rfl := Option.some.inj (he.symm.trans hbase)
      exact hnotAfter
    · rw [Store.push_of_ne st (fun he => hk (Key.adSpaceCampaign.inj he))]
      exact h.history k'

/-- Step lemma. -/
lemma perform {σ : Type} {a : DbAction σ} (h : CampaignsOk st) (ha : CampaignWritesOk st a) :
    CampaignsOk (perform st a).1 := by
  by_cases hsame : ∀ k, (Autobackup.perform st a).1 (.adSpaceCampaign k) = st (.adSpaceCampaign k)
  · exact h.of_same (le_perform _ _) hsame
  · obtain ⟨k, hk⟩ := not_forall.1 hsame
    rcases perform_ne hk with ⟨n, d, resume, rfl, -, -⟩ | ⟨n, d, c, resume, rfl, hc, hst⟩
    · exact ha.elim
    · have hcas : c = (st (.adSpaceCampaign k)).cas := by
        obtain ⟨base, -, -, hbase, -⟩ := ha
        have := Cell.docAt_bounds hbase
        omega
      subst hcas
      rw [hst]
      exact h.push_campaign ha

end CampaignsOk

/-! ## What a session knows about its campaign -/

/-- From the moment the page is shown, a session has a version of its campaign's document. -/
def SessionMembers.SeesCampaign (m : SessionMembers) (st : Db) : Prop :=
  (m.buySlotFillerStep1Button = true →
    (st (.adSpaceCampaign m.campaign)).docAt m.campaignCas = some m.campaignJsonDoc) ∧
  (m.buyStep2placeholder ≠ none → m.buySlotFillerStep1Button = true)

/-- The campaign facts of a session. -/
def Session.KnowsCampaign (st : Db) (s : Session) : Prop :=
  let m := s.members
  let shown := m.buySlotFillerStep1Button = true
  let ownCampaign := m.adSlotAboutToBeFilledIfLockIsSuccessful.campaign = m.campaign
  m.SeesCampaign st ∧
  match s.phase with
  | .issued .campaignDocForNoJs | .issued .allSlotFillers | .answered (.allSlotFillers _)
  | .issued .verifyBalance | .answered (.verifyBalance _) => shown
  | .issued .ensureSlotDoesntExist | .answered (.ensureSlotDoesntExist _)
  | .issued (.lockAccountForBuying _ _) | .answered (.lockAccountForBuying _)
  | .issued (.fillSlot _) | .answered (.fillSlot _) | .issued (.createTransaction _)
  | .answered .createTransaction | .issued (.unlockAccountDebitting _ _)
  | .answered .unlockAccountDebitting => shown ∧ ownCampaign
  | .issued (.updateCampaignDoc doc cas) => CampaignUpdateOk st m.campaign doc cas
  | _ => True

/-- No buy event has handed the session a campaign document that names a later slot than the one
it has bought, by the time it composes its update of that document; or if one has, that document
is itself replaced by now, so that the update will be refused. -/
def Process.NotOvertaken (st : Db) : Process → ProcessInput → Prop
  | .session ⟨m, .answered .unlockAccountDebitting⟩, .session (.proceed _) =>
      (st (.adSpaceCampaign m.campaign)).cas = m.campaignCas →
      ∀ last, m.campaignJsonDoc.lastSlotFilledAkaPurchased = some last →
        last.slotIndex ≤ m.adSlotAboutToBeFilledIfLockIsSuccessful.slotIndex
  | _, _ => True

section Sessions

variable {st st' : Db} {m : SessionMembers}

lemma SessionMembers.SeesCampaign.mono (hst : st ≤ st') (h : m.SeesCampaign st) :
    m.SeesCampaign st' :=
  ⟨fun hshown => Cell.docAt_mono (hst _) (h.1 hshown), h.2⟩

lemma SessionMembers.SeesCampaign.rollBack (h : m.SeesCampaign st) :
    m.rollBackToBeforeBuyStep1ifNeeded.SeesCampaign st :=
  ⟨h.1, fun hne => absurd rfl hne⟩

lemma Session.KnowsCampaign.mono {s : Session} (hst : st ≤ st') (h : s.KnowsCampaign st) :
    s.KnowsCampaign st' := by
  refine ⟨h.1.mono hst, ?_⟩
  obtain ⟨m, phase⟩ := s
  have hphase := h.2
  cases phase with
  | issued request =>
      cases request with
      | updateCampaignDoc doc cas => exact CampaignUpdateOk.mono hst hphase
      | _ => exact hphase
  | answered reply => cases reply <;> exact hphase
  | _ => exact hphase

/-! ### Callbacks -/

lemma buySlotPopulateStep2_knowsCampaign {r : Option (ℕ × AllSlotFillersDoc)}
    (h : Session.KnowsCampaign st ⟨m, .answered (.allSlotFillers r)⟩) :
    (m.buySlotPopulateStep2 r).KnowsCampaign st := by
  obtain ⟨hsees, hshown⟩ := h
  unfold SessionMembers.buySlotPopulateStep2
  split
  · exact ⟨hsees, trivial⟩
  · split
    · exact ⟨hsees, trivial⟩
    · exact ⟨⟨hsees.1, fun _ => hshown⟩, trivial⟩

lemma buySlotStep1ButtonClicked_knowsCampaign (h : m.SeesCampaign st) :
    m.buySlotStep1ButtonClicked.KnowsCampaign st := by
  unfold SessionMembers.buySlotStep1ButtonClicked
  split_ifs with hbutton hlogin
  · exact ⟨h, trivial⟩
  · exact ⟨h, trivial⟩
  · have hshown : m.buySlotFillerStep1Button = true := by simpa using hbutton
    simp only
    split_ifs
    · exact ⟨h, hshown⟩
    · exact ⟨h, hshown⟩

lemma buySlotStep2ButtonClicked_knowsCampaign {currentIndex : ℤ} (h : m.SeesCampaign st) :
    (m.buySlotStep2ButtonClicked currentIndex).KnowsCampaign st := by
  unfold SessionMembers.buySlotStep2ButtonClicked
  split
  · exact ⟨h, trivial⟩
  · next box hbox =>
      split_ifs
      · exact ⟨h.rollBack, trivial⟩
      · exact ⟨h.rollBack, trivial⟩
      · exact ⟨h.rollBack, trivial⟩
      · exact ⟨h, trivial⟩
      · exact ⟨h, h.2 (by rw [hbox]; simp)⟩

lemma verifyUserHasSufficientFunds_knowsCampaign {r : Option (ℕ × UserAccount)}
    (h : Session.KnowsCampaign st ⟨m, .answered (.verifyBalance r)⟩) :
    (m.verifyUserHasSufficientFunds r).KnowsCampaign st := by
  obtain ⟨hsees, hshown⟩ := h
  unfold SessionMembers.verifyUserHasSufficientFunds
  split
  · exact ⟨hsees.rollBack, trivial⟩
  · simp only
    split_ifs
    · exact ⟨hsees.rollBack, trivial⟩
    · exact ⟨hsees, trivial⟩
    · exact ⟨hsees, trivial⟩
    · exact ⟨hsees, hshown, rfl⟩
    · split
      · exact ⟨hsees, trivial⟩
      · exact ⟨hsees, hshown, rfl⟩

lemma ensureSlotDoesntExist_knowsCampaign {r : Option (ℕ × SlotDoc)} {now : ℚ}
    (h : Session.KnowsCampaign st ⟨m, .answered (.ensureSlotDoesntExist r)⟩) :
    (m.ensureSlotDoesntExist r now).KnowsCampaign st := by
  obtain ⟨hsees, hbuying⟩ := h
  unfold SessionMembers.ensureSlotDoesntExist
  split
  · exact ⟨hsees, trivial⟩
  · simp only
    split_ifs
    · exact ⟨hsees, trivial⟩
    · exact ⟨hsees, hbuying⟩
    · exact ⟨hsees, trivial⟩

lemma loginIfInputHashedEqualsDbInfo_knowsCampaign {username : Username}
    {hash : String → String} {r : Option (ℕ × UserAccount)} (h : m.SeesCampaign st) :
    (m.loginIfInputHashedEqualsDbInfo username hash r).KnowsCampaign st := by
  unfold SessionMembers.loginIfInputHashedEqualsDbInfo
  split
  · exact ⟨h, trivial⟩
  · split_ifs
    · split
      · exact ⟨h, trivial⟩
      · split
        · exact ⟨h, trivial⟩
        · exact ⟨h, trivial⟩
    · exact ⟨h, trivial⟩

/-- The update is composed from the saved document and the slot bought; here the condition is
needed. -/
lemma doneUnlockingUserAccount_knowsCampaign {now : ℚ}
    (hslot : Session.KnowsSlot st ⟨m, .answered .unlockAccountDebitting⟩)
    (hnew : Process.NotOvertaken st (.session ⟨m, .answered .unlockAccountDebitting⟩)
      (.session (.proceed now)))
    (h : Session.KnowsCampaign st ⟨m, .answered .unlockAccountDebitting⟩) :
    m.doneUnlockingUserAccount.KnowsCampaign st := by
  obtain ⟨hsees, hshown, hown⟩ := h
  have hbase := hsees.1 hshown
  refine ⟨hsees, m.campaignJsonDoc, m.adSlotAboutToBeFilledIfLockIsSuccessful.slotIndex,
    m.ownSlotDoc, hbase, ?_, rfl, ?_⟩
  · have hfilled : FilledWith st m.adSlotAboutToBeFilledIfLockIsSuccessful m.ownSlotDoc := hslot
    have hcampaign : m.adSlotAboutToBeFilledIfLockIsSuccessful.campaign = m.campaign := hown
    change FilledWith st ⟨m.campaign, _⟩ m.ownSlotDoc
    rwa [← hcampaign]
  · rcases Nat.lt_or_ge m.campaignCas (st (.adSpaceCampaign m.campaign)).cas with hlt | hge
    · exact .inl hlt
    · have hb := Cell.docAt_bounds hbase
      exact .inr (hnew (Nat.le_antisymm hge hb.2))

lemma callback_knowsCampaign {now : ℚ} {reply : SessionReply}
    (hslot : Session.KnowsSlot st ⟨m, .answered reply⟩)
    (hnew : Process.NotOvertaken st (.session ⟨m, .answered reply⟩) (.session (.proceed now)))
    (h : Session.KnowsCampaign st ⟨m, .answered reply⟩) :
    (m.callback now reply).KnowsCampaign st := by
  cases reply with
  | loginAttempt username hash r => exact loginIfInputHashedEqualsDbInfo_knowsCampaign h.1
  | allSlotFillers r => exact buySlotPopulateStep2_knowsCampaign h
  | verifyBalance r => exact verifyUserHasSufficientFunds_knowsCampaign h
  | ensureSlotDoesntExist r => exact ensureSlotDoesntExist_knowsCampaign h
  | lockAccountForBuying r =>
      cases r with
      | stored cas => exact h
      | keyExists => exact ⟨h.1.rollBack, trivial⟩
      | keyMissing => exact ⟨h.1.rollBack, trivial⟩
  | fillSlot r =>
      cases r with
      | stored cas => exact h
      | keyExists => exact ⟨h.1.rollBack, trivial⟩
      | keyMissing => exact ⟨h.1.rollBack, trivial⟩
  | createTransaction => exact h
  | unlockAccountDebitting => exact doneUnlockingUserAccount_knowsCampaign hslot hnew h
  | updateCampaignDoc => exact ⟨h.1, trivial⟩
  | doesSlotExistCheck slot r =>
      simp only [SessionMembers.callback, SessionMembers.continueRecoveringLockedAccount]
      split
      · exact ⟨h.1, trivial⟩
      · split
        · exact ⟨h.1, trivial⟩
        · exact ⟨h.1, trivial⟩
  | unlockWithoutDebitting r =>
      simp only [SessionMembers.callback, SessionMembers.doneAttemptingUserAccountUnlocking]
      split
      · split
        · exact ⟨h.1, trivial⟩
        · exact ⟨h.1, trivial⟩
      · exact ⟨h.1, trivial⟩

/-! ### Steps -/

/-- What a request tells about the campaign is nothing: the facts carry over. -/
lemma perform_knowsCampaign {request : SessionRequest}
    (h : Session.KnowsCampaign st ⟨m, .issued request⟩) :
    Session.KnowsCampaign (perform st (m.perform request)).1
      (perform st (m.perform request)).2 := by
  have hst := le_perform st (m.perform request)
  cases request with
  | loginAttempt username hash => exact ⟨h.1, trivial⟩
  | campaignDocForNoJs => exact h
  | allSlotFillers => exact h
  | verifyBalance => exact h
  | ensureSlotDoesntExist => exact h
  | lockAccountForBuying doc cas =>
      exact perform_set_any (P := fun r => Session.KnowsCampaign r.1 r.2)
        ⟨h.1.mono (Store.le_push _ _ _ _), h.2⟩ (fun _ => h)
  | fillSlot doc =>
      exact perform_add (P := fun r => Session.KnowsCampaign r.1 r.2)
        (fun _ => ⟨h.1.mono (Store.le_push _ _ _ _), h.2⟩) (fun _ => h)
  | createTransaction doc =>
      exact perform_add (P := fun r => Session.KnowsCampaign r.1 r.2)
        (fun _ => ⟨h.1.mono (Store.le_push _ _ _ _), h.2⟩) (fun _ => h)
  | unlockAccountDebitting doc cas =>
      exact perform_set_any (P := fun r => Session.KnowsCampaign r.1 r.2)
        ⟨h.1.mono (Store.le_push _ _ _ _), h.2⟩ (fun _ => h)
  | updateCampaignDoc doc cas =>
      exact perform_set_any (P := fun r => Session.KnowsCampaign r.1 r.2)
        ⟨h.1.mono (Store.le_push _ _ _ _), trivial⟩ (fun _ => ⟨h.1, trivial⟩)
  | doesSlotExistCheck slot => exact ⟨h.1, trivial⟩
  | unlockWithoutDebitting slot doc cas =>
      exact perform_set_any (P := fun r => Session.KnowsCampaign r.1 r.2)
        ⟨h.1.mono (Store.le_push _ _ _ _), trivial⟩ (fun _ => ⟨h.1, trivial⟩)

/-- A buy event hands over a version of the campaign document. -/
lemma receiveCampaignDoc_knowsCampaign {s : Session} {cas : ℕ} (h : s.KnowsCampaign st) :
    (s.receiveCampaignDoc (((st (.adSpaceCampaign s.members.campaign)).docAt cas).map
      fun d => (cas, d))).KnowsCampaign st := by
  unfold Session.receiveCampaignDoc
  split
  · exact h
  · next found hfound =>
      obtain ⟨doc, hdoc, he⟩ := Option.map_eq_some_iff.1 hfound
      obtain ⟨rfl, rfl⟩ := Prod.mk.inj he
      have hsees : (s.members.finishShowing doc cas).SeesCampaign st :=
        ⟨fun _ => hdoc, fun hne => absurd rfl hne⟩
      split_ifs
      · exact h
      · obtain ⟨m, phase⟩ := s
        obtain ⟨hold, hphase⟩ := h
        split
        · next hwaiting =>
            dsimp only at hwaiting
            subst hwaiting
            exact ⟨⟨fun _ => hdoc, hold.2⟩, hphase⟩
        · exact ⟨hold, hphase⟩
        · refine ⟨hsees, ?_⟩
          cases phase with
          | issued request =>
              cases request <;> first | exact hphase | exact rfl | exact ⟨rfl, hphase.2⟩
          | answered reply =>
              cases reply <;> first | exact hphase | exact rfl | exact ⟨rfl, hphase.2⟩
          | _ => trivial

lemma Session.act_knowsCampaign {s : Session} {x : SessionInput} (hslot : s.KnowsSlot st)
    (hnew : Process.NotOvertaken st (.session s) (.session x)) (h : s.KnowsCampaign st) :
    Session.KnowsCampaign (perform st (s.act x)).1 (perform st (s.act x)).2 := by
  obtain ⟨m, phase⟩ := s
  cases x with
  | campaignUpdate cas => exact receiveCampaignDoc_knowsCampaign h
  | proceed now =>
      cases phase with
      | issued request => exact perform_knowsCampaign h
      | answered reply => exact callback_knowsCampaign hslot hnew h
      | idle => exact h
      | threw => exact h
  | handleLoginButtonClicked username hash =>
      cases phase with
      | idle => exact ⟨h.1, trivial⟩
      | _ => exact h
  | handleLogoutButtonClicked =>
      cases phase with
      | idle =>
          simp only [Session.act, perform, SessionMembers.handleLogoutButtonClicked]
          split
          · exact h
          · exact ⟨⟨h.1.1, fun hne => absurd rfl hne⟩, trivial⟩
      | _ => exact h
  | buySlotStep1ButtonClicked =>
      cases phase with
      | idle => exact buySlotStep1ButtonClicked_knowsCampaign h.1
      | _ => exact h
  | buySlotStep2ButtonClicked currentIndex =>
      cases phase with
      | idle => exact buySlotStep2ButtonClicked_knowsCampaign h.1
      | _ => exact h

lemma Session.act_campaignWritesOk {s : Session} {x : SessionInput} (h : s.KnowsCampaign st) :
    CampaignWritesOk st (s.act x) := by
  obtain ⟨m, phase⟩ := s
  cases x with
  | campaignUpdate cas => trivial
  | proceed now =>
      cases phase with
      | issued request =>
          cases request with
          | updateCampaignDoc doc cas => exact h.2
          | _ => trivial
      | _ => trivial
  | _ => cases phase <;> trivial

end Sessions

/-! ## What a recoverer knows about the campaign -/

/-- The recoverer holds a version of the campaign document that does not know the slot it is
finishing. -/
def Recovery.KnowsCampaign (st : Db) (x : Recovery) : Prop :=
  (st (.adSpaceCampaign d3faultCampaign0)).docAt x.campaignDocToUpdateCAS = some x.campaignDoc ∧
    ∀ last, x.campaignDoc.lastSlotFilledAkaPurchased = some last → last.slotIndex < x.slotIndex

def RecovererPhase.KnowsCampaign (st : Db) : RecovererPhase → Prop
  | .getTransaction x | .getSlotFiller x | .getUserAccount x _ _ | .getTransactionAgain x
  | .addTransaction x _ | .debitAndUnlock x _ | .updateCampaignDoc x => x.KnowsCampaign st
  | _ => True

lemma Recovery.KnowsCampaign.mono {st st' : Db} {x : Recovery} (hst : st ≤ st')
    (h : x.KnowsCampaign st) : x.KnowsCampaign st' :=
  ⟨Cell.docAt_mono (hst _) h.1, h.2⟩

namespace RecovererPhase

variable {st st' : Db} {r : RecovererPhase}

lemma KnowsCampaign.mono (hst : st ≤ st') (h : r.KnowsCampaign st) : r.KnowsCampaign st' := by
  cases r <;> first | trivial | exact Recovery.KnowsCampaign.mono hst h

lemma afterCampaignDocAgain_knowsCampaign {slotIndex : ℕ} {slotDoc : SlotDoc} :
    (afterCampaignDocAgain slotIndex slotDoc
      (st (.adSpaceCampaign d3faultCampaign0)).get).KnowsCampaign st := by
  unfold afterCampaignDocAgain
  split
  · trivial
  · next cas doc hread =>
      have hdoc := (Cell.get_eq_some.1 hread).2
      simp only
      split
      · next hnone => exact ⟨hdoc, fun last hlast => by rw [hnone] at hlast; cases hlast⟩
      · next last hlast =>
          split_ifs with hge
          · trivial
          · refine ⟨hdoc, fun last' hlast' => ?_⟩
            obtain rfl := Option.some.inj (hlast.symm.trans hlast')
            simpa using hge

lemma act_knowsCampaign (h : r.KnowsCampaign st) :
    KnowsCampaign (perform st r.act).1 (perform st r.act).2 := by
  cases r with
  | sleeping =>
      simp only [act, perform, afterCampaignDoc]
      split
      · trivial
      · split <;> trivial
  | getSlotThatShouldntExist slotIndex =>
      simp only [act, perform, afterSlot]
      split <;> trivial
  | getCampaignDocAgain slotIndex slotDoc => exact afterCampaignDocAgain_knowsCampaign
  | getTransaction x =>
      simp only [act, perform, afterTransaction]
      split <;> exact h
  | getSlotFiller x =>
      simp only [act, perform, afterSlotFiller]
      split
      · trivial
      · exact h
  | getUserAccount x transactionDocExists u =>
      simp only [act, perform, afterUserAccount]
      split
      · trivial
      · split_ifs <;> trivial
  | getTransactionAgain x =>
      simp only [act, perform, afterTransactionAgain]
      split <;> trivial
  | addTransaction x b =>
      exact perform_add (P := fun r => KnowsCampaign r.1 r.2)
        (fun _ => Recovery.KnowsCampaign.mono (Store.le_push _ _ _ _) h) (fun _ => trivial)
  | debitAndUnlock x b =>
      refine perform_set_any (P := fun r => KnowsCampaign r.1 r.2)
        (Recovery.KnowsCampaign.mono (Store.le_push _ _ _ _) h) (fun r => ?_)
      cases r with
      | stored cas => exact h
      | keyExists => trivial
      | keyMissing => trivial
  | updateCampaignDoc x =>
      exact perform_set_any (P := fun r => KnowsCampaign r.1 r.2) trivial
        (fun r => by cases r <;> trivial)
  | returned => trivial

lemma act_campaignWritesOk (hslot : r.KnowsSlot st) (h : r.KnowsCampaign st) :
    CampaignWritesOk st r.act := by
  cases r with
  | updateCampaignDoc x =>
      exact ⟨x.campaignDoc, x.slotIndex, x.slotDoc, h.1, hslot, rfl,
        .inr fun last hlast => Nat.le_of_lt (h.2 last hlast)⟩
  | _ => trivial

end RecovererPhase

/-! ## All programs together -/

lemma AddFunds.act_campaignWritesOk {st : Db} {s : AddFunds} {sizes : KeySetSizes}
    {x : AddFundsInput} : CampaignWritesOk st (s.act sizes x) := by
  cases x with
  | proceed setN uuid =>
      simp only [act, AddFunds.perform]
      cases s.phase with
      | generateSetAndUuid =>
          simp only
          split_ifs <;> trivial
      | _ => trivial
  | populateAndInitialize => simp only [act]; split_ifs <;> trivial
  | handleGetBitcoinKeyButtonClicked => simp only [act]; split_ifs <;> trivial
  | confirmedBitcoinBalance balance => simp only [act]; split_ifs <;> trivial
  | doneSendingBitcoinsToCurrentAddressButtonClicked => simp only [act]; split_ifs <;> trivial

lemma Creditor.act_campaignWritesOk {st : Db} {s : Creditor} : CampaignWritesOk st s.act := by
  obtain ⟨rows, found, creditted, earned, phase⟩ := s
  cases phase <;> trivial

lemma campaignWritesOk_map {σ τ : Type} {st : Db} {a : DbAction σ} (f : σ → τ)
    (h : CampaignWritesOk st a) : CampaignWritesOk st (a.map f) := by
  cases a with
  | add k note doc resume => cases k <;> exact h
  | set k note doc cas resume => cases k <;> exact h
  | _ => trivial

namespace Process

/-- What a process knows about campaigns. -/
def KnowsCampaign (st : Db) : Process → Prop
  | session s => s.KnowsCampaign st
  | recoverer r => r.KnowsCampaign st
  | _ => True

variable {st st' : Db} {p : Process} {sizes : KeySetSizes} {x : ProcessInput}

lemma KnowsCampaign.mono (hst : st ≤ st') (h : p.KnowsCampaign st) : p.KnowsCampaign st' := by
  cases p with
  | session s => exact Session.KnowsCampaign.mono hst h
  | recoverer r => exact RecovererPhase.KnowsCampaign.mono hst h
  | creditor c => trivial
  | addFunds a => trivial

lemma Initial.knowsCampaign (h : p.Initial) (st : Db) : p.KnowsCampaign st := by
  cases h with
  | session ajax campaign => exact ⟨⟨nofun, fun hne => absurd rfl hne⟩, trivial⟩
  | _ => trivial

lemma act_knowsCampaign (hpurchase : p.KnowsPurchase st) (hnew : NotOvertaken st p x)
    (h : p.KnowsCampaign st) :
    KnowsCampaign (perform st (p.act sizes x)).1 (perform st (p.act sizes x)).2 := by
  cases p with
  | session s =>
      cases x with
      | session y =>
          rw [act, perform_map]
          exact Session.act_knowsCampaign hpurchase hnew h
      | _ => exact h
  | recoverer r =>
      cases x with
      | run =>
          rw [act, perform_map]
          exact RecovererPhase.act_knowsCampaign h
      | _ => exact h
  | creditor c =>
      cases x with
      | run => rw [act, perform_map]; trivial
      | _ => trivial
  | addFunds a =>
      cases x with
      | addFunds y => rw [act, perform_map]; trivial
      | _ => trivial

lemma act_campaignWritesOk (hpurchase : p.KnowsPurchase st) (h : p.KnowsCampaign st) :
    CampaignWritesOk st (p.act sizes x) := by
  cases p with
  | session s =>
      cases x with
      | session y => exact campaignWritesOk_map _ (Session.act_campaignWritesOk h)
      | _ => trivial
  | recoverer r =>
      cases x with
      | run => exact campaignWritesOk_map _ (RecovererPhase.act_campaignWritesOk hpurchase h)
      | _ => trivial
  | creditor c =>
      cases x with
      | run => exact campaignWritesOk_map _ Creditor.act_campaignWritesOk
      | _ => trivial
  | addFunds a =>
      cases x with
      | addFunds y => exact campaignWritesOk_map _ AddFunds.act_campaignWritesOk
      | _ => trivial

end Process

/-! ## Every run -/

/-- No campaign names a slot yet.  The history that is followed begins with the first purchase, so
that every slot named later was sold in the run. -/
def NothingSold (st : Db) : Prop :=
  ∀ k c doc, (st (.adSpaceCampaign k)).docAt c = some doc → doc.lastSlotFilledAkaPurchased = none

lemma NothingSold.ok {st : Db} (h : NothingSold st) : CampaignsOk st where
  describes k c doc hdoc last hlast := by
    rw [h k c doc hdoc] at hlast
    cases hlast
  history k c before _ hbefore _ last hlast := by
    rw [h k c before hbefore] at hlast
    cases hlast

/-- The property itself: the last slot a campaign document names never goes back, and it is always
told as it is. -/
def CampaignNeverGoesBack (st : Db) (k : CampaignKey) : Prop :=
  (∀ c c' before after, c ≤ c' → (st (.adSpaceCampaign k)).docAt c = some before →
    (st (.adSpaceCampaign k)).docAt c' = some after → before.NotAfter after) ∧
  ∀ c doc, (st (.adSpaceCampaign k)).docAt c = some doc → doc.Describes st k

lemma CampaignsOk.neverGoesBack {st : Db} (h : CampaignsOk st) (k : CampaignKey) :
    CampaignNeverGoesBack st k := by
  refine ⟨fun c c' before after hc hbefore hafter => ?_, h.describes k⟩
  -- compare everything with the first of the two
  refine (h.history k).later (P := before.NotAfter) ?_ hc hbefore hafter
    fun last hlast => ⟨last, hlast, Nat.le_refl _⟩
  intro d _ e hd hde last hlast
  obtain ⟨last', hlast', hle⟩ := hd last hlast
  obtain ⟨last'', hlast'', hle'⟩ := hde last' hlast'
  exact ⟨last'', hlast'', Nat.le_trans hle hle'⟩

section Runs

variable {ι : Type} [DecidableEq ι] {sizes : KeySetSizes} {w₀ w : System ι}

/-- **The campaign document never goes back in time**, in a run in which no session composes its
update from a document that names a later slot than the one it has bought.  A document that goes
back in time sells a slot again at a price computed from the wrong purchase, so this is what the
price and the start of a slot rest on.  The other direction is not claimed of a run, as a document
that went back may be overwritten before anybody reads it. -/
theorem campaign_never_goes_back (hstart : PurchasesStart w₀.store)
    (hnothing : NothingSold w₀.store) (hprocesses : ∀ i, (w₀.client i).Initial)
    (hreach : Reaches (Process.act sizes) Process.NotOvertaken w₀ w) (k : CampaignKey) :
    CampaignNeverGoesBack w.store k := by
  have hinv := hreach.threadModular
    (I := fun st => PurchasesOk st ∧ CampaignsOk st)
    (L := fun st p => p.Saved st ∧ p.KnowsPurchase st ∧ p.KnowsCampaign st)
    (fun _ _ _ hst _ h => ⟨h.1.mono hst, h.2.1.mono hst, h.2.2.mono hst⟩)
    (fun st p x hnew hok h => by
      obtain ⟨hpurchases, hcampaigns⟩ := hok
      obtain ⟨hsaved, hpurchase, hcampaign⟩ := h
      refine ⟨⟨?_, ?_⟩, p.act_saved hsaved, p.act_knowsPurchase hpurchases hsaved hpurchase,
        p.act_knowsCampaign hpurchase hnew hcampaign⟩
      · exact hpurchases.perform (p.act_accountWritesOk hpurchases.accounts hsaved)
          (p.act_purchaseWritesOk hpurchases hsaved hpurchase)
      · exact hcampaigns.perform (p.act_campaignWritesOk hpurchase hcampaign))
    ⟨hstart.ok, hnothing.ok⟩
    (fun i => ⟨(hprocesses i).saved _, (hprocesses i).knowsPurchase _,
      (hprocesses i).knowsCampaign _⟩)
  exact hinv.1.2.neverGoesBack k

end Runs

/-! ## A purchase, and a session that is overtaken -/

instance Process.decidableNotOvertaken (st : Db) (p : Process) (x : ProcessInput) :
    Decidable (p.NotOvertaken st x) := by
  unfold Process.NotOvertaken
  split
  · next m _ =>
      cases hlast : m.campaignJsonDoc.lastSlotFilledAkaPurchased with
      | none => exact .isTrue fun _ last hsome => by cases hsome
      | some last =>
          exact decidable_of_iff ((st (.adSpaceCampaign m.campaign)).cas = m.campaignCas →
              last.slotIndex ≤ m.adSlotAboutToBeFilledIfLockIsSuccessful.slotIndex)
            (by simp)
  · infer_instance

lemma oneCampaign_nothingSold : NothingSold oneCampaign := by
  intro k c doc hdoc
  by_cases hk : k = d3faultCampaign0
  · subst hk
    rw [oneCampaign, Store.push_self, Cell.docAt_push] at hdoc
    split at hdoc
    · exact Option.some.inj hdoc ▸ rfl
    · simp at hdoc
  · rw [oneCampaign, Store.push_of_ne _ (fun he => hk (Key.adSpaceCampaign.inj he))] at hdoc
    simp at hdoc

/-- The rest of the purchase, up to where the account is debited and unlocked. -/
def buyUntilUnlocked : List ProcessInput :=
  buyUntilFilled ++ List.replicate 4 (.session (.proceed 0))

/-- Two more steps update the campaign document. -/
def buyToTheEnd : List ProcessInput :=
  buyUntilUnlocked ++ List.replicate 2 (.session (.proceed 0))

/-- Two sessions of one user, and a recoverer. -/
def twoSessions : System (Fin 3) where
  store := oneCampaign
  client i := if i = 2 then .recoverer .sleeping else
    .session { members := { ajax := true, campaign := d3faultCampaign0 } }

lemma twoSessions_initial (i : Fin 3) : (twoSessions.client i).Initial := by
  unfold twoSessions
  dsimp only
  split
  · exact .recoverer
  · exact .session _ _

/-- The first session buys slot 0.  The recoverer enters slot 0 into the campaign document before it
does, so that its own update is refused.  The second session is told of that, and buys slot 1. -/
def oneAfterTheOther : List (Fin 3 × ProcessInput) :=
  buyUntilUnlocked.map (fun x => (0, x)) ++ List.replicate 7 (2, .run) ++
    [(0, .session (.proceed 0)), (0, .session (.proceed 0))] ++
    (.session (.campaignUpdate 2) :: buyToTheEnd.drop 1).map (fun x => (1, x)) ++
    List.replicate 2 (2, .run)

theorem campaign_never_goes_back_twoPurchases :
    let w := twoSessions.run (Process.act ⟨1, 1, 1⟩) oneAfterTheOther
    (w.store (.adSpaceCampaign d3faultCampaign0)).docs.map
        (fun doc => doc.lastSlotFilledAkaPurchased.map (·.slotIndex)) = [none, some 0, some 1] ∧
      CampaignNeverGoesBack w.store d3faultCampaign0 :=
  ⟨by decide +kernel, campaign_never_goes_back oneCampaign_purchasesStart oneCampaign_nothingSold
    twoSessions_initial (reaches_run_of_staysWithin (by decide +kernel)) _⟩

/-- The first session buys slot 0 and is slow.  The recoverer enters slot 0 into the campaign
document, the second session buys slot 1 and enters it, and the buy event reaches the first
session before it composes its own update. -/
def overtaking : List (Fin 3 × ProcessInput) :=
  buyUntilUnlocked.map (fun x => (0, x)) ++ List.replicate 7 (2, .run) ++
    (.session (.campaignUpdate 2) :: buyToTheEnd.drop 1).map (fun x => (1, x)) ++
    [(0, .session (.campaignUpdate 3)), (0, .session (.proceed 0)), (0, .session (.proceed 0))]

/-- The document names slot 1, and then slot 0 again. -/
theorem campaign_goes_back : ¬ ∀ w : System (Fin 3),
    Reaches (Process.act ⟨1, 1, 1⟩) anyStep twoSessions w →
      CampaignNeverGoesBack w.store d3faultCampaign0 := by
  intro hnever
  let w := twoSessions.run (Process.act ⟨1, 1, 1⟩) overtaking
  let indexAt (c : ℕ) : Option ℕ := do
    let doc ← (w.store (.adSpaceCampaign d3faultCampaign0)).docAt c
    let last ← doc.lastSlotFilledAkaPurchased
    return last.slotIndex
  have hthree : indexAt 3 = some 1 := by decide +kernel
  have hfour : indexAt 4 = some 0 := by decide +kernel
  obtain ⟨before, hbefore, hlast⟩ := Option.bind_eq_some_iff.1 hthree
  obtain ⟨last, hlast, hone⟩ := Option.bind_eq_some_iff.1 hlast
  obtain ⟨after, hafter, hlast'⟩ := Option.bind_eq_some_iff.1 hfour
  obtain ⟨last', hlast', hzero⟩ := Option.bind_eq_some_iff.1 hlast'
  obtain ⟨last'', hlast'', hle⟩ :=
    (hnever w (reaches_run _ _)).1 3 4 before after (by omega) hbefore hafter last hlast
  obtain rfl := Option.some.inj (hlast'.symm.trans hlast'')
  have hone : last.slotIndex = 1 := Option.some.inj hone
  have hzero : last'.slotIndex = 0 := Option.some.inj hzero
  omega

end Autobackup.Abc2
