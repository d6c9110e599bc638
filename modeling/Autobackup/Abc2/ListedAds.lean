import Autobackup.Abc2.NewAdSlotFiller

/-!
# The list of a user's ads

`Listed` says that a list names exactly the ads below its `adsCount`, each by the nickname in its
document.  An ad is written once and never changed, so this survives everything the other tabs do;
it holds of what is stored and of the running document of every upload.

An upload that was told a CAS replaces only the list it has read, and its own is longer.  One that
found no list at all stores its own unconditionally; the list it replaces then may be a longer one.

The image of an ad is part of its document and plays no role here.  A tab may be closed at any point
of an upload, also between the ad and the list, and then there is an ad that the list does not name:
the next upload finds its number taken, reads the ad that is in the way, and puts it in the list.
-/

namespace Autobackup.Abc2

namespace AllSlotFillersDoc

lemma lookup_cons_eq_ite (entries : List (ℕ × String)) (i j : ℕ) (nickname : String) :
    ((j, nickname) :: entries).lookup i = if i = j then some nickname else entries.lookup i := by
  by_cases h : i = j
  · simp [h]
  · simp [List.lookup_cons, h, beq_eq_false_iff_ne.2 h]

lemma lookup_map_put (entries : List (ℕ × String)) (index i : ℕ) (nickname : String) :
    (entries.map fun entry => if entry.1 = index then (index, nickname) else entry).lookup i =
      if i = index then (entries.lookup index).map fun _ => nickname else entries.lookup i := by
  induction entries with
  | nil => simp
  | cons entry entries ih =>
      obtain ⟨j, old⟩ := entry
      rw [List.map_cons, lookup_cons_eq_ite, lookup_cons_eq_ite]
      by_cases hj : j = index
      · rw [if_pos hj, lookup_cons_eq_ite, ih]
        by_cases hi : i = index
        · simp [hi, hj]
        · simp [hi, hj]
      · rw [if_neg hj, lookup_cons_eq_ite, ih]
        by_cases hi : i = index
        · simp [hi, Ne.symm hj]
        · simp [hi]

/-- The nicknames after `put`. -/
lemma nickname_put (doc : AllSlotFillersDoc) (index i : ℕ) (nickname : String) :
    (doc.put index nickname).nickname i = if i = index then some nickname else doc.nickname i := by
  by_cases hsome : (doc.nickname index).isSome
  · obtain ⟨old, hold⟩ := Option.isSome_iff_exists.1 hsome
    rw [put, if_pos hsome, AllSlotFillersDoc.nickname, lookup_map_put,
      show doc.nicknames.lookup index = some old from hold]
    rfl
  · have hnone : doc.nicknames.lookup index = none :=
      Option.not_isSome_iff_eq_none.1 hsome
    rw [put, if_neg hsome, AllSlotFillersDoc.nickname, List.lookup_append,
      lookup_cons_eq_ite, List.lookup_nil, AllSlotFillersDoc.nickname]
    by_cases hi : i = index
    · simp [hi, hnone]
    · simp [hi]

end AllSlotFillersDoc

/-! ## Lists that name ads that exist -/

/-- The ad exists, under this nickname. -/
def HasNickname (st : Db) (k : SlotFillerKey) (nickname : String) : Prop :=
  ∃ doc, (st (.adSpaceSlotFiller k)).docAt 1 = some doc ∧ doc.nickname = nickname

lemma HasNickname.mono {st st' : Db} (hst : st ≤ st') {k : SlotFillerKey} {nickname : String}
    (h : HasNickname st k nickname) : HasNickname st' k nickname := by
  obtain ⟨doc, hdoc, hnickname⟩ := h
  exact ⟨doc, Cell.docAt_mono (hst _) hdoc, hnickname⟩

lemma HasNickname.unique {st : Db} {k : SlotFillerKey} {nickname nickname' : String}
    (h : HasNickname st k nickname) (h' : HasNickname st k nickname') : nickname = nickname' := by
  obtain ⟨doc, hdoc, rfl⟩ := h
  obtain ⟨doc', hdoc', rfl⟩ := h'
  rw [Option.some.inj (hdoc.symm.trans hdoc')]

/-- The list names the ads below its `adsCount`, each by its nickname. -/
structure Listed (st : Db) (username : Username) (doc : AllSlotFillersDoc) : Prop where
  indexes : ∀ i, (doc.nickname i).isSome ↔ i < doc.adsCount
  nicknames : ∀ i nickname, doc.nickname i = some nickname → HasNickname st ⟨username, i⟩ nickname

namespace Listed

variable {st st' : Db} {username : Username} {doc : AllSlotFillersDoc}

lemma mono (hst : st ≤ st') (h : Listed st username doc) : Listed st' username doc where
  indexes := h.indexes
  nicknames i nickname hi := (h.nicknames i nickname hi).mono hst

lemma empty : Listed st username ⟨0, []⟩ where
  indexes i := by simp [AllSlotFillersDoc.nickname]
  nicknames i nickname hi := by simp [AllSlotFillersDoc.nickname] at hi

/-- Every ad that is listed exists. -/
lemma exists_slotFiller (h : Listed st username doc) {i : ℕ} (hi : i < doc.adsCount) :
    (st (.adSpaceSlotFiller ⟨username, i⟩)).cas ≠ 0 := by
  obtain ⟨nickname, hnickname⟩ := Option.isSome_iff_exists.1 ((h.indexes i).2 hi)
  obtain ⟨doc, hdoc, -⟩ := h.nicknames i nickname hnickname
  have := Cell.docAt_bounds hdoc
  omega

/-- The next ad is entered. -/
lemma put (h : Listed st username doc) {nickname : String}
    (hslotFiller : HasNickname st ⟨username, doc.adsCount⟩ nickname) :
    Listed st username { doc.put doc.adsCount nickname with adsCount := doc.adsCount + 1 } where
  indexes i := by
    change ((doc.put doc.adsCount nickname).nickname i).isSome ↔ i < doc.adsCount + 1
    rw [AllSlotFillersDoc.nickname_put]
    split
    · next hi => simp [hi]
    · next hi =>
        rw [h.indexes i]
        omega
  nicknames i nickname' hi := by
    change (doc.put doc.adsCount nickname).nickname i = some nickname' at hi
    rw [AllSlotFillersDoc.nickname_put] at hi
    split at hi
    · next heq =>
        rw [heq, ← Option.some.inj hi]
        exact hslotFiller
    · exact h.nicknames i nickname' hi

/-- Two lists agree on the ads both name, and the shorter one names no others. -/
lemma nickname_of_le {doc' : AllSlotFillersDoc} (h : Listed st username doc)
    (h' : Listed st username doc') (hle : doc.adsCount ≤ doc'.adsCount) {i : ℕ} {nickname : String}
    (hi : doc.nickname i = some nickname) : doc'.nickname i = some nickname := by
  have hlt : i < doc'.adsCount := Nat.lt_of_lt_of_le ((h.indexes i).1 (by rw [hi]; rfl)) hle
  obtain ⟨nickname', hi'⟩ := Option.isSome_iff_exists.1 ((h'.indexes i).2 hlt)
  rw [hi', (h.nicknames i nickname hi).unique (h'.nicknames i nickname' hi')]

end Listed

/-- The ads of a user have the indexes below some number and were written once, and every list of
them that was ever stored is right. -/
structure AdsOk (st : Db) (username : Username) : Prop where
  indexes : ∃ m, ∀ i, (st (.adSpaceSlotFiller ⟨username, i⟩)).cas = if i < m then 1 else 0
  listed : ∀ c doc, (st (.adSpaceAllSlotFillers username)).docAt c = some doc →
    Listed st username doc

/-- No ads yet. -/
def NoAds (st : Db) : Prop :=
  ∀ username, (st (.adSpaceAllSlotFillers username)).cas = 0 ∧
    ∀ i, (st (.adSpaceSlotFiller ⟨username, i⟩)).cas = 0

lemma NoAds.adsOk {st : Db} (h : NoAds st) (username : Username) : AdsOk st username where
  indexes := ⟨0, fun i => by simp [(h username).2 i]⟩
  listed c doc hdoc := by
    have := Cell.docAt_bounds hdoc
    have := (h username).1
    omega

namespace AdsOk

variable {st : Db} {username u : Username}

/-- A new ad, behind those a list names. -/
lemma addSlotFiller (h : AdsOk st username) {doc : AllSlotFillersDoc} (hlisted : Listed st u doc)
    (habsent : (st (.adSpaceSlotFiller ⟨u, doc.adsCount⟩)).cas = 0) (d : SlotFillerDoc) :
    AdsOk (st.push (.adSpaceSlotFiller ⟨u, doc.adsCount⟩) .document d) username where
  indexes := by
    obtain ⟨m, hm⟩ := h.indexes
    by_cases hu : u = username
    · subst hu
      have hm' : m = doc.adsCount := by
        have hnext := hm doc.adsCount
        rw [habsent] at hnext
        have hle : m ≤ doc.adsCount := by
          by_contra hlt
          rw [if_pos (Nat.not_le.1 hlt)] at hnext
          omega
        refine Nat.le_antisymm hle (Nat.not_lt.1 fun hlt => ?_)
        have hmissing := hm m
        rw [if_neg (Nat.lt_irrefl m)] at hmissing
        exact hlisted.exists_slotFiller hlt hmissing
      refine ⟨m + 1, fun i => ?_⟩
      by_cases hi : i = doc.adsCount
      · subst hi
        rw [Store.push_self, Cell.cas_push, habsent, if_pos (by omega)]
      · rw [Store.push_of_ne st (by simpa using hi), hm i]
        split <;> split <;> omega
    · refine ⟨m, fun i => ?_⟩
      rw [Store.push_of_ne st
        (fun heq => hu (SlotFillerKey.mk.inj (Key.adSpaceSlotFiller.inj heq)).1.symm), hm i]
  listed c doc' hdoc' := by
    rw [Store.push_of_ne st (by simp)] at hdoc'
    exact (h.listed c doc' hdoc').mono (Store.le_push _ _ _ _)

/-- A new list. -/
lemma setAllSlotFillers (h : AdsOk st username) {doc : AllSlotFillersDoc}
    (hlisted : Listed st u doc) :
    AdsOk (st.push (.adSpaceAllSlotFillers u) .document doc) username where
  indexes := by
    obtain ⟨m, hm⟩ := h.indexes
    exact ⟨m, fun i => by rw [Store.push_of_ne st (by simp), hm i]⟩
  listed c doc' hdoc' := by
    have hgrows := Store.le_push st (.adSpaceAllSlotFillers u) .document doc
    by_cases hu : username = u
    · subst hu
      rw [Store.push_self, Cell.docAt_push] at hdoc'
      split at hdoc'
      · exact Option.some.inj hdoc' ▸ hlisted.mono hgrows
      · exact (h.listed c doc' hdoc').mono hgrows
    · rw [Store.push_of_ne st (fun heq => hu (Key.adSpaceAllSlotFillers.inj heq))] at hdoc'
      exact (h.listed c doc' hdoc').mono hgrows

/-- What is read of an ad. -/
lemma hasNickname_of_docAt (h : AdsOk st username) {c i : ℕ} {doc : SlotFillerDoc}
    (hdoc : (st (.adSpaceSlotFiller ⟨username, i⟩)).docAt c = some doc) :
    HasNickname st ⟨username, i⟩ doc.nickname := by
  obtain ⟨m, hm⟩ := h.indexes
  have hbounds := Cell.docAt_bounds hdoc
  have hcas : (st (.adSpaceSlotFiller ⟨username, i⟩)).cas ≤ 1 := by
    rw [hm i]
    split <;> omega
  obtain rfl : c = 1 := by omega
  exact ⟨doc, hdoc, rfl⟩

end AdsOk

/-! ## Uploads -/

namespace NewAdSlotFiller

/-- What an upload relies on: its running document is right, and longer than the list it was made
from, if there was one. -/
structure Running (st : Db) (s : NewAdSlotFiller) : Prop where
  listed : Listed st s.currentlyLoggedInUsername s.runningAllSlotFillersDoc
  base : s.runningAllSlotFillersDocCas ≠ 0 →
    ∃ doc, (st (.adSpaceAllSlotFillers s.currentlyLoggedInUsername)).docAt
        s.runningAllSlotFillersDocCas = some doc ∧
      doc.adsCount ≤ s.runningAllSlotFillersDoc.adsCount

/-- The index that is tried is the first one behind the running document. -/
def KnowsAds (st : Db) (s : NewAdSlotFiller) : Prop :=
  match s.phase with
  | .idle | .getAllSlotFillers => True
  | .addSlotFiller index | .getSlotFillerThatIsntInAllAdSlotFillers index =>
      index = s.runningAllSlotFillersDoc.adsCount ∧ s.Running st
  | .setAllSlotFillers => s.Running st

variable {st st' : Db} {s : NewAdSlotFiller}

lemma Running.mono (hst : st ≤ st') (h : s.Running st) : s.Running st' where
  listed := h.listed.mono hst
  base hcas := by
    obtain ⟨doc, hdoc, hle⟩ := h.base hcas
    exact ⟨doc, Cell.docAt_mono (hst _) hdoc, hle⟩

lemma Running.withPhase (h : s.Running st) (phase : NewAdSlotFillerPhase) :
    { s with phase := phase }.Running st where
  listed := h.listed
  base := h.base

lemma KnowsAds.mono (hst : st ≤ st') (h : s.KnowsAds st) : s.KnowsAds st' := by
  unfold KnowsAds at h ⊢
  split at h
  · trivial
  · trivial
  · exact ⟨h.1, h.2.mono hst⟩
  · exact ⟨h.1, h.2.mono hst⟩
  · exact h.mono hst

lemma reset_knowsAds : s.reset.KnowsAds st := trivial

/-- The ad behind the running document is entered. -/
lemma Running.putNickname (h : s.Running st) {nickname : String}
    (hslotFiller : HasNickname st ⟨s.currentlyLoggedInUsername,
      s.runningAllSlotFillersDoc.adsCount⟩ nickname) : (s.putNickname nickname).Running st where
  listed := h.listed.put hslotFiller
  base hcas := by
    obtain ⟨doc, hdoc, hle⟩ := h.base hcas
    exact ⟨doc, hdoc, Nat.le_succ_of_le hle⟩

lemma determineNextSlotFillerIndex_knowsAds (hok : AdsOk st s.currentlyLoggedInUsername) :
    (s.determineNextSlotFillerIndexAndThenAddSlotFillerToIt
      (st (.adSpaceAllSlotFillers s.currentlyLoggedInUsername)).get).KnowsAds st := by
  cases hget : (st (.adSpaceAllSlotFillers s.currentlyLoggedInUsername)).get with
  | none => exact ⟨rfl, .empty, fun hcas => absurd rfl hcas⟩
  | some read =>
      obtain ⟨cas, doc⟩ := read
      obtain ⟨rfl, hcurrent⟩ := Cell.get_eq_some.1 hget
      rw [determineNextSlotFillerIndexAndThenAddSlotFillerToIt]
      split
      · exact reset_knowsAds
      · exact ⟨rfl, hok.listed _ doc hcurrent, fun _ => ⟨doc, hcurrent, Nat.le_refl _⟩⟩

lemma getAdSlotFillerAttemptFinished_knowsAds (hok : AdsOk st s.currentlyLoggedInUsername)
    (hrunning : s.Running st) :
    (s.getAdSlotFillerAttemptFinished (st (.adSpaceSlotFiller ⟨s.currentlyLoggedInUsername,
      s.runningAllSlotFillersDoc.adsCount⟩)).get).KnowsAds st := by
  cases hget : (st (.adSpaceSlotFiller ⟨s.currentlyLoggedInUsername,
      s.runningAllSlotFillersDoc.adsCount⟩)).get with
  | none => exact reset_knowsAds
  | some read =>
      obtain ⟨-, hdoc⟩ := Cell.get_eq_some.1 hget
      exact ⟨rfl, (hrunning.putNickname (hok.hasNickname_of_docAt hdoc)).withPhase _⟩

/-- One step of one upload. -/
lemma perform_act (hok : ∀ username, AdsOk st username) (hs : s.KnowsAds st)
    (x : NewAdSlotFillerInput) :
    (∀ username, AdsOk (perform st (s.act x)).1 username) ∧
      (perform st (s.act x)).2.KnowsAds (perform st (s.act x)).1 := by
  cases x with
  | handleAdSlotFillerImageUploadFinished nickname =>
      rw [act]
      split
      · exact ⟨hok, trivial⟩
      · exact ⟨hok, hs⟩
  | fail => exact ⟨hok, reset_knowsAds⟩
  | proceed dbError =>
      rw [act, proceed]
      unfold KnowsAds at hs
      split
      · next hphase => exact ⟨hok, by simp [perform, KnowsAds, hphase]⟩
      · refine ⟨hok, ?_⟩
        simp only [perform]
        split
        · exact reset_knowsAds
        · exact determineNextSlotFillerIndex_knowsAds (hok _)
      · next index hphase =>
          rw [hphase] at hs
          obtain ⟨rfl, hrunning⟩ := hs
          refine perform_add (P := fun r => (∀ username, AdsOk r.1 username) ∧ KnowsAds r.1 r.2)
            (fun habsent => ?_) fun _ => ⟨hok, ?_⟩
          · refine ⟨fun username => (hok username).addSlotFiller hrunning.listed habsent _, ?_⟩
            split
            · exact reset_knowsAds
            · have hadded := Store.docAt_push_next habsent.symm Note.document
                ⟨s.currentlyLoggedInUsername, s.validatedNickname⟩
              exact ((hrunning.mono (Store.le_push _ _ _ _)).putNickname
                ⟨_, hadded, rfl⟩).withPhase _
          · split
            · exact reset_knowsAds
            · exact ⟨rfl, hrunning.withPhase _⟩
      · next index hphase =>
          rw [hphase] at hs
          obtain ⟨rfl, hrunning⟩ := hs
          refine ⟨hok, ?_⟩
          simp only [perform]
          split
          · exact reset_knowsAds
          · exact getAdSlotFillerAttemptFinished_knowsAds (hok _) hrunning
      · next hphase =>
          rw [hphase] at hs
          exact perform_set_any (P := fun r => (∀ username, AdsOk r.1 username) ∧ KnowsAds r.1 r.2)
            ⟨fun username => (hok username).setAllSlotFillers hs.listed, reset_knowsAds⟩
            fun _ => ⟨hok, reset_knowsAds⟩

end NewAdSlotFiller

/-! ## Lists that do not get shorter -/

/-- No list of the user's ads is shorter than the one it replaced. -/
def NeverShrinks (st : Db) (username : Username) : Prop :=
  (st (.adSpaceAllSlotFillers username)).Chain fun before _ after =>
    before.adsCount ≤ after.adsCount

namespace NewAdSlotFiller

/-- An upload that found no list replaces none that is longer than its own.  It is a condition on
one step, the store of a list with a CAS of 0, and says nothing about the steps of other uploads. -/
def ReplacesNoLonger (st : Db) (s : NewAdSlotFiller) (x : NewAdSlotFillerInput) : Prop :=
  x ≠ .fail → s.phase = .setAllSlotFillers → s.runningAllSlotFillersDocCas = 0 →
    ∀ doc, (st (.adSpaceAllSlotFillers s.currentlyLoggedInUsername)).current = some doc →
      doc.adsCount ≤ s.runningAllSlotFillersDoc.adsCount

variable {st : Db} {s : NewAdSlotFiller} {username : Username}

/-- Storing the list. -/
lemma neverShrinks_push (h : NeverShrinks st username) {u : Username} {doc : AllSlotFillersDoc}
    (hlonger : ∀ before, (st (.adSpaceAllSlotFillers u)).current = some before →
      before.adsCount ≤ doc.adsCount) :
    NeverShrinks (st.push (.adSpaceAllSlotFillers u) .document doc) username := by
  unfold NeverShrinks at h ⊢
  by_cases hu : username = u
  · subst hu
    rw [Store.push_self]
    exact h.push hlonger
  · rwa [Store.push_of_ne st fun heq => hu (Key.adSpaceAllSlotFillers.inj heq)]

/-- One step of one upload. -/
lemma perform_act_neverShrinks (h : NeverShrinks st username) (hs : s.KnowsAds st)
    {x : NewAdSlotFillerInput} (hok : s.ReplacesNoLonger st x) :
    NeverShrinks (perform st (s.act x)).1 username := by
  cases x with
  | handleAdSlotFillerImageUploadFinished nickname =>
      rw [act]
      split <;> exact h
  | fail => exact h
  | proceed dbError =>
      rw [act, proceed]
      split
      · exact h
      · exact h
      · refine perform_add (P := fun r => NeverShrinks r.1 username) (fun _ => ?_) fun _ => h
        have hother (k : SlotFillerKey) :
            Key.adSpaceAllSlotFillers username ≠ .adSpaceSlotFiller k := by simp
        unfold NeverShrinks
        dsimp only
        rwa [Store.push_of_ne st (hother _)]
      · exact h
      · next hphase =>
          unfold KnowsAds at hs
          rw [hphase] at hs
          by_cases hcas : s.runningAllSlotFillersDocCas = 0
          · have hlonger := hok (by simp) hphase hcas
            exact perform_set_any (P := fun r => NeverShrinks r.1 username)
              (neverShrinks_push h hlonger) fun _ => h
          · obtain ⟨doc, hdoc, hle⟩ := hs.base hcas
            refine perform_set (P := fun r => NeverShrinks r.1 username)
              (Nat.pos_of_ne_zero hcas) (fun hcurrent => ?_) fun _ _ => h
            rw [hcurrent] at hdoc
            refine neverShrinks_push h fun before hbefore => ?_
            obtain rfl := Option.some.inj (hdoc.symm.trans hbefore)
            exact hle

/-- The condition is exact: where it fails, the list that is stored is shorter. -/
lemma adsCount_lt_of_not_replacesNoLonger {x : NewAdSlotFillerInput}
    (h : ¬ s.ReplacesNoLonger st x) (hx : ∃ dbError, x = .proceed dbError) :
    ∃ before after,
      (st (.adSpaceAllSlotFillers s.currentlyLoggedInUsername)).current = some before ∧
      ((perform st (s.act x)).1 (.adSpaceAllSlotFillers s.currentlyLoggedInUsername)).current =
        some after ∧ after.adsCount < before.adsCount := by
  obtain ⟨dbError, rfl⟩ := hx
  simp only [ReplacesNoLonger, Classical.not_imp, not_forall, Nat.not_le] at h
  obtain ⟨-, hphase, hcas, before, hbefore, hlt⟩ := h
  refine ⟨before, s.runningAllSlotFillersDoc, hbefore, ?_, hlt⟩
  rw [act, proceed, hphase]
  simp only [perform, hcas, true_or, if_true, Store.push_self]
  exact Cell.current_push _ _ _

end NewAdSlotFiller

/-! ## Runs -/

section Runs

variable {ι : Type} [DecidableEq ι] {w₀ w : Uploads ι}

lemma ads_of_reaches {ok : Db → NewAdSlotFiller → NewAdSlotFillerInput → Prop}
    (hstart : NoAds w₀.store) (huploads : ∀ i, (w₀.client i).phase = .idle)
    (hreach : Reaches NewAdSlotFiller.act ok w₀ w) :
    (∀ username, AdsOk w.store username) ∧ ∀ i, (w.client i).KnowsAds w.store :=
  hreach.threadModular (I := fun st => ∀ username, AdsOk st username)
    (L := fun st s => s.KnowsAds st) (fun _ _ _ hst _ hs => hs.mono hst)
    (fun _ _ x _ hok hs => NewAdSlotFiller.perform_act hok hs x) hstart.adsOk fun i => by
      simp [NewAdSlotFiller.KnowsAds, huploads i]

/-- **The list of a user's ads never names an ad that is missing.**  It has no condition on the
uploads: also an upload that replaces a longer list by its own names only ads that are there.  The
ads are the numbers below `m` without a gap, which is what the search for the next free number rests
on. -/
theorem listed_ads_exist (hstart : NoAds w₀.store) (huploads : ∀ i, (w₀.client i).phase = .idle)
    (hreach : Reaches NewAdSlotFiller.act anyStep w₀ w) (username : Username) :
    ∃ m, (∀ i, (w.store (.adSpaceSlotFiller ⟨username, i⟩)).current.isSome ↔ i < m) ∧
      ∀ doc, (w.store (.adSpaceAllSlotFillers username)).current = some doc →
        doc.adsCount ≤ m ∧ (∀ i, (doc.nickname i).isSome ↔ i < doc.adsCount) ∧
        ∀ i nickname, doc.nickname i = some nickname → ∃ slotFiller,
          (w.store (.adSpaceSlotFiller ⟨username, i⟩)).current = some slotFiller ∧
            slotFiller.nickname = nickname := by
  obtain ⟨hok, -⟩ := ads_of_reaches hstart huploads hreach
  obtain ⟨m, hm⟩ := (hok username).indexes
  have hcurrent (i : ℕ) : (w.store (.adSpaceSlotFiller ⟨username, i⟩)).current =
      (w.store (.adSpaceSlotFiller ⟨username, i⟩)).docAt (if i < m then 1 else 0) := by
    rw [Cell.current, hm i]
  have hexists (i : ℕ) :
      (w.store (.adSpaceSlotFiller ⟨username, i⟩)).current.isSome ↔ i < m := by
    rw [hcurrent i]
    split
    · next hi =>
        obtain ⟨d, hd⟩ := Cell.exists_docAt (x := w.store (.adSpaceSlotFiller ⟨username, i⟩))
          (c := 1) Nat.one_pos (by rw [hm i, if_pos hi])
        simp [hd, hi]
    · next hi => simp [hi]
  refine ⟨m, hexists, fun doc hdoc => ?_⟩
  have hlisted := (hok username).listed _ doc hdoc
  refine ⟨?_, hlisted.indexes, fun i nickname hi => ?_⟩
  · by_contra hlt
    have hmissing := hlisted.exists_slotFiller (Nat.not_le.1 hlt)
    rw [hm m, if_neg (Nat.lt_irrefl m)] at hmissing
    exact hmissing rfl
  · obtain ⟨slotFiller, hslotFiller, hnickname⟩ := hlisted.nicknames i nickname hi
    have hcas := Cell.docAt_bounds hslotFiller
    have hi : i < m := by
      by_contra hi
      rw [hm i, if_neg hi] at hcas
      omega
    exact ⟨slotFiller, by rw [hcurrent i, if_pos hi, hslotFiller], hnickname⟩

/-- **The list of a user's ads never gets shorter**, and an ad once listed stays listed, as long as
no upload that found no list replaces a longer one.  The condition leaves out the one step that
shortens the list: an upload that found no list stores its own with a CAS of 0, which replaces
whatever is there by now.  The source notes that an `add` is wanted there. -/
theorem listed_ads_stay_listed (hstart : NoAds w₀.store)
    (huploads : ∀ i, (w₀.client i).phase = .idle)
    (hreach : Reaches NewAdSlotFiller.act (fun st s x => s.ReplacesNoLonger st x) w₀ w)
    {username : Username} {c c' : ℕ} {before after : AllSlotFillersDoc} (hc : c ≤ c')
    (hbefore : (w.store (.adSpaceAllSlotFillers username)).docAt c = some before)
    (hafter : (w.store (.adSpaceAllSlotFillers username)).docAt c' = some after) :
    before.adsCount ≤ after.adsCount ∧
      ∀ i nickname, before.nickname i = some nickname → after.nickname i = some nickname := by
  have hshrinks : (∀ username, AdsOk w.store username ∧ NeverShrinks w.store username) ∧
      ∀ i, (w.client i).KnowsAds w.store := by
    refine hreach.threadModular
      (I := fun st => ∀ username, AdsOk st username ∧ NeverShrinks st username)
      (L := fun st s => s.KnowsAds st) (fun _ _ _ hst _ hs => hs.mono hst) ?_ ?_ ?_
    · intro st s x hok hinv hs
      have hads := NewAdSlotFiller.perform_act (fun username => (hinv username).1) hs x
      exact ⟨fun username => ⟨hads.1 username,
        NewAdSlotFiller.perform_act_neverShrinks (hinv username).2 hs hok⟩, hads.2⟩
    · intro username
      refine ⟨hstart.adsOk username, fun c d v hd _ => ?_⟩
      have hbounds := Cell.docAt_bounds hd
      have habsent := (hstart username).1
      omega
    · intro i
      simp [NewAdSlotFiller.KnowsAds, huploads i]
  obtain ⟨hads, hchain⟩ := hshrinks.1 username
  have hle : before.adsCount ≤ after.adsCount :=
    hchain.later (P := fun doc => before.adsCount ≤ doc.adsCount)
      (fun _ _ _ hd hde => Nat.le_trans hd hde) hc hbefore hafter (Nat.le_refl _)
  exact ⟨hle, fun i nickname hi =>
    (hads.listed c before hbefore).nickname_of_le (hads.listed c' after hafter) hle hi⟩

end Runs

/-! ## Two tabs of one user -/

lemma noAds_absent : NoAds fun _ => Cell.absent := fun _ => ⟨rfl, fun _ => rfl⟩

def twoUploadTabs : Uploads (Fin 2) where
  store _ := Cell.absent
  client _ := { currentlyLoggedInUsername := "anna" }

/-- The first tab finds no list, adds ad 0 and is slow.  The second one finds no list either, finds
ad 0 taken, enters it, adds ad 1 and stores the list of both. -/
def twoUploads : List (Fin 2 × NewAdSlotFillerInput) :=
  [(0, .handleAdSlotFillerImageUploadFinished "a"), (0, .proceed false), (0, .proceed false),
    (1, .handleAdSlotFillerImageUploadFinished "b"), (1, .proceed false), (1, .proceed false),
    (1, .proceed false), (1, .proceed false), (1, .proceed false)]

theorem listed_ads_exist_twoUploadTabs :
    ∃ m, (∀ i, ((twoUploadTabs.run NewAdSlotFiller.act twoUploads).store
          (.adSpaceSlotFiller ⟨"anna", i⟩)).current.isSome ↔ i < m) ∧
      ∀ doc, ((twoUploadTabs.run NewAdSlotFiller.act twoUploads).store
          (.adSpaceAllSlotFillers "anna")).current = some doc → doc.adsCount ≤ m := by
  obtain ⟨m, hexists, hlisted⟩ := listed_ads_exist noAds_absent (fun _ => rfl)
    (reaches_run twoUploadTabs twoUploads) "anna"
  exact ⟨m, hexists, fun doc hdoc => (hlisted doc hdoc).1⟩

/-- The first tab then uploads again, without having stored its list. -/
def uploadAgain : List (Fin 2 × NewAdSlotFillerInput) :=
  twoUploads ++ [(0, .fail), (0, .handleAdSlotFillerImageUploadFinished "c"), (0, .proceed false),
    (0, .proceed false), (0, .proceed false)]

instance NewAdSlotFiller.decidableReplacesNoLonger (st : Db) (s : NewAdSlotFiller)
    (x : NewAdSlotFillerInput) : Decidable (s.ReplacesNoLonger st x) :=
  match hcurrent : (st (.adSpaceAllSlotFillers s.currentlyLoggedInUsername)).current with
  | none => .isTrue fun _ _ _ doc hdoc => by simp [hcurrent] at hdoc
  | some doc =>
      decidable_of_iff (x = .fail ∨ s.phase ≠ .setAllSlotFillers ∨
        s.runningAllSlotFillersDocCas ≠ 0 ∨ doc.adsCount ≤ s.runningAllSlotFillersDoc.adsCount) (by
          simp [ReplacesNoLonger, hcurrent]
          tauto)

theorem listed_ads_stay_listed_twoUploadTabs :
    ∃ before after : AllSlotFillersDoc,
      ((twoUploadTabs.run NewAdSlotFiller.act uploadAgain).store
        (.adSpaceAllSlotFillers "anna")).docAt 1 = some before ∧
      ((twoUploadTabs.run NewAdSlotFiller.act uploadAgain).store
        (.adSpaceAllSlotFillers "anna")).docAt 2 = some after ∧
      before.adsCount ≤ after.adsCount := by
  have hbefore : ((twoUploadTabs.run NewAdSlotFiller.act uploadAgain).store
      (.adSpaceAllSlotFillers "anna")).docAt 1 = some ⟨2, [(0, "a"), (1, "b")]⟩ := by
    decide +kernel
  have hafter : ((twoUploadTabs.run NewAdSlotFiller.act uploadAgain).store
      (.adSpaceAllSlotFillers "anna")).docAt 2 = some ⟨3, [(0, "a"), (1, "b"), (2, "c")]⟩ := by
    decide +kernel
  have hreach : Reaches NewAdSlotFiller.act (fun st s x => s.ReplacesNoLonger st x) twoUploadTabs
      (twoUploadTabs.run NewAdSlotFiller.act uploadAgain) :=
    reaches_run_of_staysWithin (by decide +kernel)
  exact ⟨_, _, hbefore, hafter, (listed_ads_stay_listed noAds_absent (fun _ => rfl) hreach
    (by decide) hbefore hafter).1⟩

/-- Instead, the first tab stores its list, which names ad 0 only. -/
theorem listed_ads_get_lost : ¬ ∀ w : Uploads (Fin 2),
    Reaches NewAdSlotFiller.act anyStep twoUploadTabs w → NeverShrinks w.store "anna" := by
  intro hnever
  have hshrinks := hnever _ (reaches_run twoUploadTabs (twoUploads ++ [(0, .proceed false)]))
  have hbefore :
      ((twoUploadTabs.run NewAdSlotFiller.act (twoUploads ++ [(0, .proceed false)])).store
        (.adSpaceAllSlotFillers "anna")).docAt 1 = some ⟨2, [(0, "a"), (1, "b")]⟩ := by
    decide +kernel
  have hafter : ((twoUploadTabs.run NewAdSlotFiller.act (twoUploads ++ [(0, .proceed false)])).store
      (.adSpaceAllSlotFillers "anna")).version 2 = some ⟨.document, ⟨1, [(0, "a")]⟩⟩ := by
    decide +kernel
  exact absurd (hshrinks 1 _ _ hbefore hafter) (by decide)

end Autobackup.Abc2
