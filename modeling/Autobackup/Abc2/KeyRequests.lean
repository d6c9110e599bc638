import Autobackup.Abc2.KeyPages

/-!
# One request, one key

A request may be worked on by several sessions one after another, or at once.  None of them
knows whether the others have claimed a key already, except by looking at the pages.  What makes
that enough is the order of the search: the account names a page, the search goes up from there,
and it leaves a page only once that page is exhausted and the uuid is not on it (`PassedBy`).
An exhausted page never changes again, so what a search has passed by stays passed by.

`RequestDocOk` demands this of every page number in the store: those of accounts in `GettingKey`
and those of the pages that carry a claim.  It follows that a uuid is on one place only
(`RequestsOk.place_unique`).  `RequestVersionOk` adds that a request ends only with a key that
was claimed for it.
-/

namespace Autobackup.Abc2

/-! ## Pages a search leaves behind -/

/-- The page has no free place any more. -/
def PageExhausted (sizes : KeySetSizes) (st : Db) (setN pageY : ℕ) : Prop :=
  ∃ c page, (st (.bitcoinKeySetPage setN pageY)).docAt c = some page ∧
    Exhausted KeyPlace.claimedUuid sizes.numBitcoinKeysOnEachPage page

/-- The page has no free place any more, and the uuid is not on it. -/
def PassedBy (sizes : KeySetSizes) (st : Db) (uuid : GetKeyUuid) (setN pageY : ℕ) : Prop :=
  ∃ c page, (st (.bitcoinKeySetPage setN pageY)).docAt c = some page ∧
    Exhausted KeyPlace.claimedUuid sizes.numBitcoinKeysOnEachPage page ∧
    ∀ place ∈ page, place.claimedUuid ≠ some uuid

/-- Some account is, or once was, in `GettingKey` with the uuid. -/
def IsGettingKey (st : Db) (uuid : GetKeyUuid) (setN : ℕ) : Prop :=
  ∃ u c doc pageY, (st (.userAccount u)).docAt c = some doc ∧
    doc.bitcoinState = .GettingKey setN pageY uuid

section Mono

variable {sizes : KeySetSizes} {st st' : Db} {uuid : GetKeyUuid} {setN pageY : ℕ}

lemma PassedBy.exhausted (h : PassedBy sizes st uuid setN pageY) :
    PageExhausted sizes st setN pageY := by
  obtain ⟨c, page, hpage, hfull, -⟩ := h
  exact ⟨c, page, hpage, hfull⟩

lemma PageExhausted.mono (hst : st ≤ st') (h : PageExhausted sizes st setN pageY) :
    PageExhausted sizes st' setN pageY := by
  obtain ⟨c, page, hpage, hfull⟩ := h
  exact ⟨c, page, Cell.docAt_mono (hst _) hpage, hfull⟩

lemma PassedBy.mono (hst : st ≤ st') (h : PassedBy sizes st uuid setN pageY) :
    PassedBy sizes st' uuid setN pageY := by
  obtain ⟨c, page, hpage, hfacts⟩ := h
  exact ⟨c, page, Cell.docAt_mono (hst _) hpage, hfacts⟩

lemma IsGettingKey.mono (hst : st ≤ st') (h : IsGettingKey st uuid setN) :
    IsGettingKey st' uuid setN := by
  obtain ⟨u, c, doc, pageY, hdoc, hstate⟩ := h
  exact ⟨u, c, doc, pageY, Cell.docAt_mono (hst _) hdoc, hstate⟩

end Mono

/-! ## The rules -/

/-- The page number in a current-page document, locked or not. -/
def KeySetCurrentPageDoc.page : KeySetCurrentPageDoc → ℕ
  | .currentPage pageY => pageY
  | .fillingNextBitcoinKeySetPage pageY _ _ => pageY

/-- A page on which the places were taken front to back, by claimants that have none elsewhere. -/
structure PageInOrder (sizes : KeySetSizes) (page : List KeyPlace) : Prop where
  packed : Packed KeyPlace.claimedUuid page
  oncePerOwner : OncePerOwner KeyPlace.claimedUuid page
  freeBeyond : FreeBeyond KeyPlace.claimedUuid sizes.numBitcoinKeysOnEachPage page

/-- A page nobody has claimed anything on is in order. -/
lemma PageInOrder.of_free {sizes : KeySetSizes} {page : List KeyPlace}
    (h : ∀ place ∈ page, place.claimedUuid = none) : PageInOrder sizes page where
  packed := List.pairwise_of_forall_mem_list fun _ _ b hb hne => absurd (h b hb) hne
  oncePerOwner := List.pairwise_of_forall_mem_list fun a ha _ _ hne => absurd (h a ha) hne
  freeBeyond _ b _ hb := h b (List.mem_of_getElem? hb)

/-- Taking a place on a page in order leaves it in order. -/
lemma PageInOrder.took {sizes : KeySetSizes} {page page' : List KeyPlace} {place : KeyPlace}
    {uuid : GetKeyUuid} {username : Username} (h : PageInOrder sizes page)
    (htook : claim KeyPlace.claimedUuid (KeyPlace.claimFor uuid username) uuid
      sizes.numBitcoinKeysOnEachPage page = .took place page') : PageInOrder sizes page' where
  packed := h.packed.took (fun _ => rfl) htook
  oncePerOwner := h.oncePerOwner.took h.packed (fun _ => rfl) htook
  freeBeyond := h.freeBeyond.took htook

/-- The rule for documents. -/
def RequestDocOk (sizes : KeySetSizes) : DocRule Note Doc
  | st, .userAccount _, doc =>
      ∀ setN pageY uuid, doc.bitcoinState = .GettingKey setN pageY uuid →
        ∀ q < pageY, PassedBy sizes st uuid setN q
  | st, .bitcoinKeySetPage setN pageY, page =>
      PageInOrder sizes page ∧ ∀ place ∈ page, ∀ uuid, place.claimedUuid = some uuid →
        IsGettingKey st uuid setN ∧ ∀ q < pageY, PassedBy sizes st uuid setN q
  | st, .bitcoinKeySetCurrentPage setN, doc =>
      ∀ q < KeySetCurrentPageDoc.page doc, PageExhausted sizes st setN q
  | _, _, _ => True

/-- The rule for versions: an account stays in `GettingKey` with its set and uuid until it has a
key that was claimed with that uuid. -/
def RequestVersionOk : VersionRule Note Doc
  | st, .userAccount u, before, after =>
      ∀ setN pageY uuid, before.bitcoinState = .GettingKey setN pageY uuid →
        (∃ pageY', after.bitcoinState = .GettingKey setN pageY' uuid) ∨
          ∃ key, after.bitcoinState = .HaveKey key ∧ KeyClaimed st key uuid u
  | _, _, _, _ => True

/-- The invariant of requests. -/
abbrev RequestsOk (sizes : KeySetSizes) (st : Db) : Prop :=
  Keeps (RequestDocOk sizes) RequestVersionOk st

lemma requestRules_growsWith {sizes : KeySetSizes} :
    GrowsWith (RequestDocOk sizes) RequestVersionOk where
  doc {st st' k d} hst h := by
    cases k with
    | userAccount u =>
        exact fun setN pageY uuid hstate q hq => (h setN pageY uuid hstate q hq).mono hst
    | bitcoinKeySetPage setN pageY =>
        refine ⟨h.1, fun place hmem uuid hclaimed => ?_⟩
        obtain ⟨hgetting, hpassed⟩ := h.2 place hmem uuid hclaimed
        exact ⟨hgetting.mono hst, fun q hq => (hpassed q hq).mono hst⟩
    | bitcoinKeySetCurrentPage setN => exact fun q hq => (h q hq).mono hst
    | _ => exact h
  version {st st' k d e} hst h := by
    cases k with
    | userAccount u =>
        intro setN pageY uuid hstate
        rcases h setN pageY uuid hstate with hstays | ⟨key, hkey, hclaimed⟩
        · exact .inl hstays
        · exact .inr ⟨key, hkey, hclaimed.mono hst⟩
    | _ => exact h

lemma KeysStart.requestsOk {st : Db} (h : KeysStart st) (sizes : KeySetSizes) :
    RequestsOk sizes st where
  docs k c d hd := by
    cases k with
    | userAccount u =>
        intro setN pageY uuid hstate
        rw [h.noKey u c d hd] at hstate
        cases hstate
    | bitcoinKeySetPage setN pageY =>
        have hfree (place : KeyPlace) (hmem : place ∈ d) : place.claimedUuid = none := by
          rw [KeyPlace.claimedUuid, h.pageFree setN pageY c d hd place hmem]
          rfl
        refine ⟨.of_free hfree, fun place hmem uuid hclaimed => ?_⟩
        rw [hfree place hmem] at hclaimed
        cases hclaimed
    | bitcoinKeySetCurrentPage setN =>
        obtain rfl := h.currentPage setN c d hd
        exact fun q hq => absurd hq (Nat.not_lt_zero q)
    | _ => trivial
  versions k := by
    cases k with
    | userAccount u =>
        intro c d v hd _ setN pageY uuid hstate
        rw [h.noKey u c d hd] at hstate
        cases hstate
    | _ => exact fun c d v hd hv => trivial

/-! ## What a search leaves behind stays as it is -/

namespace KeysOk

variable {sizes : KeySetSizes} {st₀ st : Db} {uuid : GetKeyUuid} {setN pageY c c' : ℕ}
  {page : List KeyPlace}

/-- An exhausted page is the current one. -/
lemma current_of_exhausted (h : KeysOk sizes st₀ st)
    (hpage : (st (.bitcoinKeySetPage setN pageY)).docAt c = some page)
    (hfull : Exhausted KeyPlace.claimedUuid sizes.numBitcoinKeysOnEachPage page) :
    c = (st (.bitcoinKeySetPage setN pageY)).cas := by
  have hc := Cell.docAt_bounds hpage
  by_contra hne
  obtain ⟨v, hv⟩ := Cell.exists_version (x := st (.bitcoinKeySetPage setN pageY)) (c := c + 1)
    (by omega) (by omega)
  exact hfull.not_takes (h.versions (.bitcoinKeySetPage setN pageY) c page v hpage hv)

/-- A uuid is, and was, on no version of a page a search for it has passed by. -/
lemma not_claimed_of_passedBy (h : KeysOk sizes st₀ st)
    (hpassed : PassedBy sizes st uuid setN pageY)
    (hpage : (st (.bitcoinKeySetPage setN pageY)).docAt c = some page) :
    ∀ place ∈ page, place.claimedUuid ≠ some uuid := by
  obtain ⟨c', page', hpage', hfull, hnot⟩ := hpassed
  have hcurrent := h.current_of_exhausted hpage' hfull
  have hc := Cell.docAt_bounds hpage
  intro place hmem hclaimed
  obtain ⟨i, hi⟩ := List.getElem?_of_mem hmem
  have hstays := h.later (k := .bitcoinKeySetPage setN pageY)
    (P := fun d : List KeyPlace => d[i]? = some place)
    (fun d e hd hde => Takes.getElem?_of_claimed hde hd (by rw [hclaimed]; simp))
    (by omega) hpage hpage' hi
  exact hnot place (List.mem_of_getElem? hstays) hclaimed

end KeysOk

/-! ## A uuid is on one place -/

namespace RequestsOk

variable {sizes : KeySetSizes} {st₀ st : Db} {uuid : GetKeyUuid} {u u' : Username}
  {setN setN' pageY pageY' i i' : ℕ} {place place' : KeyPlace}

/-- Everything before a page with a claim on it was passed by. -/
lemma passedBy_of_claimed (h : RequestsOk sizes st)
    (hp : PlaceClaimed st setN pageY i place uuid u) :
    ∀ q < pageY, PassedBy sizes st uuid setN q := by
  obtain ⟨c, page, hpage, hplace, hclaimed⟩ := hp
  exact ((h.docs (.bitcoinKeySetPage setN pageY) c page hpage).2 place
    (List.mem_of_getElem? hplace) uuid (by simp [KeyPlace.claimedUuid, hclaimed])).2

lemma not_lt_of_claimed (h : RequestsOk sizes st) (hkeys : KeysOk sizes st₀ st)
    (hp : PlaceClaimed st setN pageY i place uuid u)
    (hp' : PlaceClaimed st setN pageY' i' place' uuid u') : ¬ pageY < pageY' := by
  intro hlt
  obtain ⟨c, page, hpage, hplace, hclaimed⟩ := hp
  exact hkeys.not_claimed_of_passedBy (h.passedBy_of_claimed hp' pageY hlt) hpage place
    (List.mem_of_getElem? hplace) (by simp [KeyPlace.claimedUuid, hclaimed])

/-- On one version of a page the uuid has one place. -/
lemma index_unique {page : List KeyPlace} (horder : PageInOrder sizes page)
    (hplace : page[i]? = some place) (hplace' : page[i']? = some place')
    (hclaimed : place.claimedUuid = some uuid) (hclaimed' : place'.claimedUuid = some uuid) :
    i = i' := by
  have honce := List.pairwise_iff_getElem.1 horder.oncePerOwner
  obtain ⟨hi, rfl⟩ := List.getElem?_eq_some_iff.1 hplace
  obtain ⟨hi', rfl⟩ := List.getElem?_eq_some_iff.1 hplace'
  rcases Nat.lt_trichotomy i i' with hlt | heq | hgt
  · exact absurd (hclaimed.trans hclaimed'.symm) (honce i i' hi hi' hlt (by simp [hclaimed]))
  · exact heq
  · exact absurd (hclaimed'.trans hclaimed.symm) (honce i' i hi' hi hgt (by simp [hclaimed']))

/-- A uuid is claimed on one place, over all pages of all sets and all times. -/
lemma place_unique (h : RequestsOk sizes st) (hkeys : KeysOk sizes st₀ st)
    (hp : PlaceClaimed st setN pageY i place uuid u)
    (hp' : PlaceClaimed st setN' pageY' i' place' uuid u') :
    setN = setN' ∧ pageY = pageY' ∧ i = i' := by
  have hrequested {n y j : ℕ} {p : KeyPlace} {v : Username} (hp : PlaceClaimed st n y j p uuid v) :
      Requested st uuid v n := by
    obtain ⟨c, page, hpage, hplace, hclaimed⟩ := hp
    exact (hkeys.docs (.bitcoinKeySetPage n y) c page hpage).2 p uuid v
      (List.mem_of_getElem? hplace) hclaimed
  obtain ⟨-, rfl⟩ := (hrequested hp).unique (hrequested hp')
  obtain rfl : pageY = pageY' := Nat.le_antisymm
    (Nat.not_lt.1 (h.not_lt_of_claimed hkeys hp' hp))
    (Nat.not_lt.1 (h.not_lt_of_claimed hkeys hp hp'))
  refine ⟨rfl, rfl, ?_⟩
  obtain ⟨c, page, hpage, hplace, hclaimed⟩ := hp
  obtain ⟨c', page', hpage', hplace', hclaimed'⟩ := hp'
  have howned {p : KeyPlace} {v : Username} (hp : p.claimed = some (uuid, v)) :
      p.claimedUuid = some uuid := by simp [KeyPlace.claimedUuid, hp]
  have hstays {j c c' : ℕ} {p : KeyPlace} {page page' : List KeyPlace}
      (hd : p.claimedUuid = some uuid) (hc : c ≤ c')
      (hpage : (st (.bitcoinKeySetPage setN pageY)).docAt c = some page)
      (hpage' : (st (.bitcoinKeySetPage setN pageY)).docAt c' = some page')
      (hplace : page[j]? = some p) : page'[j]? = some p :=
    hkeys.later (k := .bitcoinKeySetPage setN pageY) (P := fun d : List KeyPlace => d[j]? = some p)
      (fun d e hde hstep => Takes.getElem?_of_claimed hstep hde (by rw [hd]; simp)) hc hpage hpage'
      hplace
  -- the claims are compared on the later of the two versions
  rcases Nat.le_total c c' with hc | hc
  · exact index_unique (h.docs (.bitcoinKeySetPage setN pageY) c' page' hpage').1
      (hstays (howned hclaimed) hc hpage hpage' hplace) hplace' (howned hclaimed)
      (howned hclaimed')
  · exact index_unique (h.docs (.bitcoinKeySetPage setN pageY) c page hpage).1 hplace
      (hstays (howned hclaimed') hc hpage' hpage hplace') (howned hclaimed)
      (howned hclaimed')

end RequestsOk

end Autobackup.Abc2
