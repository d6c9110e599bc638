import Autobackup.Abc2.AccountHistory
import Autobackup.Foundation.DocumentRules

/-!
# Where the keys are

Deposit addresses start out on page 0 of a key set or in a range of the huge key list.  A claimed
range becomes a page of the set that claimed it, and a claimed place on a page gives its key to
the account that made the request.  `KeyDocOk` says what every document that takes part must be
like, `KeyVersionOk` that pages change only by somebody taking a place.

From these rules alone follows that no key goes two ways (`KeysOk.samePlace`,
`KeysOk.keyClaimed_unique`, `KeysOk.sameUser`): a key has one `KeySource`, a source becomes one
page, a place has one claim.
-/

namespace Autobackup.Abc2

/-! ## Pages that change by claims -/

/-- Somebody has taken a place on a page of a set. -/
def TakesPlace (sizes : KeySetSizes) : List KeyPlace → List KeyPlace → Prop :=
  Takes KeyPlace.claimedUuid Prod.fst (fun w => KeyPlace.claimFor w.1 w.2)
    sizes.numBitcoinKeysOnEachPage

/-- Somebody has taken a range on a page of the huge key list. -/
def TakesRange (sizes : KeySetSizes) : List KeyRange → List KeyRange → Prop :=
  Takes KeyRange.claimedUuid id KeyRange.claimFor sizes.numBitcoinKeyRangesOnEachPage

section

variable {sizes : KeySetSizes}

lemma TakesPlace.keys {page page' : List KeyPlace} (h : TakesPlace sizes page page') :
    page'.map KeyPlace.key = page.map KeyPlace.key := by
  refine Takes.map_eq ?_ h
  exact fun _ _ => rfl

lemma TakesRange.keys {page page' : List KeyRange} (h : TakesRange sizes page page') :
    page'.map KeyRange.keys = page.map KeyRange.keys := by
  refine Takes.map_eq ?_ h
  exact fun _ _ => rfl

end

/-- How one version of a key page follows from the other. -/
def KeyVersionOk (sizes : KeySetSizes) : VersionRule Note Doc
  | _, .bitcoinKeySetPage _ _, page, page' => TakesPlace sizes page page'
  | _, .hugeBitcoinKeyListPage _, page, page' => TakesRange sizes page page'
  | _, _, _, _ => True

/-! ## Sources, claims and requests -/

/-- Where a key was when the database was initialised. -/
inductive KeySource
  | page (setN pageY : ℕ)
  | range (pageZ i : ℕ)

/-- The keys of a source. -/
def KeySource.keys (st : Db) : KeySource → List BitcoinKey
  | .page setN pageY => ((st (.bitcoinKeySetPage setN pageY)).docAt 1).elim [] (·.map KeyPlace.key)
  | .range pageZ i =>
      (((st (.hugeBitcoinKeyListPage pageZ)).docAt 1).bind (·[i]?)).elim [] KeyRange.keys

/-- The range `i` on page `pageZ` of the huge key list is claimed for filling. -/
def RangeClaimed (st : Db) (pageZ i : ℕ) (uuid : FillUuid) : Prop :=
  ∃ c page range, (st (.hugeBitcoinKeyListPage pageZ)).docAt c = some page ∧
    page[i]? = some range ∧ range.claimedUuid = some uuid

/-- The source is the one that became the page `pageY` of the set. -/
def KeySource.Becomes (st : Db) (setN pageY : ℕ) : KeySource → Prop
  | .page setN' pageY' => setN' = setN ∧ pageY' = pageY
  | .range pageZ i => RangeClaimed st pageZ i ⟨setN, pageY⟩

/-- The page has, or once had, the place with a claim on it. -/
def PlaceClaimed (st : Db) (setN pageY i : ℕ) (place : KeyPlace) (uuid : GetKeyUuid)
    (username : Username) : Prop :=
  ∃ c page, (st (.bitcoinKeySetPage setN pageY)).docAt c = some page ∧
    page[i]? = some place ∧ place.claimed = some (uuid, username)

/-- A place with this key was claimed with `uuid` by `username`. -/
def KeyClaimed (st : Db) (key : BitcoinKey) (uuid : GetKeyUuid) (username : Username) : Prop :=
  ∃ setN pageY i place, PlaceClaimed st setN pageY i place uuid username ∧ place.key = key

/-- The uuid was drawn for a request of this user in this set. -/
def Requested (st : Db) (uuid : GetKeyUuid) (username : Username) (setN : ℕ) : Prop :=
  (st (.uuidPerKeyRequest uuid)).docAt 1 = some ⟨username, setN⟩

/-! ## The rule for documents -/

/-- What the bitcoin state of `username`'s account refers to. -/
def BitcoinStateOk (st : Db) (username : Username) : BitcoinState → Prop
  | .NoKey => True
  | .GettingKey setN _ uuid => Requested st uuid username setN
  | .HaveKey key => ∃ uuid, KeyClaimed st key uuid username

/-- The rule for documents, where `st₀` is the database as it was initialised. -/
def KeyDocOk (st₀ : Db) : DocRule Note Doc
  | st, .userAccount username, doc => BitcoinStateOk st username doc.bitcoinState
  | st, .bitcoinKeySetPage setN pageY, page =>
      (∃ source : KeySource, source.Becomes st setN pageY ∧
        page.map KeyPlace.key = source.keys st₀) ∧
      ∀ place uuid username, place ∈ page → place.claimed = some (uuid, username) →
        Requested st uuid username setN
  | _, .hugeBitcoinKeyListPage pageZ, page =>
      ∀ i range, page[i]? = some range → range.keys = (KeySource.range pageZ i).keys st₀
  | _, .bitcoinKeySetCurrentPage setN, .fillingNextBitcoinKeySetPage pageY uuidPerFill _ =>
      uuidPerFill = ⟨setN, pageY⟩
  | _, _, _ => True

/-- The invariant of the key documents. -/
abbrev KeysOk (sizes : KeySetSizes) (st₀ st : Db) : Prop :=
  Keeps (KeyDocOk st₀) (KeyVersionOk sizes) st

section Mono

variable {st st' : Db} {setN pageY pageZ i : ℕ} {uuid : GetKeyUuid} {username : Username}
  {key : BitcoinKey} {place : KeyPlace}

lemma RangeClaimed.mono {uuid : FillUuid} (hst : st ≤ st') (h : RangeClaimed st pageZ i uuid) :
    RangeClaimed st' pageZ i uuid := by
  obtain ⟨c, page, range, hpage, hfacts⟩ := h
  exact ⟨c, page, range, Cell.docAt_mono (hst _) hpage, hfacts⟩

lemma KeySource.Becomes.mono {source : KeySource} (hst : st ≤ st')
    (h : source.Becomes st setN pageY) : source.Becomes st' setN pageY := by
  cases source with
  | page setN' pageY' => exact h
  | range pageZ i => exact RangeClaimed.mono hst h

lemma PlaceClaimed.mono (hst : st ≤ st') (h : PlaceClaimed st setN pageY i place uuid username) :
    PlaceClaimed st' setN pageY i place uuid username := by
  obtain ⟨c, page, hpage, hfacts⟩ := h
  exact ⟨c, page, Cell.docAt_mono (hst _) hpage, hfacts⟩

lemma KeyClaimed.mono (hst : st ≤ st') (h : KeyClaimed st key uuid username) :
    KeyClaimed st' key uuid username := by
  obtain ⟨setN, pageY, i, place, hclaimed, hkey⟩ := h
  exact ⟨setN, pageY, i, place, hclaimed.mono hst, hkey⟩

lemma Requested.mono (hst : st ≤ st') (h : Requested st uuid username setN) :
    Requested st' uuid username setN :=
  Cell.docAt_mono (hst _) h

lemma Requested.unique {username' : Username} {setN' : ℕ} (h : Requested st uuid username setN)
    (h' : Requested st uuid username' setN') : username = username' ∧ setN = setN' :=
  KeyRequest.mk.inj (Option.some.inj (h.symm.trans h'))

/-- A fresh uuid is registered. -/
lemma requested_push (habsent : (st (.uuidPerKeyRequest uuid)).cas = 0) (note : Note) :
    Requested (st.push (.uuidPerKeyRequest uuid) note ⟨username, setN⟩) uuid username setN := by
  rw [Requested, Store.push_self, Cell.docAt_push, if_pos (by rw [habsent])]

lemma BitcoinStateOk.mono {state : BitcoinState} (hst : st ≤ st')
    (h : BitcoinStateOk st username state) : BitcoinStateOk st' username state := by
  cases state with
  | NoKey => trivial
  | GettingKey setN pageY uuid => exact Requested.mono hst h
  | HaveKey key =>
      obtain ⟨uuid, hclaimed⟩ := h
      exact ⟨uuid, hclaimed.mono hst⟩

lemma keyRules_growsWith {sizes : KeySetSizes} {st₀ : Db} :
    GrowsWith (KeyDocOk st₀) (KeyVersionOk sizes) where
  doc {st st' k d} hst h := by
    cases k with
    | userAccount u => exact BitcoinStateOk.mono hst h
    | bitcoinKeySetPage setN pageY =>
        obtain ⟨⟨source, hbecomes, hkeys⟩, hclaims⟩ := h
        exact ⟨⟨source, hbecomes.mono hst, hkeys⟩, fun place uuid u hmem hclaimed =>
          (hclaims place uuid u hmem hclaimed).mono hst⟩
    | bitcoinKeySetCurrentPage setN => cases d <;> exact h
    | _ => exact h
  version {st st' k d e} _ h := by cases k <;> exact h

end Mono

/-! ## The database as it is initialised -/

/-- Page 0 of every set is there and nothing has happened yet; every key is there once.  How many
keys a page or a range has does not matter. -/
structure KeysStart (st : Db) : Prop where
  accounts : AccountsStart st
  noKey : ∀ u c d, (st (.userAccount u)).docAt c = some d → d.bitcoinState = .NoKey
  noRequest : ∀ uuid, (st (.uuidPerKeyRequest uuid)).cas = 0
  currentPage : ∀ setN c d, (st (.bitcoinKeySetCurrentPage setN)).docAt c = some d →
    d = .currentPage 0
  pageOnce : ∀ setN pageY, (st (.bitcoinKeySetPage setN pageY)).cas ≤ 1
  pageFree : ∀ setN pageY c page, (st (.bitcoinKeySetPage setN pageY)).docAt c = some page →
    ∀ place ∈ page, place.claimed = none
  hugePageOnce : ∀ pageZ, (st (.hugeBitcoinKeyListPage pageZ)).cas ≤ 1
  distinct : ∀ (source source' : KeySource) (j j' : ℕ) key, (source.keys st)[j]? = some key →
    (source'.keys st)[j']? = some key → source = source' ∧ j = j'

lemma KeysStart.ok {st : Db} (h : KeysStart st) (sizes : KeySetSizes) : KeysOk sizes st st where
  docs k c d hd := by
    cases k with
    | userAccount u =>
        simp only [KeyDocOk]
        rw [h.noKey u c d hd]
        trivial
    | bitcoinKeySetPage setN pageY =>
        have honce := h.pageOnce setN pageY
        have hc := Cell.docAt_bounds hd
        obtain rfl : c = 1 := by omega
        refine ⟨⟨.page setN pageY, ⟨rfl, rfl⟩, by simp [KeySource.keys, hd]⟩, ?_⟩
        intro place uuid u hmem hclaimed
        rw [h.pageFree setN pageY 1 d hd place hmem] at hclaimed
        cases hclaimed
    | hugeBitcoinKeyListPage pageZ =>
        have honce := h.hugePageOnce pageZ
        have hc := Cell.docAt_bounds hd
        obtain rfl : c = 1 := by omega
        intro i range hrange
        simp [KeySource.keys, hd, hrange]
    | bitcoinKeySetCurrentPage setN =>
        obtain rfl := h.currentPage setN c d hd
        trivial
    | _ => trivial
  versions k := by
    cases k with
    | bitcoinKeySetPage setN pageY =>
        intro c d v hd hv
        have honce := h.pageOnce setN pageY
        have hc := Cell.docAt_bounds hd
        have hnext := Cell.version_bounds hv
        omega
    | hugeBitcoinKeyListPage pageZ =>
        intro c d v hd hv
        have honce := h.hugePageOnce pageZ
        have hc := Cell.docAt_bounds hd
        have hnext := Cell.version_bounds hv
        omega
    | _ => exact fun c d v hd hv => trivial

/-! ## No key goes two ways -/

namespace KeysOk

variable {sizes : KeySetSizes} {st₀ st : Db} {setN setN' pageY pageY' pageZ i : ℕ}
  {uuid uuid' : GetKeyUuid} {username username' : Username} {key : BitcoinKey}

/-- A claimed place of a page has one claim for ever. -/
lemma placeClaimed_unique (h : KeysOk sizes st₀ st) {place place' : KeyPlace}
    (hp : PlaceClaimed st setN pageY i place uuid username)
    (hp' : PlaceClaimed st setN pageY i place' uuid' username') : place = place' := by
  obtain ⟨c, page, hpage, hplace, hclaimed⟩ := hp
  obtain ⟨c', page', hpage', hplace', hclaimed'⟩ := hp'
  have howned {p : KeyPlace} {w : GetKeyUuid × Username} (hw : p.claimed = some w) :
      p.claimedUuid ≠ none := by simp [KeyPlace.claimedUuid, hw]
  exact h.sticky_unique (k := .bitcoinKeySetPage setN pageY) (f := fun d => d[i]?)
    (S := fun p => p.claimedUuid ≠ none)
    (fun p d e hS hd hde => Takes.getElem?_of_claimed hde hd hS) hpage hpage' hplace hplace'
    (howned hclaimed) (howned hclaimed')

/-- A claimed range of the huge key list has one claim for ever. -/
lemma rangeClaimed_unique (h : KeysOk sizes st₀ st) {fill fill' : FillUuid}
    (hr : RangeClaimed st pageZ i fill) (hr' : RangeClaimed st pageZ i fill') : fill = fill' := by
  obtain ⟨c, page, range, hpage, hrange, hclaimed⟩ := hr
  obtain ⟨c', page', range', hpage', hrange', hclaimed'⟩ := hr'
  obtain rfl : range = range' :=
    h.sticky_unique (k := .hugeBitcoinKeyListPage pageZ) (f := fun d => d[i]?)
      (S := fun r => r.claimedUuid ≠ none)
      (fun r d e hS hd hde => Takes.getElem?_of_claimed hde hd hS) hpage hpage' hrange hrange'
      (by simp [hclaimed]) (by simp [hclaimed'])
  exact Option.some.inj (hclaimed.symm.trans hclaimed')

/-- A source becomes one page only. -/
lemma becomes_unique (h : KeysOk sizes st₀ st) {source : KeySource}
    (hs : source.Becomes st setN pageY) (hs' : source.Becomes st setN' pageY') :
    setN = setN' ∧ pageY = pageY' := by
  cases source with
  | page n y =>
      obtain ⟨rfl, rfl⟩ := hs
      exact hs'
  | range pageZ i => exact FillUuid.mk.inj (h.rangeClaimed_unique hs hs')

/-- Where the keys of a page came from. -/
lemma source_of_page (h : KeysOk sizes st₀ st) {c : ℕ} {page : List KeyPlace}
    (hpage : (st (.bitcoinKeySetPage setN pageY)).docAt c = some page) :
    ∃ source : KeySource, source.Becomes st setN pageY ∧
      page.map KeyPlace.key = source.keys st₀ :=
  (h.docs (.bitcoinKeySetPage setN pageY) c page hpage).1

/-- Two pages with a common key are the same page, and the key is at the same place. -/
lemma samePlace (h : KeysOk sizes st₀ st) (hstart : KeysStart st₀) {c c' i i' : ℕ}
    {page page' : List KeyPlace} {place place' : KeyPlace}
    (hpage : (st (.bitcoinKeySetPage setN pageY)).docAt c = some page)
    (hpage' : (st (.bitcoinKeySetPage setN' pageY')).docAt c' = some page')
    (hplace : page[i]? = some place) (hplace' : page'[i']? = some place')
    (hkey : place.key = place'.key) : (setN = setN' ∧ pageY = pageY') ∧ i = i' := by
  obtain ⟨source, hbecomes, hkeys⟩ := h.source_of_page hpage
  obtain ⟨source', hbecomes', hkeys'⟩ := h.source_of_page hpage'
  obtain ⟨rfl, rfl⟩ := hstart.distinct source source' i i' place.key
    (by rw [← hkeys]; simp [hplace]) (by rw [← hkeys', hkey]; simp [hplace'])
  exact ⟨h.becomes_unique hbecomes hbecomes', rfl⟩

/-- A key is claimed once, by one user. -/
lemma keyClaimed_unique (h : KeysOk sizes st₀ st) (hstart : KeysStart st₀)
    (hc : KeyClaimed st key uuid username) (hc' : KeyClaimed st key uuid' username') :
    uuid = uuid' ∧ username = username' := by
  obtain ⟨setN, pageY, i, place, hclaimed, rfl⟩ := hc
  obtain ⟨setN', pageY', i', place', hclaimed', hkey⟩ := hc'
  have hp := hclaimed
  have hp' := hclaimed'
  obtain ⟨c, page, hpage, hplace, hw⟩ := hp
  obtain ⟨c', page', hpage', hplace', hw'⟩ := hp'
  obtain ⟨⟨rfl, rfl⟩, rfl⟩ := h.samePlace hstart hpage hpage' hplace hplace' hkey.symm
  obtain rfl := h.placeClaimed_unique hclaimed hclaimed'
  exact Prod.mk.inj (Option.some.inj (hw.symm.trans hw'))

/-- Accounts that have, or once had, the same key are the same account. -/
lemma sameUser (h : KeysOk sizes st₀ st) (hstart : KeysStart st₀) {c c' : ℕ}
    {doc doc' : UserAccount} (hdoc : (st (.userAccount username)).docAt c = some doc)
    (hdoc' : (st (.userAccount username')).docAt c' = some doc')
    (hkey : doc.bitcoinState = .HaveKey key) (hkey' : doc'.bitcoinState = .HaveKey key) :
    username = username' := by
  have hok := h.docs (.userAccount username) c doc hdoc
  have hok' := h.docs (.userAccount username') c' doc' hdoc'
  simp only [KeyDocOk, hkey] at hok
  simp only [KeyDocOk, hkey'] at hok'
  obtain ⟨uuid, hclaimed⟩ := hok
  obtain ⟨uuid', hclaimed'⟩ := hok'
  exact (h.keyClaimed_unique hstart hclaimed hclaimed').2

end KeysOk

end Autobackup.Abc2
