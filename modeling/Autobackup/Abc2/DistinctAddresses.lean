import Autobackup.Abc2.KeysInitialised
import Autobackup.Abc2.SavedKeys

/-!
# A deposit address is never given to two users

The results about the key procedure that hold in every run: pages have no key in common, a key
is claimed by one request, and no two users ever have the same key.  They are read off the rules
for keys (`Autobackup.Abc2.KeyPages`), which every run keeps (`keys_of_reaches`).

Versions that were overwritten count as well as those that are current: an address that a user was
shown stays theirs after the document has moved on.  That the lists of keys that are brought in have
no key in common (`KeysStart`) is asked of the start; it is what generating keys gives, and the
programs never check it.
-/

namespace Autobackup.Abc2

/-- **Deposit addresses are distinct.**  In every reachable state, of the versions that documents
have or ever had: two pages of key sets with a common key are the same page; two claims of places
with the same key have the same uuid; two accounts in `HaveKey` with the same key are the same
account.  Coins that arrive at an address are creditted to whoever has it, so two users with one
address would share a balance.  The set that a tab draws from is chosen at random; the statement is
for every choice. -/
theorem deposit_addresses_distinct {ι : Type} [DecidableEq ι] {sizes : KeySetSizes}
    {w₀ w : System ι} (hstart : KeysStart w₀.store) (hprocesses : ∀ i, (w₀.client i).Initial)
    (hreach : Reaches (Process.act sizes) anyStep w₀ w) :
    (∀ setN pageY setN' pageY' c c' page page' key,
      (w.store (.bitcoinKeySetPage setN pageY)).docAt c = some page →
      (w.store (.bitcoinKeySetPage setN' pageY')).docAt c' = some page' →
      key ∈ page.map KeyPlace.key → key ∈ page'.map KeyPlace.key →
      setN = setN' ∧ pageY = pageY') ∧
    (∀ setN pageY setN' pageY' c c' page page' place place' uuid uuid',
      (w.store (.bitcoinKeySetPage setN pageY)).docAt c = some page →
      (w.store (.bitcoinKeySetPage setN' pageY')).docAt c' = some page' →
      place ∈ page → place' ∈ page' → place.key = place'.key →
      place.claimedUuid = some uuid → place'.claimedUuid = some uuid' → uuid = uuid') ∧
    ∀ u u' c c' doc doc' key, (w.store (.userAccount u)).docAt c = some doc →
      (w.store (.userAccount u')).docAt c' = some doc' → doc.bitcoinState = .HaveKey key →
      doc'.bitcoinState = .HaveKey key → u = u' := by
  obtain ⟨⟨-, hok⟩, -⟩ := keys_of_reaches hstart hprocesses hreach
  refine ⟨?_, ?_, fun u u' c c' doc doc' key hdoc hdoc' hkey hkey' =>
    hok.sameUser hstart hdoc hdoc' hkey hkey'⟩
  · intro setN pageY setN' pageY' c c' page page' key hpage hpage' hkey hkey'
    obtain ⟨place, hmem, rfl⟩ := List.mem_map.1 hkey
    obtain ⟨place', hmem', hsame⟩ := List.mem_map.1 hkey'
    obtain ⟨i, hi⟩ := List.getElem?_of_mem hmem
    obtain ⟨i', hi'⟩ := List.getElem?_of_mem hmem'
    exact (hok.samePlace hstart hpage hpage' hi hi' hsame.symm).1
  · intro setN pageY setN' pageY' c c' page page' place place' uuid uuid' hpage hpage' hmem hmem'
      hsame huuid huuid'
    obtain ⟨i, hi⟩ := List.getElem?_of_mem hmem
    obtain ⟨i', hi'⟩ := List.getElem?_of_mem hmem'
    obtain ⟨⟨v, username⟩, hclaimed, rfl⟩ := Option.map_eq_some_iff.1 huuid
    obtain ⟨⟨v', username'⟩, hclaimed', rfl⟩ := Option.map_eq_some_iff.1 huuid'
    exact (hok.keyClaimed_unique hstart
      ⟨setN, pageY, i, place, ⟨c, page, hpage, hi, hclaimed⟩, rfl⟩
      ⟨setN', pageY', i', place', ⟨c', page', hpage', hi', hclaimed'⟩, hsame.symm⟩).1

/-- A database with one key set, one key on its page, one range of one key in the huge list, and
two users. -/
def oneSet : Db :=
  initializedDb (fun u => if u = "anna" ∨ u = "bob" then some { balanceInSatoshis := 0 } else none)
    [["A"]] [[["B"]]]

lemma oneSet_keysStart : KeysStart oneSet := by
  refine initializedDb_keysStart (fun u d hd => ?_) (by decide)
  split at hd
  · obtain rfl := Option.some.inj hd
    exact ⟨.of_not_locked rfl rfl, rfl⟩
  · cases hd

/-- A tab is opened, the button is clicked, and the procedure runs for `n` operations. -/
def getBitcoinKey (uuid : GetKeyUuid) (n : ℕ) : List ProcessInput :=
  [.addFunds .populateAndInitialize, .addFunds (.proceed 0 uuid),
    .addFunds .handleGetBitcoinKeyButtonClicked] ++
  List.replicate n (.addFunds (.proceed 0 uuid))

/-- A tab of each user. -/
def twoTabs : System Bool where
  store := oneSet
  client i := .addFunds { currentlyLoggedInUsername := if i then "bob" else "anna" }

/-- Anna gets the key of the page, and Bob has to make the next page out of the range. -/
theorem deposit_addresses_distinct_twoTabs :
    let w := twoTabs.run (Process.act ⟨1, 1, 1⟩)
      ((getBitcoinKey 1 8).map (false, ·) ++ (getBitcoinKey 2 20).map (true, ·))
    ∃ doc doc' key key', (w.store (.userAccount "anna")).current = some doc ∧
      (w.store (.userAccount "bob")).current = some doc' ∧ doc.bitcoinState = .HaveKey key ∧
      doc'.bitcoinState = .HaveKey key' ∧ key ≠ key' := by
  intro w
  have hanna : (w.store (.userAccount "anna")).current =
      some { balanceInSatoshis := 0, bitcoinState := .HaveKey "A" } := by decide +kernel
  have hbob : (w.store (.userAccount "bob")).current =
      some { balanceInSatoshis := 0, bitcoinState := .HaveKey "B" } := by decide +kernel
  refine ⟨_, _, _, _, hanna, hbob, rfl, rfl, fun hsame => ?_⟩
  have := (deposit_addresses_distinct oneSet_keysStart (fun _ => .addFunds _)
    (reaches_run _ _)).2.2 "anna" "bob" _ _ _ _ _ hanna hbob rfl (by rw [hsame])
  exact absurd this (by decide)

end Autobackup.Abc2
