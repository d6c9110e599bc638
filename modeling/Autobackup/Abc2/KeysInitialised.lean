import Mathlib.Data.List.Nodup
import Autobackup.Abc2.KeyPages

/-!
# The database as Abc2dbInitializer leaves it

The initializer reads a file of bitcoin keys.  The first of them go to page 0 of the key sets,
the rest to the pages of the huge key list.  `initializedDb` is the store afterwards, for keys
already split into sets, pages and ranges, together with the accounts registered since.  If no
key is twice in the file, it is a start in the sense of `KeysStart`.
-/

namespace Autobackup

/-- In a list of lists without duplicates an element has one position. -/
lemma eq_of_nodup_flatten {α : Type} {ls : List (List α)} (h : ls.flatten.Nodup) {i i' j j' : ℕ}
    {l l' : List α} {a : α} (hi : ls[i]? = some l) (hj : l[j]? = some a) (hi' : ls[i']? = some l')
    (hj' : l'[j']? = some a) : i = i' ∧ j = j' := by
  obtain ⟨hnodup, hdisjoint⟩ := List.nodup_flatten.1 h
  rw [List.pairwise_iff_getElem] at hdisjoint
  obtain ⟨hlt, rfl⟩ := List.getElem?_eq_some_iff.1 hi
  obtain ⟨hlt', rfl⟩ := List.getElem?_eq_some_iff.1 hi'
  have ha := List.mem_of_getElem? hj
  have ha' := List.mem_of_getElem? hj'
  obtain rfl : i = i' := by
    rcases Nat.lt_trichotomy i i' with h | h | h
    · exact absurd ha' (hdisjoint i i' hlt hlt' h ha)
    · exact h
    · exact absurd ha (hdisjoint i' i hlt' hlt h ha')
  refine ⟨rfl, ?_⟩
  obtain ⟨hj_lt, -⟩ := List.getElem?_eq_some_iff.1 hj
  exact (List.getElem?_inj hj_lt (hnodup _ (List.getElem_mem hlt))).1 (hj.trans hj'.symm)

namespace Abc2

/-- The first version of a document, where there is something to make it of. -/
def created {k : Key} {α : Type} (source : Option α) (doc : α → Doc k) : Cell Note (Doc k) :=
  source.elim Cell.absent fun a => Cell.absent.push .document (doc a)

section

variable {k : Key} {α : Type} {source : Option α} {doc : α → Doc k}

lemma cas_created_le : (created source doc).cas ≤ 1 := by
  cases source with
  | none => exact Nat.zero_le 1
  | some a => exact Nat.le_refl 1

lemma docAt_created {c : ℕ} {d : Doc k} (h : (created source doc).docAt c = some d) :
    ∃ a, source = some a ∧ d = doc a := by
  cases source with
  | none =>
      rw [created, Option.elim_none, Cell.docAt_absent] at h
      cases h
  | some a =>
      rw [created, Option.elim_some, Cell.docAt_push, Cell.docAt_absent] at h
      split at h
      · exact ⟨a, rfl, (Option.some.inj h).symm⟩
      · cases h

end

/-- The store with these accounts, key sets and pages of the huge key list. -/
def initializedDb (accounts : Username → Option UserAccount) (sets : List (List BitcoinKey))
    (hugeList : List (List (List BitcoinKey))) : Db
  | .userAccount u => created (k := .userAccount u) (accounts u) id
  | .bitcoinKeySetPage setN 0 =>
      created (k := .bitcoinKeySetPage setN 0) sets[setN]? (·.map fun key => { key := key })
  | .bitcoinKeySetCurrentPage setN =>
      created (k := .bitcoinKeySetCurrentPage setN) sets[setN]? fun _ => .currentPage 0
  | .hugeBitcoinKeyListPage pageZ =>
      created (k := .hugeBitcoinKeyListPage pageZ) hugeList[pageZ]?
        (·.map fun keys => { keys := keys })
  | .hugeBitcoinKeyListCurrentPage =>
      created (k := .hugeBitcoinKeyListCurrentPage) (some 0) id
  | _ => Cell.absent

section

variable {accounts : Username → Option UserAccount} {sets : List (List BitcoinKey)}
  {hugeList : List (List (List BitcoinKey))}

lemma keys_page_of_initializedDb {setN pageY j : ℕ} {key : BitcoinKey}
    (h : ((KeySource.page setN pageY).keys (initializedDb accounts sets hugeList))[j]? =
      some key) :
    pageY = 0 ∧ ∃ keys, sets[setN]? = some keys ∧ keys[j]? = some key := by
  cases pageY with
  | zero =>
      simp only [KeySource.keys] at h
      cases hpage : (initializedDb accounts sets hugeList (.bitcoinKeySetPage setN 0)).docAt 1 with
      | none => simp [hpage] at h
      | some page =>
          rw [hpage] at h
          obtain ⟨keys, hset, rfl⟩ := docAt_created hpage
          exact ⟨rfl, keys, hset, by simpa [Function.comp_def] using h⟩
  | succ pageY =>
      simp [KeySource.keys, initializedDb] at h

lemma keys_range_of_initializedDb {pageZ i j : ℕ} {key : BitcoinKey}
    (h : ((KeySource.range pageZ i).keys (initializedDb accounts sets hugeList))[j]? =
      some key) :
    ∃ ranges keys, hugeList[pageZ]? = some ranges ∧ ranges[i]? = some keys ∧
      keys[j]? = some key := by
  simp only [KeySource.keys] at h
  cases hpage : (initializedDb accounts sets hugeList (.hugeBitcoinKeyListPage pageZ)).docAt 1 with
  | none => simp [hpage] at h
  | some page =>
      rw [hpage] at h
      obtain ⟨ranges, hranges, rfl⟩ := docAt_created hpage
      cases hrange : ranges[i]? with
      | none => simp [hrange] at h
      | some keys => exact ⟨ranges, keys, hranges, hrange, by simpa [hrange] using h⟩

/-- The keys of different sources, and those of one source, are different. -/
lemma distinct_of_nodup (hkeys : (sets.flatten ++ hugeList.flatten.flatten).Nodup)
    (source source' : KeySource) (j j' : ℕ) (key : BitcoinKey)
    (h : (source.keys (initializedDb accounts sets hugeList))[j]? = some key)
    (h' : (source'.keys (initializedDb accounts sets hugeList))[j']? = some key) :
    source = source' ∧ j = j' := by
  obtain ⟨hsets, hhuge, hdisjoint⟩ := List.nodup_append.1 hkeys
  have hapart {setN pageZ i a b : ℕ} {keys range : List BitcoinKey}
      {ranges : List (List BitcoinKey)} (hset : sets[setN]? = some keys)
      (hkey : keys[a]? = some key) (hpage : hugeList[pageZ]? = some ranges)
      (hrange : ranges[i]? = some range) (hkey' : range[b]? = some key) : False := by
    refine hdisjoint key (List.mem_flatten.2 ⟨keys, List.mem_of_getElem? hset,
      List.mem_of_getElem? hkey⟩) key (List.mem_flatten.2 ⟨range, List.mem_flatten.2 ⟨ranges,
      List.mem_of_getElem? hpage, List.mem_of_getElem? hrange⟩, List.mem_of_getElem? hkey'⟩) rfl
  cases source with
  | page setN pageY =>
      obtain ⟨rfl, keys, hset, hkey⟩ := keys_page_of_initializedDb h
      cases source' with
      | page setN' pageY' =>
          obtain ⟨rfl, keys', hset', hkey'⟩ := keys_page_of_initializedDb h'
          obtain ⟨rfl, rfl⟩ := eq_of_nodup_flatten hsets hset hkey hset' hkey'
          exact ⟨rfl, rfl⟩
      | range pageZ i =>
          obtain ⟨ranges, keys', hpage, hrange, hkey'⟩ := keys_range_of_initializedDb h'
          exact (hapart hset hkey hpage hrange hkey').elim
  | range pageZ i =>
      obtain ⟨ranges, keys, hpage, hrange, hkey⟩ := keys_range_of_initializedDb h
      cases source' with
      | page setN' pageY' =>
          obtain ⟨rfl, keys', hset', hkey'⟩ := keys_page_of_initializedDb h'
          exact (hapart hset' hkey' hpage hrange hkey).elim
      | range pageZ' i' =>
          obtain ⟨ranges', keys', hpage', hrange', hkey'⟩ := keys_range_of_initializedDb h'
          -- two levels of lists: first the page, then the range on it
          have hmem := List.mem_flatten.2 ⟨keys, List.mem_of_getElem? hrange,
            List.mem_of_getElem? hkey⟩
          have hmem' := List.mem_flatten.2 ⟨keys', List.mem_of_getElem? hrange',
            List.mem_of_getElem? hkey'⟩
          obtain ⟨a, ha⟩ := List.getElem?_of_mem hmem
          obtain ⟨b, hb⟩ := List.getElem?_of_mem hmem'
          rw [List.flatten_flatten] at hhuge
          have hz : (hugeList.map List.flatten)[pageZ]? = some ranges.flatten := by
            rw [List.getElem?_map, hpage]
            rfl
          have hz' : (hugeList.map List.flatten)[pageZ']? = some ranges'.flatten := by
            rw [List.getElem?_map, hpage']
            rfl
          obtain ⟨rfl, -⟩ := eq_of_nodup_flatten hhuge hz ha hz' hb
          obtain rfl := Option.some.inj (hpage.symm.trans hpage')
          have hpageNodup : ranges.flatten.Nodup :=
            (List.nodup_flatten.1 hhuge).1 _ (List.mem_map.2 ⟨ranges,
              List.mem_of_getElem? hpage, rfl⟩)
          obtain ⟨rfl, rfl⟩ := eq_of_nodup_flatten hpageNodup hrange hkey hrange' hkey'
          exact ⟨rfl, rfl⟩

/-- A file of different keys makes a start, whatever accounts there are, as long as none of them
has anything to do with keys yet. -/
lemma initializedDb_keysStart
    (haccounts : ∀ u d, accounts u = some d → d.WellFormed ∧ d.bitcoinState = .NoKey)
    (hkeys : (sets.flatten ++ hugeList.flatten.flatten).Nodup) :
    KeysStart (initializedDb accounts sets hugeList) where
  accounts :=
    { single := fun _ => cas_created_le
      wellFormed := fun u c d hd => by
        obtain ⟨a, ha, rfl⟩ := docAt_created hd
        exact (haccounts u _ ha).1 }
  noKey u c d hd := by
    obtain ⟨a, ha, rfl⟩ := docAt_created hd
    exact (haccounts u _ ha).2
  noRequest _ := rfl
  currentPage setN c d hd := by
    obtain ⟨-, -, rfl⟩ := docAt_created hd
    rfl
  pageOnce setN pageY := by
    cases pageY with
    | zero => exact cas_created_le
    | succ pageY => exact Nat.zero_le 1
  pageFree setN pageY c page hpage place hmem := by
    cases pageY with
    | zero =>
        obtain ⟨keys, -, rfl⟩ := docAt_created hpage
        obtain ⟨key, -, rfl⟩ := List.mem_map.1 hmem
        rfl
    | succ pageY =>
        have hpage : (Cell.absent : Cell Note (List KeyPlace)).docAt c = some page := hpage
        rw [Cell.docAt_absent] at hpage
        cases hpage
  hugePageOnce _ := cas_created_le
  distinct := distinct_of_nodup hkeys

end

end Abc2

end Autobackup
