import Autobackup.Abc2.KeyBuilders
import Autobackup.Foundation.TextLines
import Autobackup.Foundation.TextParts
import Mathlib.Data.List.Range
import Mathlib.Logic.Function.Iterate

/-!
# Adding huge bitcoin key list pages

`Abc2hugeBitcoinKeyListPageAdder` reads keys from a file, one a line, and stores them by ten
thousands: a page has a hundred ranges, and a range a hundred keys, separated by commas.

After the last line it looks at the page only.  If fewer than a hundred keys were read since the
last page was stored, the page is empty, and it is done, although these keys were not stored
(`addsAllKeys_iff`).

The page that the next keys go to is counted in an `int` and its number written as text, and the
current page is the last one that was stored.  Left out are stores that fail; the program stops at
the first one.
-/

namespace Autobackup.Abc2

open QString

/-- `JSON_HUGE_BITCOIN_KEY_LIST_PAGE_KEY_RANGE_PREFIX`, with the number of the range. -/
def keyRange (range : ℕ) : Text := "keyRange".toList ++ number range

/-- A property tree of texts. -/
abbrev PropertyTree := List (Text × Text)

/-- `ptree::put`, of a key that has no children. -/
def PropertyTree.put (pt : PropertyTree) (key value : Text) : PropertyTree :=
  if pt.any (·.1 = key) then pt.map fun e => if e.1 = key then (key, value) else e
  else pt ++ [(key, value)]

structure KeyListPageAdder where
  hundredKeysInHugeBitcoinKeyListRangeCounter : ℕ
  hundredRangesInOneHugeBitcoinKeyListPageCounter : ℕ
  commaSeparated100bitcoinKeysInOneRangeBeingBuilt : Text
  currentPage : Text
  pt : PropertyTree
  /-- What couchbase has stored, all stores succeeding. -/
  stored : List (Text × PropertyTree)

/-- A text that is no `int` is read as 0, and the sum is an `int`. -/
def nextPage (currentPage : Text) : Text :=
  number (((toInt currentPage).getD 0 + 1).bmod (2 ^ 32))

namespace KeyListPageAdder

def start (nonExistentStartingPageIndex : Text) : KeyListPageAdder :=
  ⟨0, 0, [], nonExistentStartingPageIndex, [], []⟩

/-- A hundred ranges are stored. -/
def storePage (st : KeyListPageAdder) : KeyListPageAdder :=
  { st with
    stored := st.stored ++ [(hugeBitcoinKeyListPageKey st.currentPage, st.pt)]
    pt := []
    hundredRangesInOneHugeBitcoinKeyListPageCounter := 0
    currentPage := nextPage st.currentPage }

/-- A hundred keys are put into the page. -/
def putRange (st : KeyListPageAdder) : KeyListPageAdder :=
  let st := { st with
    pt := st.pt.put (keyRange st.hundredRangesInOneHugeBitcoinKeyListPageCounter)
      st.commaSeparated100bitcoinKeysInOneRangeBeingBuilt
    commaSeparated100bitcoinKeysInOneRangeBeingBuilt := []
    hundredKeysInHugeBitcoinKeyListRangeCounter := 0
    hundredRangesInOneHugeBitcoinKeyListPageCounter :=
      st.hundredRangesInOneHugeBitcoinKeyListPageCounter + 1 }
  -- a page is only stored when it is full, also at the end of the file
  if st.hundredRangesInOneHugeBitcoinKeyListPageCounter = 100 then st.storePage else st

/-- What the loop does with one line. -/
def addLine (st : KeyListPageAdder) (line : Text) : KeyListPageAdder :=
  let currentLine := trimmed line
  if currentLine.isEmpty then st
  else
    let separator := if st.hundredKeysInHugeBitcoinKeyListRangeCounter > 0 then [','] else []
    let st := { st with
      commaSeparated100bitcoinKeysInOneRangeBeingBuilt :=
        st.commaSeparated100bitcoinKeysInOneRangeBeingBuilt ++ separator ++ currentLine
      hundredKeysInHugeBitcoinKeyListRangeCounter :=
        st.hundredKeysInHugeBitcoinKeyListRangeCounter + 1 }
    if st.hundredKeysInHugeBitcoinKeyListRangeCounter = 100 then st.putRange else st

end KeyListPageAdder

/-- The pages, and whether `doneAddingHugeBitcoinKeyListPages` is emitted. -/
structure AddedPages where
  stored : List (Text × PropertyTree)
  done : Bool

def addHugeBitcoinKeyListPages (nonExistentStartingPageIndex file : Text) : AddedPages :=
  let st := (linesOf (readAsText file)).foldl KeyListPageAdder.addLine
    (KeyListPageAdder.start nonExistentStartingPageIndex)
  ⟨st.stored, st.pt.isEmpty⟩

/-! ## What it is for -/

/-- The keys of a file: its lines, trimmed, but for those that are blank. -/
def keysOfFile (file : Text) : List Text :=
  ((linesOf (readAsText file)).map trimmed).filter (· ≠ [])

def commaSeparated (keys : List Text) : Text := [','].intercalate keys

/-- The keys number 10000 * page + 100 * range and the ninety-nine behind it. -/
def keysOfRange (keys : List Text) (page range : ℕ) : Text :=
  commaSeparated ((keys.drop (10000 * page + 100 * range)).take 100)

/-- The first ranges of a page. -/
def rangesOfPage (keys : List Text) (page ranges : ℕ) : PropertyTree :=
  (List.range ranges).map fun range => (keyRange range, keysOfRange keys page range)

/-- **The stored pages have the keys of the file in order**, and it is done only if all keys were
stored. -/
structure AddsAllKeys (startingPageIndex : ℤ) (file : Text) : Prop where
  stored : ∀ (i : ℕ) page,
    (addHugeBitcoinKeyListPages (number startingPageIndex) file).stored[i]? = some page →
    page = (hugeBitcoinKeyListPageKey (number (startingPageIndex + i)),
      rangesOfPage (keysOfFile file) i 100)
  complete : (addHugeBitcoinKeyListPages (number startingPageIndex) file).done = true →
    ∀ k < (keysOfFile file).length,
      k / 10000 < (addHugeBitcoinKeyListPages (number startingPageIndex) file).stored.length

/-! ## What is there after some keys -/

variable {keys : List Text} {key startPage : Text} {page range ranges : ℕ}

lemma commaSeparated_concat (hne : keys ≠ []) :
    commaSeparated (keys ++ [key]) = commaSeparated keys ++ [','] ++ key := by
  unfold commaSeparated
  induction keys with
  | nil => exact absurd rfl hne
  | cons first keys ih =>
      by_cases hnil : keys = []
      · subst hnil
        rw [List.cons_append, List.nil_append, List.intercalate_cons_cons,
          List.intercalate_singleton, List.intercalate_singleton]
      · rw [List.cons_append, List.intercalate_cons_of_ne_nil (List.append_ne_nil_of_left_ne_nil
          hnil _), ih hnil, List.intercalate_cons_of_ne_nil hnil]
        simp only [List.append_assoc]

/-- A full range gets no other keys. -/
lemma keysOfRange_concat (h : 10000 * page + 100 * range + 100 ≤ keys.length) :
    keysOfRange (keys ++ [key]) page range = keysOfRange keys page range := by
  unfold keysOfRange
  rw [List.drop_append_of_le_length (by omega), List.take_append_of_le_length]
  rw [List.length_drop]
  omega

lemma rangesOfPage_concat (h : 10000 * page + 100 * ranges ≤ keys.length) :
    rangesOfPage (keys ++ [key]) page ranges = rangesOfPage keys page ranges := by
  apply List.map_congr_left
  intro range hrange
  have hlt := List.mem_range.1 hrange
  rw [keysOfRange_concat (by omega)]

/-- The index of the page after some pages. -/
def pageIndex (startPage : Text) (i : ℕ) : Text := nextPage^[i] startPage

lemma pageIndex_succ (i : ℕ) : pageIndex startPage (i + 1) = nextPage (pageIndex startPage i) :=
  Function.iterate_succ_apply' nextPage i startPage

def pagesOf (startPage : Text) (keys : List Text) (pages : ℕ) : List (Text × PropertyTree) :=
  (List.range pages).map fun i =>
    (hugeBitcoinKeyListPageKey (pageIndex startPage i), rangesOfPage keys i 100)

lemma pagesOf_concat {pages : ℕ} (h : 10000 * pages ≤ keys.length) :
    pagesOf startPage (keys ++ [key]) pages = pagesOf startPage keys pages := by
  apply List.map_congr_left
  intro i hi
  have hlt := List.mem_range.1 hi
  rw [rangesOfPage_concat (by omega)]

lemma keyRange_injective : Function.Injective keyRange := fun _ _ h =>
  Int.ofNat.inj (number_injective (List.append_cancel_left h))

/-- A range that is put is a new one. -/
lemma put_rangesOfPage : (rangesOfPage keys page range).put (keyRange range)
    (keysOfRange keys page range) = rangesOfPage keys page (range + 1) := by
  have hnew : (rangesOfPage keys page range).any (·.1 = keyRange range) = false := by
    refine Bool.eq_false_iff.2 fun hany => ?_
    obtain ⟨e, he, hkey⟩ := List.any_eq_true.1 hany
    obtain ⟨range', hrange', rfl⟩ := List.mem_map.1 he
    have heq := keyRange_injective (of_decide_eq_true hkey)
    exact absurd (List.mem_range.1 hrange') (by omega)
  rw [PropertyTree.put, hnew, if_neg Bool.false_ne_true]
  unfold rangesOfPage
  rw [List.range_succ, List.map_append, List.map_singleton]

/-- Where it is after some keys. -/
structure IsAfter (startPage : Text) (keys : List Text) (st : KeyListPageAdder) : Prop where
  keysCounter : st.hundredKeysInHugeBitcoinKeyListRangeCounter = keys.length % 100
  rangesCounter : st.hundredRangesInOneHugeBitcoinKeyListPageCounter = keys.length % 10000 / 100
  built : st.commaSeparated100bitcoinKeysInOneRangeBeingBuilt =
    commaSeparated (keys.drop (100 * (keys.length / 100)))
  currentPage : st.currentPage = pageIndex startPage (keys.length / 10000)
  pt : st.pt = rangesOfPage keys (keys.length / 10000) (keys.length % 10000 / 100)
  stored : st.stored = pagesOf startPage keys (keys.length / 10000)

lemma isAfter_start : IsAfter startPage [] (.start startPage) :=
  ⟨rfl, rfl, rfl, rfl, rfl, rfl⟩

/-- One key more, before the counters are looked at. -/
structure IsAtKey (startPage : Text) (keys : List Text) (key : Text) (st : KeyListPageAdder) :
    Prop where
  keysCounter : st.hundredKeysInHugeBitcoinKeyListRangeCounter = keys.length % 100 + 1
  rangesCounter : st.hundredRangesInOneHugeBitcoinKeyListPageCounter = keys.length % 10000 / 100
  built : st.commaSeparated100bitcoinKeysInOneRangeBeingBuilt =
    commaSeparated ((keys ++ [key]).drop (100 * (keys.length / 100)))
  currentPage : st.currentPage = pageIndex startPage (keys.length / 10000)
  pt : st.pt = rangesOfPage (keys ++ [key]) (keys.length / 10000) (keys.length % 10000 / 100)
  stored : st.stored = pagesOf startPage (keys ++ [key]) (keys.length / 10000)

variable {st : KeyListPageAdder} {line : Text}

/-- The comma stands between keys of one range only. -/
lemma built_concat (hbuilt : st.commaSeparated100bitcoinKeysInOneRangeBeingBuilt =
    commaSeparated (keys.drop (100 * (keys.length / 100))))
    (hcounter : st.hundredKeysInHugeBitcoinKeyListRangeCounter = keys.length % 100) :
    st.commaSeparated100bitcoinKeysInOneRangeBeingBuilt ++
      (if st.hundredKeysInHugeBitcoinKeyListRangeCounter > 0 then [','] else []) ++ key =
    commaSeparated ((keys ++ [key]).drop (100 * (keys.length / 100))) := by
  have hle : 100 * (keys.length / 100) ≤ keys.length := Nat.mul_div_le _ _
  rw [hbuilt, hcounter, List.drop_append_of_le_length hle]
  by_cases hfirst : keys.length % 100 = 0
  · have hdrop : keys.drop (100 * (keys.length / 100)) = [] := List.drop_eq_nil_iff.2 (by omega)
    rw [hdrop, if_neg (by omega), List.nil_append]
    unfold commaSeparated
    rw [List.intercalate_singleton, List.append_nil]
    rfl
  · have hne : keys.drop (100 * (keys.length / 100)) ≠ [] := by
      rw [ne_eq, List.drop_eq_nil_iff]
      omega
    rw [if_pos (by omega), commaSeparated_concat hne]

/-- A page is stored behind its hundredth range. -/
lemma IsAtKey.isAfter_putRange (h : IsAtKey startPage keys key st)
    (hfull : keys.length % 100 + 1 = 100) : IsAfter startPage (keys ++ [key]) st.putRange := by
  have hlength : (keys ++ [key]).length = keys.length + 1 := by
    rw [List.length_append, List.length_singleton]
  have hrange : commaSeparated ((keys ++ [key]).drop (100 * (keys.length / 100))) =
      keysOfRange (keys ++ [key]) (keys.length / 10000) (keys.length % 10000 / 100) := by
    have hbegin : 10000 * (keys.length / 10000) + 100 * (keys.length % 10000 / 100) =
        100 * (keys.length / 100) := by omega
    rw [keysOfRange, hbegin, List.take_of_length_le]
    rw [List.length_drop]
    omega
  have hput : st.pt.put (keyRange st.hundredRangesInOneHugeBitcoinKeyListPageCounter)
      st.commaSeparated100bitcoinKeysInOneRangeBeingBuilt =
      rangesOfPage (keys ++ [key]) (keys.length / 10000) (keys.length % 10000 / 100 + 1) := by
    rw [h.pt, h.rangesCounter, h.built, hrange]
    exact put_rangesOfPage
  have hnone : commaSeparated ((keys ++ [key]).drop
      (100 * ((keys ++ [key]).length / 100))) = [] := by
    rw [List.drop_eq_nil_iff.2 (by omega)]
    rfl
  unfold KeyListPageAdder.putRange
  by_cases hlast : keys.length % 10000 / 100 + 1 = 100
  · have hpage : (keys ++ [key]).length / 10000 = keys.length / 10000 + 1 := by omega
    have hranges : (keys ++ [key]).length % 10000 / 100 = 0 := by omega
    rw [if_pos (by rw [h.rangesCounter]; exact hlast)]
    refine ⟨?_, hranges.symm, hnone.symm, ?_, ?_, ?_⟩
    · show 0 = (keys ++ [key]).length % 100
      omega
    · show nextPage st.currentPage = _
      rw [h.currentPage, hpage, pageIndex_succ]
    · rw [hranges]
      rfl
    · show st.stored ++ [(hugeBitcoinKeyListPageKey st.currentPage, _)] = _
      rw [hput, h.stored, h.currentPage, hlast, hpage]
      unfold pagesOf
      rw [List.range_succ, List.map_append, List.map_singleton]
  · have hpage : (keys ++ [key]).length / 10000 = keys.length / 10000 := by omega
    have hranges : (keys ++ [key]).length % 10000 / 100 = keys.length % 10000 / 100 + 1 := by omega
    rw [if_neg (by rw [h.rangesCounter]; exact hlast)]
    refine ⟨?_, ?_, hnone.symm, ?_, ?_, ?_⟩
    · show 0 = (keys ++ [key]).length % 100
      omega
    · show st.hundredRangesInOneHugeBitcoinKeyListPageCounter + 1 = _
      rw [h.rangesCounter, hranges]
    · rw [hpage]
      exact h.currentPage
    · rw [hpage, hranges]
      exact hput
    · rw [hpage]
      exact h.stored

/-- A range that is not full waits for more keys. -/
lemma IsAtKey.isAfter (h : IsAtKey startPage keys key st) (hmore : keys.length % 100 + 1 ≠ 100) :
    IsAfter startPage (keys ++ [key]) st := by
  have hlength : (keys ++ [key]).length = keys.length + 1 := by
    rw [List.length_append, List.length_singleton]
  have hhundreds : (keys ++ [key]).length / 100 = keys.length / 100 := by omega
  have hpage : (keys ++ [key]).length / 10000 = keys.length / 10000 := by omega
  have hranges : (keys ++ [key]).length % 10000 / 100 = keys.length % 10000 / 100 := by omega
  refine ⟨?_, ?_, ?_, ?_, ?_, ?_⟩
  · rw [h.keysCounter]
    omega
  · rw [hranges]
    exact h.rangesCounter
  · rw [hhundreds]
    exact h.built
  · rw [hpage]
    exact h.currentPage
  · rw [hpage, hranges]
    exact h.pt
  · rw [hpage]
    exact h.stored

/-- **What one line does.** -/
lemma IsAfter.addLine (h : IsAfter startPage keys st) :
    IsAfter startPage (keys ++ [trimmed line].filter (· ≠ [])) (st.addLine line) := by
  unfold KeyListPageAdder.addLine
  by_cases hblank : trimmed line = []
  · rw [List.filter_cons_of_neg (by simpa using hblank), List.filter_nil, List.append_nil,
      if_pos (List.isEmpty_iff.2 hblank)]
    exact h
  · have hatKey : IsAtKey startPage keys (trimmed line) { st with
        commaSeparated100bitcoinKeysInOneRangeBeingBuilt :=
          st.commaSeparated100bitcoinKeysInOneRangeBeingBuilt ++
            (if st.hundredKeysInHugeBitcoinKeyListRangeCounter > 0 then [','] else []) ++
            trimmed line
        hundredKeysInHugeBitcoinKeyListRangeCounter :=
          st.hundredKeysInHugeBitcoinKeyListRangeCounter + 1 } := by
      refine ⟨congrArg (· + 1) h.keysCounter, h.rangesCounter,
        built_concat h.built h.keysCounter, h.currentPage, ?_, ?_⟩
      · rw [rangesOfPage_concat (by omega)]
        exact h.pt
      · rw [pagesOf_concat (by omega)]
        exact h.stored
    rw [List.filter_cons_of_pos (by simpa using hblank), List.filter_nil,
      if_neg fun hempty => hblank (List.isEmpty_iff.1 hempty)]
    by_cases hfull : keys.length % 100 + 1 = 100
    · show IsAfter startPage _ (if _ + 1 = 100 then _ else _)
      rw [if_pos (by rw [h.keysCounter]; exact hfull)]
      exact hatKey.isAfter_putRange hfull
    · show IsAfter startPage _ (if _ + 1 = 100 then _ else _)
      rw [if_neg (by rw [h.keysCounter]; exact hfull)]
      exact hatKey.isAfter hfull

/-- **What all the lines do.** -/
lemma IsAfter.addLines : ∀ {lines : List Text} {keys : List Text} {st : KeyListPageAdder},
    IsAfter startPage keys st → IsAfter startPage (keys ++ (lines.map trimmed).filter (· ≠ []))
      (lines.foldl KeyListPageAdder.addLine st) := by
  intro lines
  induction lines with
  | nil =>
      intro keys st h
      rw [List.map_nil, List.filter_nil, List.append_nil]
      exact h
  | cons line lines ih =>
      intro keys st h
      have hline : IsAfter startPage (keys ++ [trimmed line].filter (· ≠ []))
          (st.addLine line) := h.addLine
      have hrest := ih hline
      rw [List.append_assoc, ← List.filter_append] at hrest
      exact hrest

/-- Where it is after the file. -/
lemma isAfter_file (file : Text) : IsAfter startPage (keysOfFile file)
    ((linesOf (readAsText file)).foldl KeyListPageAdder.addLine (.start startPage)) :=
  isAfter_start.addLines

/-! ## Which pages are stored -/

variable {file : Text} {s : ℤ}

lemma stored_eq : (addHugeBitcoinKeyListPages startPage file).stored =
    pagesOf startPage (keysOfFile file) ((keysOfFile file).length / 10000) :=
  (isAfter_file file).stored

/-- It is done if the page is empty. -/
lemma done_iff : (addHugeBitcoinKeyListPages startPage file).done = true ↔
    (keysOfFile file).length % 10000 < 100 := by
  have hafter : IsAfter startPage (keysOfFile file) _ := isAfter_file file
  have hpt := hafter.pt
  show List.isEmpty _ = true ↔ _
  rw [hpt, rangesOfPage, List.isEmpty_iff, List.map_eq_nil_iff, List.range_eq_nil]
  omega

lemma nextPage_number (h : IsInt s) : nextPage (number s) = number ((s + 1).bmod (2 ^ 32)) := by
  rw [nextPage, toInt_number h, Option.getD_some]

lemma nextPage_number_of_not_isInt (h : ¬ IsInt s) : nextPage (number s) = number 1 := by
  have hnone : toInt (number s) = none := by
    refine Option.eq_none_iff_forall_ne_some.2 fun n hn => h ?_
    obtain ⟨hlong, hint⟩ := Option.filter_eq_some_iff.1 hn
    rw [toLongLong_number hlong]
    exact of_decide_eq_true hint
  rw [nextPage, hnone, Option.getD_none]
  rfl

/-- Pages are counted on up to the largest `int`. -/
lemma pageIndex_number (h : IsInt s) : ∀ {i : ℕ}, s + i < 2 ^ 31 →
    pageIndex (number s) i = number (s + i) := by
  intro i
  induction i with
  | zero =>
      intro _
      rw [Int.natCast_zero, Int.add_zero]
      rfl
  | succ i ih =>
      intro hi
      have hin : IsInt (s + i) := by
        unfold IsInt at h ⊢
        omega
      have hbmod : (s + i + 1).bmod (2 ^ 32) = s + i + 1 := by
        unfold IsInt at h
        rw [Int.bmod_eq_of_le] <;> omega
      rw [pageIndex_succ, ih (by omega), nextPage_number hin, hbmod, Int.natCast_succ,
        Int.add_assoc]

/-- **Pages have the right numbers if they are no more than the `int` has numbers for.** -/
theorem pageIndex_iff {pages : ℕ} :
    (∀ i < pages, pageIndex (number s) i = number (s + i)) ↔
      pages ≤ 1 ∨ IsInt s ∧ s + pages - 1 < 2 ^ 31 := by
  constructor
  · intro h
    by_contra hbad
    rw [not_or, not_and] at hbad
    obtain ⟨hmany, hbad⟩ := hbad
    by_cases hint : IsInt s
    · have hoverflow := hbad hint
      obtain ⟨i, hi⟩ : ∃ i : ℕ, s + i = 2 ^ 31 - 1 := by
        unfold IsInt at hint
        exact ⟨(2 ^ 31 - 1 - s).toNat, by omega⟩
      have hnext := h (i + 1) (by omega)
      have hlast : IsInt (s + i) := by
        unfold IsInt
        omega
      rw [pageIndex_succ, pageIndex_number hint (by omega), nextPage_number hlast] at hnext
      have heq := number_injective hnext
      have hbmod : (s + i + 1).bmod (2 ^ 32) = -2 ^ 31 := by
        rw [hi]
        decide
      omega
    · have hsecond := h 1 (by omega)
      have heq := number_injective ((nextPage_number_of_not_isInt hint).symm.trans hsecond)
      unfold IsInt at hint
      omega
  · rintro (hfew | ⟨hint, hroom⟩) i hi
    · obtain rfl : i = 0 := by omega
      rw [Int.natCast_zero, Int.add_zero]
      rfl
    · exact pageIndex_number hint (by omega)

lemma hugeBitcoinKeyListPageKey_injective : Function.Injective hugeBitcoinKeyListPageKey := by
  intro pageZ pageZ' h
  have hargs := List.append_cancel_left h
  rw [List.flatMap_singleton, List.flatMap_singleton] at hargs
  exact List.tail_eq_of_cons_eq hargs

/-- **No key is dropped** exactly if no page is left empty with keys behind it, and the pages have
numbers.  The first half is about the file alone: what is behind the last full page is either
nothing or at least a hundred keys.  The second half is about the number that the pages start with,
which is read as text and has to stay an `int` while it is counted up. -/
theorem addsAllKeys_iff (s : ℤ) (file : Text) : AddsAllKeys s file ↔
    ((keysOfFile file).length % 10000 = 0 ∨ 100 ≤ (keysOfFile file).length % 10000) ∧
      ((keysOfFile file).length / 10000 ≤ 1 ∨
        IsInt s ∧ s + ((keysOfFile file).length / 10000 : ℕ) - 1 < 2 ^ 31) := by
  rw [← pageIndex_iff]
  constructor
  · intro h
    refine ⟨?_, ?_⟩
    · by_contra hfew
      have hdone := h.complete (done_iff.2 (by omega)) ((keysOfFile file).length - 1) (by omega)
      rw [stored_eq, pagesOf, List.length_map, List.length_range] at hdone
      omega
    · intro i hi
      have hpage := h.stored i
        (hugeBitcoinKeyListPageKey (pageIndex (number s) i), rangesOfPage (keysOfFile file) i 100)
      rw [stored_eq, pagesOf, List.getElem?_map, List.getElem?_range hi] at hpage
      exact hugeBitcoinKeyListPageKey_injective (congrArg Prod.fst (hpage rfl))
  · rintro ⟨hwhole, hindex⟩
    refine ⟨?_, ?_⟩
    · intro i page hpage
      rw [stored_eq, pagesOf, List.getElem?_map, Option.map_eq_some_iff] at hpage
      obtain ⟨i', hi', rfl⟩ := hpage
      obtain ⟨hlt, heq⟩ := List.getElem?_eq_some_iff.1 hi'
      rw [List.getElem_range] at heq
      rw [List.length_range] at hlt
      subst heq
      rw [hindex i hlt]
    · intro hdone k hk
      have hfew := done_iff.1 hdone
      rw [stored_eq, pagesOf, List.length_map, List.length_range]
      omega

/-- A file with one key: it is done, and the key is not stored. -/
theorem not_addsAllKeys_oneKey : ¬ AddsAllKeys 0 "1BoatSLRHtKNngkdXEeobR76b53LETtpyT".toList := by
  intro h
  have hstored := h.complete (by decide +kernel) 0 (by decide +kernel)
  exact absurd hstored (by decide +kernel)

end Autobackup.Abc2
