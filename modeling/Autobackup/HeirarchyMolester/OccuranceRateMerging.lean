import Mathlib.Data.List.AList
import Autobackup.Foundation.AssociationList
import Autobackup.Foundation.HashOrder
import Autobackup.Foundation.QString

/-!
# Timestamps that occur too often

`performHackyOccuranceRateMerging` of `LastModifiedDateHeirarchyMolester`: a timestamp that many
entries share is taken back to what it was before, where that is known.  The tables are rewritten
while the timestamps are worked off, and what comes from an old table may be such a timestamp
itself.  It is looked up in the same old table again, and stays (`lookup_foldl_useOldTimestamps`).

The hashes are iterated over in any order, which may be another one at each iteration
(`HashOrders`), and the result is the same table.  Dates that are not valid are left out, and times
are whole seconds, as the formats have them.
-/

namespace Autobackup.HeirarchyMolester

open QString

/-- Absolute paths, with the milliseconds of their dates. -/
abbrev TimestampTable := AList fun _ : Text => ℤ

structure LastModifiedDateHeirarchyMolester where
  files : TimestampTable
  folders : TimestampTable
  oldFiles : TimestampTable
  oldFolders : TimestampTable
  firstTimeDoingHackyOccuranceRateMerging : Bool
  /-- What the signal `d` carried. -/
  messages : List Text

/-- The orders in which the hashes are iterated over. -/
structure HashOrders where
  tables : HashOrder (Sigma fun _ : Text => ℤ)
  occurances : HashOrder (Sigma fun _ : Text => ℕ)

def unixTimestampString (dateTime : ℤ) : Text := number (dateTime.tdiv 1000)

/-- The counter is a `quint32`. -/
def countOccurance (timestampsOccurancesHash : AList fun _ : Text => ℕ) (dateTime : ℤ) :
    AList fun _ : Text => ℕ :=
  match timestampsOccurancesHash.lookup (unixTimestampString dateTime) with
  | some currentOccuranceCount =>
      timestampsOccurancesHash.insert (unixTimestampString dateTime)
        ((currentOccuranceCount + 1) % 2 ^ 32)
  | none => timestampsOccurancesHash.insert (unixTimestampString dateTime) 1

/-- One turn of the loop over the counters. -/
def appendIfExceeding (threshold : ℕ) (dateTimes : List ℤ) (e : Sigma fun _ : Text => ℕ) :
    Except Text (List ℤ) :=
  if e.2 ≥ threshold then
    match toLongLong e.1 with
    | none => .error ("failed to convert timestamp to qint64: ".toList ++ e.1)
    | some timestampAsQint64 => .ok (dateTimes ++ [(timestampAsQint64 * 1000).bmod (2 ^ 64)])
  else .ok dateTimes

/-- `QHash::keys` -/
def keysOf (o : HashOrders) (table : TimestampTable) (dateTime : ℤ) : List Text :=
  ((o.tables.order table.entries).filter (·.2 = dateTime)).map (·.1)

def useOldTimestamp (old table : TimestampTable) (currentFilePath : Text) : TimestampTable :=
  match old.lookup currentFilePath with
  | some unFuckedDateTime => table.insert currentFilePath unFuckedDateTime
  | none => table

def useOldTimestamps (o : HashOrders) (old table : TimestampTable) (dateTime : ℤ) :
    TimestampTable :=
  (keysOf o table dateTime).foldl (useOldTimestamp old) table

namespace LastModifiedDateHeirarchyMolester

variable (o : HashOrders) (threshold : ℕ) (m : LastModifiedDateHeirarchyMolester)

def timestampsOccurances : AList fun _ : Text => ℕ :=
  ((o.tables.order m.folders.entries).map (·.2)).foldl countOccurance
    (((o.tables.order m.files.entries).map (·.2)).foldl countOccurance ∅)

/-- One turn of the loop over the timestamps. -/
def useOldTables (dateTime : ℤ) : LastModifiedDateHeirarchyMolester :=
  { m with
    files := useOldTimestamps o m.oldFiles m.files dateTime
    folders := useOldTimestamps o m.oldFolders m.folders dateTime }

def performHackyOccuranceRateMerging : LastModifiedDateHeirarchyMolester :=
  if m.firstTimeDoingHackyOccuranceRateMerging then m
  else
    match (o.occurances.order (m.timestampsOccurances o).entries).foldlM
      (appendIfExceeding threshold) [] with
    | .error message => { m with messages := m.messages ++ [message] }
    | .ok dateTimesThatMeetOrExceedThreshold =>
        dateTimesThatMeetOrExceedThreshold.foldl (useOldTables o) m

/-! ## What it is for -/

/-- How many files and folders have the timestamp. -/
def occurances (t : ℤ) : ℕ :=
  (m.files.entries ++ m.folders.entries).countP (·.2 = t)

/-- A date that `toMSecsSinceEpoch` gives, and that has whole seconds. -/
structure IsWhole (t : ℤ) : Prop where
  dvd : 1000 ∣ t
  isLongLong : IsLongLong t

/-- The dates have whole seconds, and the size of a hash is an `int`. -/
structure WholeSeconds : Prop where
  files : ∀ path t, m.files.lookup path = some t → IsWhole t
  folders : ∀ path t, m.folders.lookup path = some t → IsWhole t
  length_files : m.files.entries.length < 2 ^ 31
  length_folders : m.folders.entries.length < 2 ^ 31

/-- **A table after the merging.**  What occurs too often is old again, where it was there. -/
structure IsMerged (old before after : TimestampTable) : Prop where
  keys : ∀ path, path ∈ after ↔ path ∈ before
  lookup : ∀ path t, before.lookup path = some t → after.lookup path =
    if threshold ≤ m.occurances t ∧ path ∈ old then old.lookup path else some t

end LastModifiedDateHeirarchyMolester

/-! ## The counters -/

variable {o : HashOrders} {threshold : ℕ} {m : LastModifiedDateHeirarchyMolester} {t : ℤ}

open LastModifiedDateHeirarchyMolester

lemma lookup_countOccurance {hash : AList fun _ : Text => ℕ} {key : Text} :
    (countOccurance hash t).lookup key =
      if unixTimestampString t = key then
        some ((hash.lookup key).elim 1 fun n => (n + 1) % 2 ^ 32)
      else hash.lookup key := by
  unfold countOccurance
  by_cases hkey : unixTimestampString t = key
  · rw [if_pos hkey, hkey]
    cases hlookup : hash.lookup key with
    | none => exact AList.lookup_insert hash
    | some n => exact AList.lookup_insert hash
  · rw [if_neg hkey]
    cases hlookup : hash.lookup (unixTimestampString t) with
    | none => exact AList.lookup_insert_ne (Ne.symm hkey)
    | some n => exact AList.lookup_insert_ne (Ne.symm hkey)

/-- As long as no counter overflows, a counter says how often its key was counted. -/
lemma lookup_foldl_countOccurance {dateTimes : List ℤ} (hlength : dateTimes.length < 2 ^ 32)
    (key : Text) : (dateTimes.foldl countOccurance ∅).lookup key =
      if dateTimes.countP (unixTimestampString · = key) = 0 then none
      else some (dateTimes.countP (unixTimestampString · = key)) := by
  induction dateTimes using List.reverseRecOn with
  | nil => rfl
  | append_singleton dateTimes t ih =>
      rw [List.length_append, List.length_singleton] at hlength
      have hcount : dateTimes.countP (unixTimestampString · = key) ≤ dateTimes.length :=
        List.countP_le_length
      rw [List.foldl_concat, lookup_countOccurance, ih (by omega), List.countP_append,
        List.countP_singleton]
      by_cases hkey : unixTimestampString t = key
      · rw [if_pos hkey, if_pos (decide_eq_true hkey)]
        rw [if_neg (Nat.succ_ne_zero _)]
        split
        · next hzero => rw [hzero]; rfl
        · rw [Option.elim_some, Nat.mod_eq_of_lt (by omega)]
      · have hdecide : ¬ decide (unixTimestampString t = key) = true := fun h =>
          hkey (of_decide_eq_true h)
        rw [if_neg hkey, if_neg hdecide, Nat.add_zero]

lemma isWhole_toLongLong (h : IsWhole t) :
    toLongLong (unixTimestampString t) = some (t.tdiv 1000) ∧
      (t.tdiv 1000 * 1000).bmod (2 ^ 64) = t := by
  obtain ⟨⟨s, rfl⟩, hrange⟩ := h
  have hs : (1000 * s).tdiv 1000 = s := Int.mul_tdiv_cancel_left s (by decide)
  unfold IsLongLong at hrange
  rw [unixTimestampString, hs]
  constructor
  · apply toLongLong_number_of_isLongLong
    unfold IsLongLong
    omega
  · rw [Int.mul_comm]
    exact Int.bmod_eq_of_le (by omega) (by omega)

lemma isWhole_unixTimestampString_inj {t' : ℤ} (h : IsWhole t) (h' : IsWhole t')
    (heq : unixTimestampString t = unixTimestampString t') : t = t' := by
  have hdiv := number_injective heq
  calc t = t.tdiv 1000 * 1000 := (Int.tdiv_mul_cancel h.dvd).symm
    _ = t'.tdiv 1000 * 1000 := by rw [hdiv]
    _ = t' := Int.tdiv_mul_cancel h'.dvd

/-- No conversion fails, and the timestamps are those whose counter is high enough. -/
lemma exists_foldlM_appendIfExceeding (threshold : ℕ) {entries : List (Sigma fun _ : Text => ℕ)}
    (hentries : ∀ e ∈ entries, ∃ t, IsWhole t ∧ e.1 = unixTimestampString t)
    (dateTimes : List ℤ) : ∃ dateTimes',
      entries.foldlM (appendIfExceeding threshold) dateTimes = .ok dateTimes' ∧
        ∀ t, IsWhole t → (t ∈ dateTimes' ↔ t ∈ dateTimes ∨
          ∃ e ∈ entries, e.1 = unixTimestampString t ∧ threshold ≤ e.2) := by
  induction entries generalizing dateTimes with
  | nil =>
      refine ⟨dateTimes, rfl, fun t _ => ?_⟩
      simp only [List.not_mem_nil, false_and, exists_false, or_false]
  | cons e rest ih =>
      obtain ⟨⟨t₀, hwhole, hkey⟩, hrest⟩ := List.forall_mem_cons.1 hentries
      obtain ⟨hconvert, hback⟩ := isWhole_toLongLong hwhole
      rw [List.foldlM_cons]
      by_cases hexceeding : e.2 ≥ threshold
      · have hstep : appendIfExceeding threshold dateTimes e = .ok (dateTimes ++ [t₀]) := by
          rw [appendIfExceeding, if_pos hexceeding, hkey, hconvert]
          dsimp only
          rw [hback]
        obtain ⟨dateTimes', hdateTimes', hmem⟩ := ih hrest (dateTimes ++ [t₀])
        refine ⟨dateTimes', by rw [hstep]; exact hdateTimes', fun t ht => ?_⟩
        have hown : t = t₀ ↔ e.1 = unixTimestampString t ∧ threshold ≤ e.2 := by
          constructor
          · rintro rfl
            exact ⟨hkey, hexceeding⟩
          · rintro ⟨heq, -⟩
            exact isWhole_unixTimestampString_inj ht hwhole (heq.symm.trans hkey)
        rw [hmem t ht, List.exists_mem_cons_iff, ← hown, List.mem_append, List.mem_singleton,
          or_assoc]
      · have hstep : appendIfExceeding threshold dateTimes e = .ok dateTimes := by
          rw [appendIfExceeding, if_neg hexceeding]
        obtain ⟨dateTimes', hdateTimes', hmem⟩ := ih hrest dateTimes
        refine ⟨dateTimes', by rw [hstep]; exact hdateTimes', fun t ht => ?_⟩
        rw [hmem t ht, List.exists_mem_cons_iff]
        simp only [Nat.not_le.2 (Nat.not_le.1 hexceeding), and_false, false_or]

/-! ## The tables -/

lemma mem_keysOf {table : TimestampTable} {path : Text} :
    path ∈ keysOf o table t ↔ table.lookup path = some t := by
  unfold keysOf
  rw [List.mem_map]
  constructor
  · rintro ⟨⟨path, t'⟩, hfiltered, rfl⟩
    obtain ⟨hentry, hfilter⟩ := List.mem_filter.1 hfiltered
    have heq : t' = t := of_decide_eq_true hfilter
    rw [← heq]
    exact AssociationList.mem_entries.1 (o.tables.mem_order.1 hentry)
  · intro hlookup
    refine ⟨⟨path, t⟩, List.mem_filter.2 ⟨?_, decide_eq_true rfl⟩, rfl⟩
    exact o.tables.mem_order.2 (AssociationList.mem_entries.2 hlookup)

lemma lookup_useOldTimestamp {old table : TimestampTable} {path path' : Text} :
    (useOldTimestamp old table path').lookup path =
      if path = path' then (old.lookup path).or (table.lookup path) else table.lookup path := by
  unfold useOldTimestamp
  by_cases hpath : path = path'
  · subst hpath
    rw [if_pos rfl]
    cases hlookup : old.lookup path with
    | none => rfl
    | some t => exact AList.lookup_insert table
  · rw [if_neg hpath]
    cases hlookup : old.lookup path' with
    | none => rfl
    | some t => exact AList.lookup_insert_ne hpath

lemma lookup_foldl_useOldTimestamp {old table : TimestampTable} {paths : List Text} {path : Text} :
    (paths.foldl (useOldTimestamp old) table).lookup path =
      if path ∈ paths then (old.lookup path).or (table.lookup path) else table.lookup path := by
  induction paths generalizing table with
  | nil => rfl
  | cons path' rest ih =>
      rw [List.foldl_cons, ih, lookup_useOldTimestamp]
      by_cases hpath : path = path'
      · rw [if_pos hpath, if_pos (List.mem_cons.2 (Or.inl hpath)), ← Option.or_assoc,
          Option.or_self, ite_self]
      · simp only [hpath, if_false, List.mem_cons, false_or]

/-- Whether what comes out of the old table is worked off later or not, it stays. -/
lemma lookup_foldl_useOldTimestamps {old table : TimestampTable} {dateTimes : List ℤ}
    {path : Text} : (dateTimes.foldl (useOldTimestamps o old) table).lookup path =
      (table.lookup path).map fun t => if t ∈ dateTimes then (old.lookup path).getD t else t := by
  induction dateTimes generalizing table with
  | nil => exact Option.map_id'.symm
  | cons t₀ rest ih =>
      rw [List.foldl_cons, ih, useOldTimestamps, lookup_foldl_useOldTimestamp]
      cases htable : table.lookup path with
      | none =>
          have hnot : path ∉ keysOf o table t₀ := by
            rw [mem_keysOf, htable]
            exact Option.some_ne_none _ ∘ Eq.symm
          rw [if_neg hnot]
          rfl
      | some t =>
          by_cases heq : t = t₀
          · have hmem : path ∈ keysOf o table t₀ := mem_keysOf.2 (by rw [htable, heq])
            rw [if_pos hmem, Option.map_some, if_pos (List.mem_cons.2 (Or.inl heq))]
            cases hold : old.lookup path with
            | none => simp only [Option.none_or, Option.map_some, Option.getD_none, ite_self]
            | some t' => simp only [Option.some_or, Option.map_some, Option.getD_some, ite_self]
          · have hnot : path ∉ keysOf o table t₀ := by
              rw [mem_keysOf, htable]
              exact fun h => heq (Option.some.inj h)
            rw [if_neg hnot]
            simp only [Option.map_some, List.mem_cons, heq, false_or]

namespace LastModifiedDateHeirarchyMolester

lemma foldl_useOldTables (dateTimes : List ℤ) : dateTimes.foldl (useOldTables o) m =
    { m with
      files := dateTimes.foldl (useOldTimestamps o m.oldFiles) m.files
      folders := dateTimes.foldl (useOldTimestamps o m.oldFolders) m.folders } := by
  induction dateTimes generalizing m with
  | nil => rfl
  | cons t rest ih =>
      rw [List.foldl_cons, ih]
      rfl

/-- The dates of both tables, in the order in which they are counted. -/
def dateTimesCounted (o : HashOrders) (m : LastModifiedDateHeirarchyMolester) : List ℤ :=
  (o.tables.order m.files.entries ++ o.tables.order m.folders.entries).map (·.2)

lemma timestampsOccurances_eq : m.timestampsOccurances o =
    (dateTimesCounted o m).foldl countOccurance ∅ := by
  unfold timestampsOccurances dateTimesCounted
  rw [List.map_append, List.foldl_append]

lemma perm_dateTimesCounted : (dateTimesCounted o m).Perm
    ((m.files.entries ++ m.folders.entries).map (·.2)) :=
  ((o.tables.perm _).append (o.tables.perm _)).map _

lemma WholeSeconds.isWhole (h : m.WholeSeconds) (ht : t ∈ dateTimesCounted o m) : IsWhole t := by
  obtain ⟨⟨path, t⟩, hentry, rfl⟩ := List.mem_map.1 (perm_dateTimesCounted.mem_iff.1 ht)
  rcases List.mem_append.1 hentry with hentry | hentry
  · exact h.files path t (AssociationList.mem_entries.1 hentry)
  · exact h.folders path t (AssociationList.mem_entries.1 hentry)

lemma WholeSeconds.length_dateTimesCounted (h : m.WholeSeconds) (o : HashOrders) :
    (dateTimesCounted o m).length < 2 ^ 32 := by
  rw [perm_dateTimesCounted.length_eq, List.length_map, List.length_append]
  have hfiles := h.length_files
  have hfolders := h.length_folders
  omega

/-- Timestamps of whole seconds are the same if their texts are. -/
lemma WholeSeconds.countP_dateTimesCounted (h : m.WholeSeconds) (ht : IsWhole t) :
    (dateTimesCounted o m).countP (unixTimestampString · = unixTimestampString t) =
      m.occurances t := by
  have hcongr : (dateTimesCounted o m).countP (unixTimestampString · = unixTimestampString t) =
      (dateTimesCounted o m).countP (· = t) := by
    apply List.countP_congr
    intro t' ht'
    rw [decide_eq_true_iff, decide_eq_true_iff]
    exact ⟨isWhole_unixTimestampString_inj (h.isWhole ht') ht, congrArg unixTimestampString⟩
  rw [hcongr, perm_dateTimesCounted.countP_eq, List.countP_map]
  rfl

/-- No conversion fails, and a timestamp that occurs is worked off if it occurs too often. -/
lemma WholeSeconds.exists_exceeding (h : m.WholeSeconds) (o : HashOrders) (threshold : ℕ) :
    ∃ dateTimes,
    (o.occurances.order (m.timestampsOccurances o).entries).foldlM
        (appendIfExceeding threshold) [] = .ok dateTimes ∧
      ∀ t ∈ dateTimesCounted o m, t ∈ dateTimes ↔ threshold ≤ m.occurances t := by
  have hlookup := lookup_foldl_countOccurance (h.length_dateTimesCounted o)
  rw [← timestampsOccurances_eq] at hlookup
  have hentries : ∀ e ∈ o.occurances.order (m.timestampsOccurances o).entries,
      ∃ t, IsWhole t ∧ e.1 = unixTimestampString t := by
    rintro ⟨key, n⟩ he
    have hkey := AssociationList.mem_entries.1 (o.occurances.mem_order.1 he)
    rw [hlookup] at hkey
    split at hkey
    · cases hkey
    · next hpos =>
        obtain ⟨t, ht, heq⟩ := List.countP_pos_iff.1 (Nat.pos_of_ne_zero hpos)
        exact ⟨t, h.isWhole ht, (of_decide_eq_true heq).symm⟩
  obtain ⟨dateTimes, hdateTimes, hmem⟩ := exists_foldlM_appendIfExceeding threshold hentries []
  refine ⟨dateTimes, hdateTimes, fun t ht => ?_⟩
  have hwhole := h.isWhole ht
  have hcounter : (m.timestampsOccurances o).lookup (unixTimestampString t) =
      some (m.occurances t) := by
    have hpos : 0 < (dateTimesCounted o m).countP
        (unixTimestampString · = unixTimestampString t) :=
      List.countP_pos_iff.2 ⟨t, ht, decide_eq_true rfl⟩
    rw [hlookup, if_neg hpos.ne', h.countP_dateTimesCounted hwhole]
  rw [hmem t hwhole]
  constructor
  · rintro (hnil | ⟨⟨key, n⟩, he, rfl, hn⟩)
    · exact absurd hnil List.not_mem_nil
    · have hkey := AssociationList.mem_entries.1 (o.occurances.mem_order.1 he)
      rw [hcounter] at hkey
      rw [Option.some.inj hkey]
      exact hn
  · intro hexceeding
    exact Or.inr ⟨⟨_, _⟩, o.occurances.mem_order.2 (AssociationList.mem_entries.2 hcounter), rfl,
      hexceeding⟩

lemma isMerged_foldl {old table : TimestampTable} {dateTimes : List ℤ}
    (hdateTimes : ∀ path t, table.lookup path = some t →
      (t ∈ dateTimes ↔ threshold ≤ m.occurances t)) :
    m.IsMerged threshold old table (dateTimes.foldl (useOldTimestamps o old) table) := by
  constructor
  · intro path
    rw [← AList.lookup_isSome, lookup_foldl_useOldTimestamps, Option.isSome_map,
      AList.lookup_isSome]
  · intro path t hlookup
    rw [lookup_foldl_useOldTimestamps, hlookup, Option.map_some]
    by_cases hexceeding : threshold ≤ m.occurances t
    · rw [if_pos ((hdateTimes path t hlookup).2 hexceeding)]
      cases hold : old.lookup path with
      | none =>
          have hnot : path ∉ old := AList.lookup_eq_none.1 hold
          rw [if_neg fun h => hnot h.2, Option.getD_none]
      | some t' =>
          have hmem : path ∈ old := AList.lookup_isSome.1 (by rw [hold]; rfl)
          rw [if_pos ⟨hexceeding, hmem⟩, Option.getD_some]
    · rw [if_neg (mt (hdateTimes path t hlookup).1 hexceeding), if_neg fun h => hexceeding h.1]

/-- **What occurs too often is as old as it was, in every order of the hashes.**

A checkout gives all files the time of the checkout, and the timestamps of before are the ones worth
keeping.  Files and directories are looked up in tables of their own.  The very first call only
remembers the tables and merges nothing, so it is left out here. -/
theorem performHackyOccuranceRateMerging_isMerged (h : m.WholeSeconds)
    (hfirst : m.firstTimeDoingHackyOccuranceRateMerging = false) (o : HashOrders) (threshold : ℕ) :
    ∃ files folders, m.performHackyOccuranceRateMerging o threshold =
        { m with files := files, folders := folders } ∧
      m.IsMerged threshold m.oldFiles m.files files ∧
        m.IsMerged threshold m.oldFolders m.folders folders := by
  obtain ⟨dateTimes, hdateTimes, hmem⟩ := h.exists_exceeding o threshold
  refine ⟨dateTimes.foldl (useOldTimestamps o m.oldFiles) m.files,
    dateTimes.foldl (useOldTimestamps o m.oldFolders) m.folders, ?_, ?_, ?_⟩
  · have hnotFirst : ¬ m.firstTimeDoingHackyOccuranceRateMerging = true := by
      rw [hfirst]
      exact Bool.false_ne_true
    rw [performHackyOccuranceRateMerging, if_neg hnotFirst, hdateTimes]
    exact foldl_useOldTables dateTimes
  · apply isMerged_foldl
    intro path t hlookup
    apply hmem
    apply perm_dateTimesCounted.mem_iff.2
    exact List.mem_map.2 ⟨⟨path, t⟩,
      List.mem_append_left _ (AssociationList.mem_entries.2 hlookup), rfl⟩
  · apply isMerged_foldl
    intro path t hlookup
    apply hmem
    apply perm_dateTimesCounted.mem_iff.2
    exact List.mem_map.2 ⟨⟨path, t⟩,
      List.mem_append_right _ (AssociationList.mem_entries.2 hlookup), rfl⟩

/-- Two files and a folder at the same second, one of which was there before. -/
def touchedAtOnce : LastModifiedDateHeirarchyMolester where
  files := List.toAList [⟨['/', 'a'], 5000⟩, ⟨['/', 'b'], 5000⟩]
  folders := List.toAList [⟨['/', 'c', '/'], 5000⟩]
  oldFiles := List.toAList [⟨['/', 'a'], 3000⟩]
  oldFolders := ∅
  firstTimeDoingHackyOccuranceRateMerging := false
  messages := []

theorem performHackyOccuranceRateMerging_isMerged_touchedAtOnce :
    ∃ files folders, touchedAtOnce.performHackyOccuranceRateMerging
          ⟨HashOrder.inserted, HashOrder.inserted⟩ 3 =
        { touchedAtOnce with files := files, folders := folders } ∧
      touchedAtOnce.IsMerged 3 touchedAtOnce.oldFiles touchedAtOnce.files files ∧
        touchedAtOnce.IsMerged 3 touchedAtOnce.oldFolders touchedAtOnce.folders folders := by
  have hwhole : IsWhole 5000 := ⟨by decide, by decide⟩
  have hfiles : ∀ e ∈ touchedAtOnce.files.entries, e.2 = 5000 := by decide
  have hfolders : ∀ e ∈ touchedAtOnce.folders.entries, e.2 = 5000 := by decide
  apply performHackyOccuranceRateMerging_isMerged
  · constructor
    · intro path t hlookup
      obtain rfl : t = 5000 := hfiles _ (AssociationList.mem_entries.2 hlookup)
      exact hwhole
    · intro path t hlookup
      obtain rfl : t = 5000 := hfolders _ (AssociationList.mem_entries.2 hlookup)
      exact hwhole
    · decide
    · decide
  · rfl

end LastModifiedDateHeirarchyMolester

end Autobackup.HeirarchyMolester
