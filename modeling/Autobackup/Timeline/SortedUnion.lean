import Autobackup.Timeline.Watcher
import Mathlib.Data.List.Perm.Subperm

/-!
# The timeline is the sorted union of the files

Combining appends to the lists of the files, and these are kept for the next time: a file that is
not read again comes with the paths of others then.  What is published is the union of the current
files as long as the lists that are kept hold only the paths of their own files.

`Kept` is what holds of the lists in every state: each belongs to one file and one timestamp, and
holds at least what the file says.

A change gives a file new contents and reads that file again, and the file may be changed by any
program and in any order.  Left out are files that are missing or cannot be opened, and the count of
all paths.
-/

namespace Autobackup.Timeline

open QString Filesystem

/-! ## Reading -/

/-- The valid lines of a file, with the prefix. -/
def entriesOf (pathPrefix : Text) (lines : List Text) : List TimestampAndPath :=
  lines.filterMap fun line => (SimplifiedLastModifiedTimestamp.ofLine line).map fun t =>
    (t.lastModifiedTimestamp.tdiv 1000, pathPrefix ++ t.filePath)

def pathsAt (timestamp : ℤ) (entries : List TimestampAndPath) : List Text :=
  (entries.filter (·.1 = timestamp)).map Prod.snd

lemma pathsAt_concat (timestamp : ℤ) (entries : List TimestampAndPath) (e : TimestampAndPath) :
    pathsAt timestamp (entries ++ [e]) =
      pathsAt timestamp entries ++ if e.1 = timestamp then [e.2] else [] := by
  unfold pathsAt
  by_cases h : e.1 = timestamp <;> simp [h]

/-- A file has been read: its lists are new, and hold what it says. -/
structure Read (lists : Heap) (made : ℕ) (entries : List TimestampAndPath) (reading : Reading) :
    Prop where
  grown : made ≤ reading.made
  new : ∀ e ∈ reading.map.entries, made ≤ e.2 ∧ e.2 < reading.made
  single : ∀ e ∈ reading.map.entries, ∀ e' ∈ reading.map.entries, e.2 = e'.2 → e = e'
  paths : ∀ e ∈ reading.map.entries, reading.lists e.2 = pathsAt e.1 entries
  key : ∀ timestamp, (∃ e ∈ entries, e.1 = timestamp) ↔
    ∃ e ∈ reading.map.entries, e.1 = timestamp
  old : ∀ id < made, reading.lists id = lists id

section Reading

variable {lists : Heap} {made : ℕ} {entries : List TimestampAndPath} {reading : Reading}

/-- A timestamp that is new. -/
lemma Read.insert (h : Read lists made entries reading) {e : TimestampAndPath}
    (hnone : reading.map.lookup e.1 = none) :
    Read lists made (entries ++ [e])
      { map := reading.map.insert e.1 reading.made
        lists := Function.update reading.lists reading.made [e.2]
        made := reading.made + 1 } := by
  have hmem {e' : ℤ × ListId} : e' ∈ (reading.map.insert e.1 reading.made).entries ↔
      e' = (e.1, reading.made) ∨ e' ∈ reading.map.entries := by
    rw [(SortedMap.insert_perm hnone).mem_iff, List.mem_cons]
  have hnew := SortedMap.lookup_eq_none.1 hnone
  have hbelow {e' : ℤ × ListId} (he' : e' ∈ reading.map.entries) : e'.2 ≠ reading.made :=
    Nat.ne_of_lt (h.new e' he').2
  constructor
  case grown => exact Nat.le_succ_of_le h.grown
  case new =>
    intro e' he'
    rcases hmem.1 he' with rfl | he'
    · exact ⟨h.grown, Nat.lt_succ_self _⟩
    · exact ⟨(h.new e' he').1, Nat.lt_succ_of_lt (h.new e' he').2⟩
  case single =>
    intro one hone other hother heq
    rcases hmem.1 hone with rfl | hone <;> rcases hmem.1 hother with rfl | hother
    · rfl
    · exact absurd heq.symm (hbelow hother)
    · exact absurd heq (hbelow hone)
    · exact h.single one hone other hother heq
  case paths =>
    intro e' he'
    rw [pathsAt_concat]
    rcases hmem.1 he' with rfl | he'
    · have hnil : pathsAt e.1 entries = [] := by
        rw [pathsAt, List.map_eq_nil_iff, List.filter_eq_nil_iff]
        intro other hother
        obtain ⟨e', he', heq⟩ := (h.key other.1).1 ⟨other, hother, rfl⟩
        have hne := hnew e' he'
        simpa [heq] using hne
      simp [hnil]
    · rw [if_neg (fun heq => hnew e' he' heq.symm), List.append_nil]
      exact (Function.update_of_ne (hbelow he') _ _).trans (h.paths e' he')
  case key =>
    intro timestamp
    have hold := h.key timestamp
    constructor
    · rintro ⟨e', he', heq⟩
      rcases List.mem_append.1 he' with he' | he'
      · obtain ⟨found, hfound, hkey⟩ := hold.1 ⟨e', he', heq⟩
        exact ⟨found, hmem.2 (.inr hfound), hkey⟩
      · rw [List.mem_singleton.1 he'] at heq
        exact ⟨_, hmem.2 (.inl rfl), heq⟩
    · rintro ⟨e', he', heq⟩
      rcases hmem.1 he' with rfl | he'
      · exact ⟨e, List.mem_append_right _ List.mem_cons_self, heq⟩
      · obtain ⟨found, hfound, hkey⟩ := hold.2 ⟨e', he', heq⟩
        exact ⟨found, List.mem_append_left _ hfound, hkey⟩
  case old =>
    intro id hid
    have hne := Nat.ne_of_lt (Nat.lt_of_lt_of_le hid h.grown)
    exact (Function.update_of_ne hne _ _).trans (h.old id hid)

/-- A timestamp that is there already. -/
lemma Read.append (h : Read lists made entries reading) {e : TimestampAndPath} {id : ListId}
    (hsome : reading.map.lookup e.1 = some id) :
    Read lists made (entries ++ [e])
      { reading with lists := Function.update reading.lists id (reading.lists id ++ [e.2]) } := by
  have hthere := SortedMap.lookup_eq_some.1 hsome
  refine ⟨h.grown, h.new, h.single, fun e' he' => ?_, fun timestamp => ?_, fun id' hid' => ?_⟩
  · dsimp only
    rw [pathsAt_concat]
    by_cases heq : e'.2 = id
    · obtain rfl := h.single e' he' _ hthere heq
      rw [Function.update_self, if_pos rfl, h.paths _ he']
    · have hne : e.1 ≠ e'.1 := fun hkey =>
        heq (congrArg Prod.snd (SortedMap.eq_of_mem he' hthere hkey.symm))
      rw [Function.update_of_ne heq, if_neg hne, List.append_nil, h.paths e' he']
  · rw [← h.key]
    constructor
    · rintro ⟨e', he', rfl⟩
      rcases List.mem_append.1 he' with he' | he'
      · exact ⟨e', he', rfl⟩
      · rw [List.mem_singleton.1 he']
        exact (h.key e.1).2 ⟨_, hthere, rfl⟩
    · rintro ⟨e', he', heq⟩
      exact ⟨e', List.mem_append_left _ he', heq⟩
  · have hne : id' ≠ id := Nat.ne_of_lt (Nat.lt_of_lt_of_le hid' (h.new _ hthere).1)
    exact (Function.update_of_ne hne _ _).trans (h.old id' hid')

/-- **A file is read.** -/
theorem read_foldl (lists : Heap) (made : ℕ) (pathPrefix : Text) (lines : List Text) :
    Read lists made (entriesOf pathPrefix lines)
      (lines.foldl (readLine pathPrefix) ⟨.empty, lists, made⟩) := by
  induction lines using List.reverseRecOn with
  | nil =>
      exact ⟨Nat.le_refl _, by simp [SortedMap.empty], by simp [SortedMap.empty],
        by simp [SortedMap.empty], by simp [entriesOf, SortedMap.empty], fun _ _ => rfl⟩
  | append_singleton lines line ih =>
      rw [List.foldl_concat, readLine, entriesOf, List.filterMap_append]
      change Read lists made (entriesOf pathPrefix lines ++ _) _
      split
      · next hempty =>
          subst hempty
          rw [show List.filterMap _ [([] : Text)] = [] from rfl, List.append_nil]
          exact ih
      · split
        · next hnone =>
            rw [List.filterMap_cons_none (by rw [hnone]; rfl), List.filterMap_nil, List.append_nil]
            exact ih
        · next t ht =>
            rw [List.filterMap_cons_some (by rw [ht]; rfl), List.filterMap_nil]
            dsimp only
            split
            · next hnone => exact ih.insert hnone
            · next hsome => exact ih.append hsome

end Reading

/-! ## Combining -/

/-- The maps have been combined, whose entries `entries` are. -/
structure Combined (lists : Heap) (entries : List (ℤ × ListId)) (combining : Combining) : Prop where
  taken : combining.combinedMap.entries ⊆ entries
  key : ∀ e ∈ entries, ∃ e' ∈ combining.combinedMap.entries, e'.1 = e.1
  paths : ∀ e ∈ combining.combinedMap.entries, combining.lists e.2 =
    (entries.filter (·.1 = e.1)).flatMap fun e' => lists e'.2
  other : ∀ id, (∀ e ∈ combining.combinedMap.entries, e.2 ≠ id) → combining.lists id = lists id

section Combining

variable {lists : Heap} {entries : List (ℤ × ListId)} {combining : Combining} {e : ℤ × ListId}

lemma Combined.insert (h : Combined lists entries combining) (hnew : e.2 ∉ entries.map Prod.snd)
    (hnone : combining.combinedMap.lookup e.1 = none) :
    Combined lists (entries ++ [e])
      { combining with combinedMap := combining.combinedMap.insert e.1 e.2 } := by
  have hmem {e' : ℤ × ListId} : e' ∈ (combining.combinedMap.insert e.1 e.2).entries ↔
      e' = e ∨ e' ∈ combining.combinedMap.entries := by
    rw [(SortedMap.insert_perm hnone).mem_iff, List.mem_cons]
  have habsent := SortedMap.lookup_eq_none.1 hnone
  have hfilter : entries.filter (·.1 = e.1) = [] := by
    rw [List.filter_eq_nil_iff]
    intro e' he' heq
    obtain ⟨found, hfound, hkey⟩ := h.key e' he'
    exact habsent found hfound (hkey.trans (by simpa using heq))
  have hunused : ∀ e' ∈ combining.combinedMap.entries, e'.2 ≠ e.2 := fun e' he' heq =>
    hnew (heq ▸ List.mem_map_of_mem (h.taken he'))
  constructor
  case taken =>
    intro e' he'
    rcases hmem.1 he' with rfl | he'
    · exact List.mem_append_right _ List.mem_cons_self
    · exact List.mem_append_left _ (h.taken he')
  case key =>
    intro e' he'
    rcases List.mem_append.1 he' with he' | he'
    · obtain ⟨found, hfound, hkey⟩ := h.key e' he'
      exact ⟨found, hmem.2 (.inr hfound), hkey⟩
    · rw [List.mem_singleton.1 he']
      exact ⟨e, hmem.2 (.inl rfl), rfl⟩
  case paths =>
    intro e' he'
    rcases hmem.1 he' with rfl | he'
    · rw [List.filter_append, hfilter]
      simpa using h.other e'.2 hunused
    · rw [List.filter_append, List.filter_cons_of_neg (by simpa using (habsent e' he').symm)]
      simpa using h.paths e' he'
  case other => exact fun id hid => h.other id fun e' he' => hid e' (hmem.2 (.inr he'))

lemma Combined.append (h : Combined lists entries combining)
    (hnodup : (entries.map Prod.snd).Nodup) (hnew : e.2 ∉ entries.map Prod.snd) {id : ListId}
    (hsome : combining.combinedMap.lookup e.1 = some id) :
    Combined lists (entries ++ [e])
      { combining with
        lists := Function.update combining.lists id
          (combining.lists id ++ combining.lists e.2) } := by
  have hthere := SortedMap.lookup_eq_some.1 hsome
  have hunused : combining.lists e.2 = lists e.2 := h.other e.2 fun e' he' heq =>
    hnew (heq ▸ List.mem_map_of_mem (h.taken he'))
  refine ⟨fun e' he' => List.mem_append_left _ (h.taken he'), fun e' he' => ?_, fun e' he' => ?_,
    fun id' hid' => ?_⟩
  · rcases List.mem_append.1 he' with he' | he'
    · exact h.key e' he'
    · rw [List.mem_singleton.1 he']
      exact ⟨_, hthere, rfl⟩
  · dsimp only
    rw [List.filter_append, List.flatMap_append, ← h.paths e' he']
    by_cases heq : e'.2 = id
    · obtain rfl := List.inj_on_of_nodup_map hnodup (h.taken he') (h.taken hthere) heq
      rw [Function.update_self, hunused]
      simp
    · have hne : ¬ e.1 = e'.1 := fun hkey =>
        heq (congrArg Prod.snd (SortedMap.eq_of_mem he' hthere hkey.symm))
      rw [Function.update_of_ne heq]
      simp [hne]
  · exact (Function.update_of_ne (hid' _ hthere).symm _ _).trans (h.other id' hid')

lemma Combined.nodup_lists (h : Combined lists entries combining)
    (hnodup : (entries.map Prod.snd).Nodup) :
    (combining.combinedMap.entries.map Prod.snd).Nodup := by
  have hentries : combining.combinedMap.entries.Nodup :=
    List.Nodup.of_map _ combining.combinedMap.nodup_keys
  exact hentries.map_on fun e he e' he' heq =>
    List.inj_on_of_nodup_map hnodup (h.taken he) (h.taken he') heq

/-- **The maps are combined.** -/
theorem combined_foldl (hnodup : (entries.map Prod.snd).Nodup) :
    Combined lists entries (entries.foldl combineEntry ⟨.empty, lists⟩) := by
  induction entries using List.reverseRecOn with
  | nil =>
      exact ⟨by simp [SortedMap.empty], by simp, by simp [SortedMap.empty], fun _ _ => rfl⟩
  | append_singleton entries e ih =>
      rw [List.map_append, List.nodup_append] at hnodup
      obtain ⟨hbefore, -, hdisjoint⟩ := hnodup
      have hnew : e.2 ∉ entries.map Prod.snd := fun hmem =>
        hdisjoint e.2 hmem e.2 List.mem_cons_self rfl
      rw [List.foldl_concat, combineEntry]
      split
      · next hsome => exact (ih hbefore).append hbefore hnew hsome
      · next hnone => exact (ih hbefore).insert hnew hnone

end Combining

/-! ## Converting -/

/-- The index is the inverse of the list. -/
structure LastModifiedTimestampsAndPaths.Indexed (result : LastModifiedTimestampsAndPaths) :
    Prop where
  size : result.pathsIndexIntoFlatListHash.entries.length =
    result.sortedTimestampAndPathFlatList.length
  inverse : ∀ path i, result.pathsIndexIntoFlatListHash.lookup path = some i ↔
    ∃ timestamp, result.sortedTimestampAndPathFlatList[i]? = some (timestamp, path)

/-- What is published of a list. -/
def shown (lists : Heap) (e : ℤ × ListId) : List TimestampAndPath :=
  ((lists e.2).filterMap internalPath).map fun path => (e.1, path)

section Converting

variable {result : LastModifiedTimestampsAndPaths} {lists : Heap} {entries : List (ℤ × ListId)}

lemma LastModifiedTimestampsAndPaths.Indexed.concat (h : result.Indexed) {timestamp : ℤ}
    {path : Text} (hnew : path ∉ result.sortedTimestampAndPathFlatList.map Prod.snd) :
    Indexed
      { sortedTimestampAndPathFlatList :=
          result.sortedTimestampAndPathFlatList ++ [(timestamp, path)]
        pathsIndexIntoFlatListHash := result.pathsIndexIntoFlatListHash.insert path
          result.sortedTimestampAndPathFlatList.length } := by
  have habsent : path ∉ result.pathsIndexIntoFlatListHash := by
    rw [← AList.lookup_eq_none, Option.eq_none_iff_forall_ne_some]
    intro i hi
    obtain ⟨timestamp', hat⟩ := (h.inverse path i).1 hi
    exact hnew (List.mem_map.2 ⟨_, List.mem_of_getElem? hat, rfl⟩)
  constructor
  case size =>
    rw [AList.entries_insert_of_notMem habsent, List.length_cons, h.size, List.length_append,
      List.length_singleton]
  case inverse =>
    intro path' i
    by_cases heq : path' = path
    · subst heq
      rw [AList.lookup_insert, Option.some_inj]
      constructor
      · rintro rfl
        exact ⟨timestamp, by simp⟩
      · rintro ⟨timestamp', hat⟩
        by_contra hne
        have hlt : i < result.sortedTimestampAndPathFlatList.length := by
          have hbound := (List.getElem?_eq_some_iff.1 hat).1
          rw [List.length_append, List.length_singleton] at hbound
          omega
        rw [List.getElem?_append_left hlt] at hat
        exact hnew (List.mem_map.2 ⟨_, List.mem_of_getElem? hat, rfl⟩)
    · rw [AList.lookup_insert_ne heq, h.inverse]
      refine exists_congr fun timestamp' => ?_
      by_cases hlt : i < result.sortedTimestampAndPathFlatList.length
      · rw [List.getElem?_append_left hlt]
      · rw [List.getElem?_eq_none (Nat.not_lt.1 hlt), List.getElem?_append_right (Nat.not_lt.1 hlt)]
        constructor
        · intro hnone
          cases hnone
        · intro hat
          have hlast := List.mem_singleton.1 (List.mem_of_getElem? hat)
          exact absurd (Prod.mk.inj hlast).2 heq

lemma addPath_list (timestamp : ℤ) (path : Text) :
    (addPath timestamp result path).sortedTimestampAndPathFlatList =
      result.sortedTimestampAndPathFlatList ++
        (internalPath path).toList.map fun path => (timestamp, path) := by
  unfold addPath
  split
  · next hnone => rw [hnone]; simp
  · next hsome => rw [hsome]; rfl

lemma foldl_addPath_list (timestamp : ℤ) (paths : List Text) :
    (paths.foldl (addPath timestamp) result).sortedTimestampAndPathFlatList =
      result.sortedTimestampAndPathFlatList ++
        (paths.filterMap internalPath).map fun path => (timestamp, path) := by
  induction paths generalizing result with
  | nil => simp
  | cons path rest ih =>
      rw [List.foldl_cons, ih, addPath_list, List.append_assoc, ← List.map_append]
      congr 2
      cases h : internalPath path with
      | none => rw [List.filterMap_cons_none h]; rfl
      | some p => rw [List.filterMap_cons_some h]; rfl

/-- The index stays the inverse as long as no path comes twice. -/
lemma indexed_addPath (h : (result.sortedTimestampAndPathFlatList.map Prod.snd).Nodup →
    result.Indexed) (timestamp : ℤ) (path : Text)
    (hnodup : ((addPath timestamp result path).sortedTimestampAndPathFlatList.map
      Prod.snd).Nodup) : (addPath timestamp result path).Indexed := by
  rw [addPath_list, List.map_append, List.nodup_append] at hnodup
  have hbefore := h hnodup.1
  unfold addPath
  split
  · exact hbefore
  · next currentPath hsome =>
      rw [hsome] at hnodup
      refine hbefore.concat fun hmem => ?_
      exact hnodup.2.2 currentPath hmem currentPath (by simp) rfl

lemma indexed_foldl_addPath (h : (result.sortedTimestampAndPathFlatList.map Prod.snd).Nodup →
    result.Indexed) (timestamp : ℤ) (paths : List Text)
    (hnodup : ((paths.foldl (addPath timestamp) result).sortedTimestampAndPathFlatList.map
      Prod.snd).Nodup) : (paths.foldl (addPath timestamp) result).Indexed := by
  induction paths generalizing result with
  | nil => exact h hnodup
  | cons path rest ih =>
      exact ih (indexed_addPath h timestamp path) hnodup

/-- The entries have been converted. -/
structure Converted (lists : Heap) (entries : List (ℤ × ListId)) (converting : Converting) :
    Prop where
  sorted : ∀ id ∈ entries.map Prod.snd,
    converting.lists id = (lists id).insertionSort (· ≤ ·)
  other : ∀ id ∉ entries.map Prod.snd, converting.lists id = lists id
  list : converting.result.sortedTimestampAndPathFlatList =
    entries.flatMap (shown fun id => (lists id).insertionSort (· ≤ ·))
  indexed : (converting.result.sortedTimestampAndPathFlatList.map Prod.snd).Nodup →
    converting.result.Indexed

/-- **The combined map is converted.** -/
theorem converted_foldl (hnodup : (entries.map Prod.snd).Nodup) :
    Converted lists entries (entries.foldl convertEntry ⟨lists, ⟨[], ∅⟩⟩) := by
  induction entries using List.reverseRecOn with
  | nil =>
      exact ⟨by simp, fun _ _ => rfl, rfl, fun _ => ⟨rfl, by simp⟩⟩
  | append_singleton entries e ih =>
      rw [List.map_append, List.nodup_append] at hnodup
      obtain ⟨hbefore, -, hdisjoint⟩ := hnodup
      have hnew : e.2 ∉ entries.map Prod.snd := fun hmem =>
        hdisjoint e.2 hmem e.2 List.mem_cons_self rfl
      have h := ih hbefore
      rw [List.foldl_concat, convertEntry]
      constructor
      case sorted =>
        intro id hid
        dsimp only
        by_cases heq : id = e.2
        · rw [heq, Function.update_self, h.other _ hnew]
        · rw [Function.update_of_ne heq]
          rw [List.map_append, List.mem_append] at hid
          exact h.sorted id (hid.resolve_right fun hmem => heq (List.mem_singleton.1 hmem))
      case other =>
        intro id hid
        rw [List.map_append, List.mem_append, not_or] at hid
        dsimp only
        have hne : id ≠ e.2 := fun heq => hid.2 (by simp [heq])
        rw [Function.update_of_ne hne, h.other id hid.1]
      case list =>
        dsimp only
        rw [foldl_addPath_list, h.list, h.other _ hnew, List.flatMap_append]
        simp [shown]
      case indexed => exact indexed_foldl_addPath h.indexed e.1 _

end Converting

/-! ## What is published -/

/-- Elements that are sorted into groups. -/
lemma flatMap_filter_perm {α : Type} {keys : List ℤ} {entries : List (ℤ × α)} (hnodup : keys.Nodup)
    (hkeys : ∀ e ∈ entries, e.1 ∈ keys) :
    (keys.flatMap fun key => entries.filter (·.1 = key)).Perm entries := by
  induction keys generalizing entries with
  | nil =>
      have hnil : entries = [] := List.eq_nil_iff_forall_not_mem.2 fun e he =>
        List.not_mem_nil (hkeys e he)
      rw [hnil]
      exact List.Perm.refl _
  | cons key keys ih =>
      obtain ⟨hnot, hrest⟩ := List.nodup_cons.1 hnodup
      have hothers : keys.flatMap (fun key' => entries.filter (·.1 = key')) =
          keys.flatMap fun key' => (entries.filter (¬ ·.1 = key)).filter (·.1 = key') := by
        refine List.flatMap_congr fun key' hkey' => ?_
        rw [List.filter_filter]
        refine List.filter_congr fun e _ => ?_
        have hne : key' ≠ key := fun heq => hnot (heq ▸ hkey')
        by_cases heq : e.1 = key' <;> simp [heq, hne]
      have hlater := @ih (entries.filter (¬ ·.1 = key)) hrest fun e he => by
        obtain ⟨he, hne⟩ := List.mem_filter.1 he
        exact (List.mem_cons.1 (hkeys e he)).resolve_left (by simpa using hne)
      rw [List.flatMap_cons, hothers]
      refine (List.Perm.append_left _ hlater).trans ?_
      have hsplit := List.filter_append_perm (fun e : ℤ × α => decide (e.1 = key)) entries
      simpa using hsplit

section Publishing

variable {lists : Heap} {entries : List (ℤ × ListId)} {combining : Combining}
  {converting : Converting}

lemma shown_congr {lists' : Heap} {e : ℤ × ListId} (h : (lists e.2).Perm (lists' e.2)) :
    (shown lists e).Perm (shown lists' e) := (h.filterMap _).map _

/-- A list of the combined map holds those of all the files. -/
lemma Combined.shown_eq (h : Combined lists entries combining) {e : ℤ × ListId}
    (he : e ∈ combining.combinedMap.entries) :
    shown combining.lists e = (entries.filter (·.1 = e.1)).flatMap (shown lists) := by
  rw [shown, h.paths e he, List.filterMap_flatMap, List.map_flatMap]
  refine List.flatMap_congr fun e' he' => ?_
  have hkey : e'.1 = e.1 := by simpa using (List.mem_filter.1 he').2
  rw [shown, hkey]

/-- **What is published is the union**, as the lists have it. -/
lemma Converted.list_perm (h : Combined lists entries combining)
    (hconverted : Converted combining.lists combining.combinedMap.entries converting) :
    converting.result.sortedTimestampAndPathFlatList.Perm (entries.flatMap (shown lists)) := by
  have hsorted : (combining.combinedMap.entries.flatMap
      (shown fun id => (combining.lists id).insertionSort (· ≤ ·))).Perm
        (combining.combinedMap.entries.flatMap (shown combining.lists)) :=
    List.Perm.flatMap_left _ fun e _ => shown_congr (List.perm_insertionSort _ _)
  have hgroups : combining.combinedMap.entries.flatMap (shown combining.lists) =
      ((combining.combinedMap.entries.map Prod.fst).flatMap fun key =>
        entries.filter (·.1 = key)).flatMap (shown lists) := by
    rw [List.flatMap_assoc, List.flatMap_map]
    exact List.flatMap_congr fun e he => h.shown_eq he
  rw [hconverted.list]
  refine hsorted.trans ?_
  rw [hgroups]
  refine List.Perm.flatMap_right _ (flatMap_filter_perm combining.combinedMap.nodup_keys ?_)
  intro e he
  obtain ⟨found, hfound, hkey⟩ := h.key e he
  exact List.mem_map.2 ⟨found, hfound, hkey⟩

/-- The internal paths are ordered as the paths are. -/
lemma le_internalPath {path path' shownPath shownPath' : Text} (h : path ≤ path')
    (hpath : internalPath path = some shownPath) (hpath' : internalPath path' = some shownPath') :
    shownPath ≤ shownPath' := by
  unfold internalPath at hpath hpath'
  dsimp only at hpath hpath'
  split at hpath
  · cases hpath
  · split at hpath'
    · cases hpath'
    · obtain rfl := Option.some.inj hpath
      obtain rfl := Option.some.inj hpath'
      exact List.cons_le_cons _ h

/-- **It is sorted** by timestamp and path. -/
lemma Converted.list_sorted {map : SortedMap ℤ ListId}
    (h : Converted lists map.entries converting) :
    converting.result.sortedTimestampAndPathFlatList.Pairwise fun a b =>
      a.1 < b.1 ∨ a.1 = b.1 ∧ a.2 ≤ b.2 := by
  rw [h.list, List.pairwise_flatMap]
  constructor
  · intro e _
    rw [shown, List.pairwise_map]
    have hsorted := List.pairwise_insertionSort (· ≤ ·) (lists e.2)
    refine (hsorted.filterMap internalPath fun path path' hle => ?_).imp fun hle =>
      .inr ⟨rfl, hle⟩
    exact fun shownPath hpath shownPath' hpath' => le_internalPath hle hpath hpath'
  · refine map.sorted.imp fun hlt a ha b hb => .inl ?_
    obtain ⟨path, -, rfl⟩ := List.mem_map.1 ha
    obtain ⟨path', -, rfl⟩ := List.mem_map.1 hb
    exact hlt

/-- Nothing is lost from a list. -/
lemma Converted.subperm (h : Combined lists entries combining)
    (hconverted : Converted combining.lists combining.combinedMap.entries converting)
    (hnodup : (entries.map Prod.snd).Nodup) {e : ℤ × ListId} (he : e ∈ entries) :
    List.Subperm (lists e.2) (converting.lists e.2) := by
  by_cases hid : e.2 ∈ combining.combinedMap.entries.map Prod.snd
  · obtain ⟨found, hfound, heq⟩ := List.mem_map.1 hid
    obtain rfl := List.inj_on_of_nodup_map hnodup (h.taken hfound) he heq
    rw [hconverted.sorted _ hid]
    refine List.Subperm.trans ?_ (List.perm_insertionSort _ _).symm.subperm
    rw [h.paths found hfound]
    refine List.Sublist.subperm (List.sublist_flatten_of_mem (List.mem_map.2 ⟨found, ?_, rfl⟩))
    exact List.mem_filter.2 ⟨he, by simp⟩
  · rw [hconverted.other _ hid, h.other e.2 fun e' he' heq => hid (List.mem_map.2 ⟨e', he', heq⟩)]

end Publishing

namespace LastModifiedTimestampsWatcher

/-- The valid lines of a file that is watched. -/
def entries (st : LastModifiedTimestampsWatcher) (file : ℕ) : List TimestampAndPath :=
  entriesOf (st.pathPrefix file) (st.contents file)

/-- The entries for all valid lines of files that contain `contents`, directories left out. -/
def union (st : LastModifiedTimestampsWatcher) (contents : ℕ → List Text) :
    List TimestampAndPath :=
  (List.range st.files).flatMap fun file =>
    (entriesOf (st.pathPrefix file) (contents file)).filterMap fun e =>
      (internalPath e.2).map fun path => (e.1, path)

structure IsSortedUnion (st : LastModifiedTimestampsWatcher) (p : Published) : Prop where
  complete : p.sortedTimestampAndPathFlatList.Perm (st.union p.contents)
  sorted : p.sortedTimestampAndPathFlatList.Pairwise fun a b =>
    a.1 < b.1 ∨ a.1 = b.1 ∧ a.2 ≤ b.2
  indexed : p.Indexed

/-- **The published timeline is the sorted union of the files**, as they were at the time.

Every publication counts and not only the last one, since a reader may still hold an earlier list.
-/
def PublishesSortedUnion (st : LastModifiedTimestampsWatcher) : Prop :=
  ∀ p ∈ st.published, st.IsSortedUnion p

/-- No two lines have the same path. -/
def DistinctPaths (st : LastModifiedTimestampsWatcher) : Prop :=
  ((List.range st.files).flatMap fun file => (st.entries file).map Prod.snd).Nodup

/-- The lists that are kept for a file hold no path that is not in the file, but for those of
directories. -/
def KeepsOwnPaths (st : LastModifiedTimestampsWatcher) (file : ℕ) : Prop :=
  ∀ e ∈ (st.maps file).entries, ((st.lists e.2).filterMap internalPath).Perm
    ((pathsAt e.1 (st.entries file)).filterMap internalPath)

/-- The condition: all but the file that is read again keep their own paths.  It is about the lists
before the change, which combining has appended to in earlier ones. -/
def OthersKeepOwnPaths (st : LastModifiedTimestampsWatcher) (x : FileChanged) : Prop :=
  x.file < st.files → ∀ file < st.files, file ≠ x.file → st.KeepsOwnPaths file

/-! ## The lists that are kept -/

structure Kept (st : LastModifiedTimestampsWatcher) : Prop where
  made : ∀ file < st.files, ∀ e ∈ (st.maps file).entries, e.2 < st.made
  single : ∀ file < st.files, ∀ other < st.files, ∀ e ∈ (st.maps file).entries,
    ∀ e' ∈ (st.maps other).entries, e.2 = e'.2 → file = other ∧ e = e'
  own : ∀ file < st.files, ∀ e ∈ (st.maps file).entries,
    List.Subperm (pathsAt e.1 (st.entries file)) (st.lists e.2)
  key : ∀ file < st.files, ∀ timestamp, (∃ e ∈ st.entries file, e.1 = timestamp) ↔
    ∃ e ∈ (st.maps file).entries, e.1 = timestamp

section Reading

variable {st : LastModifiedTimestampsWatcher} {file other : ℕ} {lines : List Text}

lemma maps_read_self : (st.addAndReadLastModifiedTimestampsFile file lines).maps file =
    (lines.foldl (readLine (st.pathPrefix file)) ⟨.empty, st.lists, st.made⟩).map :=
  Function.update_self _ _ _

lemma maps_read_of_ne (hne : other ≠ file) :
    (st.addAndReadLastModifiedTimestampsFile file lines).maps other = st.maps other :=
  Function.update_of_ne hne _ _

lemma entries_read_self : (st.addAndReadLastModifiedTimestampsFile file lines).entries file =
    entriesOf (st.pathPrefix file) lines := by
  rw [entries, addAndReadLastModifiedTimestampsFile]
  dsimp only
  rw [Function.update_self]

lemma entries_read_of_ne (hne : other ≠ file) :
    (st.addAndReadLastModifiedTimestampsFile file lines).entries other = st.entries other := by
  rw [entries, addAndReadLastModifiedTimestampsFile]
  dsimp only
  rw [Function.update_of_ne hne]
  rfl

/-- The lists of the other files are as they were. -/
lemma Kept.lists_read (h : st.Kept) (hother : other < st.files) {e : ℤ × ListId}
    (he : e ∈ (st.maps other).entries) :
    (st.addAndReadLastModifiedTimestampsFile file lines).lists e.2 = st.lists e.2 :=
  (read_foldl st.lists st.made (st.pathPrefix file) lines).old e.2 (h.made other hother e he)

/-- **A file is read again.** -/
lemma Kept.read (h : st.Kept) (file : ℕ) (lines : List Text) :
    (st.addAndReadLastModifiedTimestampsFile file lines).Kept := by
  have hread := read_foldl st.lists st.made (st.pathPrefix file) lines
  constructor
  case made =>
    intro other hother e he
    by_cases heq : other = file
    · subst heq
      rw [maps_read_self] at he
      exact (hread.new e he).2
    · rw [maps_read_of_ne heq] at he
      exact Nat.lt_of_lt_of_le (h.made other hother e he) hread.grown
  case single =>
    -- a list that is made now is not among those that were made before
    have hapart {other : ℕ} (hother : other < st.files) {e e' : ℤ × ListId}
        (he : e ∈ (st.maps other).entries)
        (he' : e' ∈ (lines.foldl (readLine (st.pathPrefix file))
          ⟨.empty, st.lists, st.made⟩).map.entries) : e.2 ≠ e'.2 :=
      Nat.ne_of_lt (Nat.lt_of_lt_of_le (h.made other hother e he) (hread.new e' he').1)
    intro one hone other hother e he e' he' heq
    by_cases hone' : one = file <;> by_cases hother' : other = file
    · subst hone' hother'
      rw [maps_read_self] at he he'
      exact ⟨rfl, hread.single e he e' he' heq⟩
    · subst hone'
      rw [maps_read_self] at he
      rw [maps_read_of_ne hother'] at he'
      exact absurd heq.symm (hapart hother he' he)
    · subst hother'
      rw [maps_read_of_ne hone'] at he
      rw [maps_read_self] at he'
      exact absurd heq (hapart hone he he')
    · rw [maps_read_of_ne hone'] at he
      rw [maps_read_of_ne hother'] at he'
      exact h.single one hone other hother e he e' he' heq
  case own =>
    intro other hother e he
    by_cases heq : other = file
    · subst heq
      rw [maps_read_self] at he
      rw [entries_read_self, ← hread.paths e he]
      exact List.Subperm.refl _
    · rw [maps_read_of_ne heq] at he
      rw [entries_read_of_ne heq, h.lists_read hother he]
      exact h.own other hother e he
  case key =>
    intro other hother timestamp
    by_cases heq : other = file
    · subst heq
      rw [maps_read_self, entries_read_self]
      exact hread.key timestamp
    · rw [maps_read_of_ne heq, entries_read_of_ne heq]
      exact h.key other hother timestamp

/-- The file that is read keeps its own paths. -/
lemma keepsOwnPaths_read_self :
    (st.addAndReadLastModifiedTimestampsFile file lines).KeepsOwnPaths file := by
  intro e he
  rw [maps_read_self] at he
  rw [entries_read_self,
    ← (read_foldl st.lists st.made (st.pathPrefix file) lines).paths e he]
  exact List.Perm.refl _

lemma Kept.keepsOwnPaths_read_of_ne (h : st.Kept) (hother : other < st.files)
    (hne : other ≠ file) :
    (st.addAndReadLastModifiedTimestampsFile file lines).KeepsOwnPaths other ↔
      st.KeepsOwnPaths other := by
  rw [KeepsOwnPaths, KeepsOwnPaths, maps_read_of_ne hne, entries_read_of_ne hne]
  refine forall₂_congr fun e he => ?_
  rw [h.lists_read hother he]

/-- After a file has been read, all keep their own paths if the others do. -/
lemma Kept.keepOwnPaths_read (h : st.Kept) (x : FileChanged) (hx : x.file < st.files) :
    (∀ file < st.files,
      (st.addAndReadLastModifiedTimestampsFile x.file x.lines).KeepsOwnPaths file) ↔
        st.OthersKeepOwnPaths x := by
  constructor
  · intro hall _ file hfile hne
    exact (h.keepsOwnPaths_read_of_ne hfile hne).1 (hall file hfile)
  · intro hothers file hfile
    by_cases heq : file = x.file
    · rw [heq]
      exact keepsOwnPaths_read_self
    · exact (h.keepsOwnPaths_read_of_ne hfile heq).2 (hothers hx file hfile heq)

end Reading

/-! ## All files are combined -/

section Combining

variable {st : LastModifiedTimestampsWatcher}

lemma arrange_perm (order : List ℕ) : (st.arrange order).Perm (List.range st.files) := by
  unfold arrange
  split
  · next hperm => exact hperm
  · exact List.Perm.refl _

/-- No two entries have the same list. -/
lemma Kept.nodup_lists (h : st.Kept) (order : List ℕ) :
    (((st.arrange order).flatMap fun file => (st.maps file).entries).map Prod.snd).Nodup := by
  have hmem {file : ℕ} (hfile : file ∈ st.arrange order) : file < st.files :=
    List.mem_range.1 ((arrange_perm order).mem_iff.1 hfile)
  rw [List.map_flatMap, List.nodup_flatMap]
  constructor
  · intro file hfile
    have hentries : (st.maps file).entries.Nodup := List.Nodup.of_map _ (st.maps file).nodup_keys
    refine hentries.map_on fun e he e' he' heq => ?_
    exact (h.single file (hmem hfile) file (hmem hfile) e he e' he' heq).2
  · have hnodup : (st.arrange order).Nodup := (arrange_perm order).nodup_iff.2 List.nodup_range
    refine List.Pairwise.imp_of_mem (fun hone hother hne => ?_) hnodup
    intro id hid hid'
    obtain ⟨e, he, rfl⟩ := List.mem_map.1 hid
    obtain ⟨e', he', heq⟩ := List.mem_map.1 hid'
    exact hne (h.single _ (hmem hone) _ (hmem hother) e he e' he' heq.symm).1

/-- **What combining can do.** -/
lemma Kept.combine_cases (h : st.Kept) (order : List ℕ) :
    ∃ combining converting,
      Combined st.lists ((st.arrange order).flatMap fun file => (st.maps file).entries) combining ∧
      Converted combining.lists combining.combinedMap.entries converting ∧
      ((converting.result.sortedTimestampAndPathFlatList = [] ∧
          st.combineAndPublishLastModifiedTimestampsFiles order =
            { st with lists := converting.lists }) ∨
        st.combineAndPublishLastModifiedTimestampsFiles order =
          { st with
            lists := converting.lists
            published := st.published ++ [⟨converting.result, st.contents⟩] }) := by
  have hnodup := h.nodup_lists order
  have hcombined := @combined_foldl st.lists _ hnodup
  refine ⟨_, _, hcombined, converted_foldl (hcombined.nodup_lists hnodup), ?_⟩
  rw [combineAndPublishLastModifiedTimestampsFiles, List.foldl_flatMap]
  dsimp only
  split
  · next hempty => exact .inl ⟨hempty, rfl⟩
  · exact .inr rfl

/-- **Combining keeps them.** -/
lemma Kept.combine (h : st.Kept) (order : List ℕ) :
    (st.combineAndPublishLastModifiedTimestampsFiles order).Kept := by
  obtain ⟨combining, converting, hcombined, hconverted, hcases⟩ := h.combine_cases order
  have hnodup := h.nodup_lists order
  have hkept : ({ st with lists := converting.lists } : LastModifiedTimestampsWatcher).Kept := by
    refine ⟨h.made, h.single, fun file hfile e he => (h.own file hfile e he).trans ?_, h.key⟩
    refine hconverted.subperm hcombined hnodup (List.mem_flatMap.2 ⟨file, ?_, he⟩)
    exact (arrange_perm order).mem_iff.2 (List.mem_range.2 hfile)
  rcases hcases with ⟨-, heq⟩ | heq
  · rw [heq]
    exact hkept
  · rw [heq]
    exact ⟨hkept.made, hkept.single, hkept.own, hkept.key⟩

lemma entries_combine (order : List ℕ) (file : ℕ) :
    (st.combineAndPublishLastModifiedTimestampsFiles order).entries file = st.entries file := by
  rw [combineAndPublishLastModifiedTimestampsFiles]
  dsimp only
  split <;> rfl

lemma files_combine (order : List ℕ) :
    (st.combineAndPublishLastModifiedTimestampsFiles order).files = st.files := by
  rw [combineAndPublishLastModifiedTimestampsFiles]
  dsimp only
  split <;> rfl

end Combining

/-! ## The union -/

section Union

variable {st : LastModifiedTimestampsWatcher}

/-- What the file itself says of an entry. -/
def ownShown (st : LastModifiedTimestampsWatcher) (file : ℕ) (e : ℤ × ListId) :
    List TimestampAndPath :=
  ((pathsAt e.1 (st.entries file)).filterMap internalPath).map fun path => (e.1, path)

lemma Kept.ownShown_subperm (h : st.Kept) {file : ℕ} (hfile : file < st.files) {e : ℤ × ListId}
    (he : e ∈ (st.maps file).entries) : (st.ownShown file e).Subperm (shown st.lists e) := by
  obtain ⟨paths, hperm, hsublist⟩ := h.own file hfile e he
  exact ⟨_, (hperm.filterMap internalPath).map _, (hsublist.filterMap internalPath).map _⟩

lemma keepsOwnPaths_iff (file : ℕ) : st.KeepsOwnPaths file ↔
    ∀ e ∈ (st.maps file).entries, (st.ownShown file e).Perm (shown st.lists e) := by
  refine forall₂_congr fun e _ => ?_
  rw [ownShown, shown, List.map_perm_map_iff (Prod.mk_right_injective e.1)]
  exact List.perm_comm

/-- The union is that of what the files say of their entries. -/
lemma Kept.union_perm (h : st.Kept) : (st.union st.contents).Perm
    ((List.range st.files).flatMap fun file => (st.maps file).entries.flatMap
      (st.ownShown file)) := by
  refine List.Perm.flatMap_left _ fun file hfile => ?_
  have hfile := List.mem_range.1 hfile
  change ((st.entries file).filterMap _).Perm _
  have hgroups := @flatMap_filter_perm _ ((st.maps file).entries.map Prod.fst) (st.entries file)
    (st.maps file).nodup_keys fun e he => by
      obtain ⟨e', he', heq⟩ := (h.key file hfile e.1).1 ⟨e, he, rfl⟩
      exact List.mem_map.2 ⟨e', he', heq⟩
  refine (hgroups.symm.filterMap _).trans (List.Perm.of_eq ?_)
  rw [List.filterMap_flatMap, List.flatMap_map]
  refine List.flatMap_congr fun e _ => ?_
  rw [ownShown, pathsAt, List.filterMap_map, List.map_filterMap]
  refine List.filterMap_congr fun e' he' => ?_
  have hkey : e'.1 = e.1 := by simpa using (List.mem_filter.1 he').2
  rw [hkey]
  rfl

lemma subperm_flatMap {α β : Type} {l : List α} {f g : α → List β}
    (h : ∀ a ∈ l, (f a).Subperm (g a)) : (l.flatMap f).Subperm (l.flatMap g) := by
  induction l with
  | nil => exact List.Subperm.refl _
  | cons a rest ih =>
      rw [List.flatMap_cons, List.flatMap_cons]
      have hrest := ih fun b hb => h b (List.mem_cons_of_mem a hb)
      exact List.Subperm.append (h a List.mem_cons_self) hrest

/-- Parts that are at most as large have the same sum only if each is as large. -/
lemma flatMap_perm_iff {α β : Type} {l : List α} {f g : α → List β}
    (h : ∀ a ∈ l, (f a).Subperm (g a)) :
    (l.flatMap f).Perm (l.flatMap g) ↔ ∀ a ∈ l, (f a).Perm (g a) := by
  refine ⟨fun hperm => ?_, fun heach => List.Perm.flatMap_left l heach⟩
  induction l with
  | nil => exact fun a ha => absurd ha List.not_mem_nil
  | cons a rest ih =>
      have hhead := h a List.mem_cons_self
      have hrest : ∀ b ∈ rest, (f b).Subperm (g b) := fun b hb => h b (List.mem_cons_of_mem a hb)
      have hlength := hperm.length_eq
      have htail := subperm_flatMap hrest
      rw [List.flatMap_cons, List.flatMap_cons, List.length_append, List.length_append] at hlength
      have hhead_length := hhead.length_le
      have htail_length := htail.length_le
      have hhead_perm : (f a).Perm (g a) := hhead.perm_of_length_le (by omega)
      have htail_perm := htail.perm_of_length_le (by omega)
      intro b hb
      rcases List.mem_cons.1 hb with rfl | hb
      · exact hhead_perm
      · exact ih hrest htail_perm b hb

/-- **The lists that are kept show the union** exactly if all files keep their own paths. -/
lemma Kept.union_perm_iff (h : st.Kept) :
    ((List.range st.files).flatMap fun file => (st.maps file).entries.flatMap
      (shown st.lists)).Perm (st.union st.contents) ↔
        ∀ file < st.files, st.KeepsOwnPaths file := by
  have hsubperm : ∀ file ∈ List.range st.files, ∀ e ∈ (st.maps file).entries,
      (st.ownShown file e).Subperm (shown st.lists e) := fun file hfile e he =>
    h.ownShown_subperm (List.mem_range.1 hfile) he
  have hunion := h.union_perm
  calc _ ↔ ((List.range st.files).flatMap fun file => (st.maps file).entries.flatMap
          (st.ownShown file)).Perm ((List.range st.files).flatMap fun file =>
            (st.maps file).entries.flatMap (shown st.lists)) :=
        ⟨fun hperm => hunion.symm.trans hperm.symm, fun hperm => hperm.symm.trans hunion.symm⟩
    _ ↔ ∀ file ∈ List.range st.files, ((st.maps file).entries.flatMap (st.ownShown file)).Perm
          ((st.maps file).entries.flatMap (shown st.lists)) :=
        flatMap_perm_iff fun file hfile => subperm_flatMap (hsubperm file hfile)
    _ ↔ ∀ file ∈ List.range st.files, st.KeepsOwnPaths file :=
        forall₂_congr fun file hfile => by
          rw [flatMap_perm_iff (hsubperm file hfile), keepsOwnPaths_iff]
    _ ↔ _ := by simp only [List.mem_range]

/-- No path is published twice, if no two lines have the same. -/
lemma nodup_union (h : st.DistinctPaths) : ((st.union st.contents).map Prod.snd).Nodup := by
  have hpaths : (st.union st.contents).map Prod.snd =
      ((List.range st.files).flatMap fun file => (st.entries file).map Prod.snd).filterMap
        internalPath := by
    rw [union, List.map_flatMap, List.filterMap_flatMap]
    refine List.flatMap_congr fun file _ => ?_
    rw [List.map_filterMap, List.filterMap_map]
    refine List.filterMap_congr fun e _ => ?_
    rw [Option.map_map]
    exact Option.map_id'
  rw [hpaths]
  refine List.Nodup.filterMap (fun path path' shownPath hpath hpath' => ?_) h
  unfold internalPath at hpath hpath'
  dsimp only at hpath hpath'
  split at hpath
  · cases hpath
  · split at hpath'
    · cases hpath'
    · have heq := (Option.some.inj hpath).trans (Option.some.inj hpath').symm
      exact (List.cons.inj heq).2

end Union

/-! ## Each publish -/

section Publishing

variable {st : LastModifiedTimestampsWatcher}

lemma IsSortedUnion.of_eq {st' : LastModifiedTimestampsWatcher} {p : Published}
    (h : st.IsSortedUnion p) (hfiles : st'.files = st.files)
    (hpathPrefix : st'.pathPrefix = st.pathPrefix) : st'.IsSortedUnion p := by
  refine ⟨?_, h.sorted, h.indexed⟩
  rw [union, hfiles, hpathPrefix]
  exact h.complete

lemma distinctPaths_combine (order : List ℕ) :
    (st.combineAndPublishLastModifiedTimestampsFiles order).DistinctPaths ↔ st.DistinctPaths := by
  rw [DistinctPaths, DistinctPaths, files_combine]
  simp only [entries_combine]

/-- What is published is right exactly if all files keep their own paths. -/
lemma Kept.publishes_combine (h : st.Kept) (hdistinct : st.DistinctPaths)
    (hpublished : st.PublishesSortedUnion) (order : List ℕ) :
    (st.combineAndPublishLastModifiedTimestampsFiles order).PublishesSortedUnion ↔
      ∀ file < st.files, st.KeepsOwnPaths file := by
  obtain ⟨combining, converting, hcombined, hconverted, hcases⟩ := h.combine_cases order
  have hlist : converting.result.sortedTimestampAndPathFlatList.Perm
      ((List.range st.files).flatMap fun file => (st.maps file).entries.flatMap
        (shown st.lists)) := by
    refine (hconverted.list_perm hcombined).trans ?_
    rw [List.flatMap_assoc]
    exact List.Perm.flatMap_right _ (arrange_perm order)
  rw [← h.union_perm_iff]
  rcases hcases with ⟨hempty, heq⟩ | heq
  · rw [heq]
    -- nothing is published, and there is nothing to publish
    rw [hempty] at hlist
    refine ⟨fun _ => ?_, fun _ p hp => (hpublished p hp).of_eq rfl rfl⟩
    have hunion : (st.union st.contents).Perm [] := by
      refine List.Subperm.perm_of_length_le ?_ (Nat.zero_le _)
      refine (h.union_perm.subperm.trans ?_).trans hlist.symm.subperm
      exact subperm_flatMap fun file hfile => subperm_flatMap fun e he =>
        h.ownShown_subperm (List.mem_range.1 hfile) he
    exact hlist.symm.trans hunion.symm
  · rw [heq]
    constructor
    · intro hall
      exact hlist.symm.trans (hall _ (List.mem_append_right _ List.mem_cons_self)).complete
    · intro hkept p hp
      have hcomplete := hlist.trans hkept
      rcases List.mem_append.1 hp with hp | hp
      · exact (hpublished p hp).of_eq rfl rfl
      · rw [List.mem_singleton.1 hp]
        refine ⟨hcomplete, hconverted.list_sorted, hconverted.indexed ?_⟩
        exact (hcomplete.map Prod.snd).nodup_iff.2 (nodup_union hdistinct)

/-- **One change.** -/
theorem publishesSortedUnion_step (h : st.Kept) (hpublished : st.PublishesSortedUnion)
    {x : FileChanged} (hdistinct : (st.handleLastModifiedTimestampsChanged x).DistinctPaths) :
    (st.handleLastModifiedTimestampsChanged x).PublishesSortedUnion ↔
      st.OthersKeepOwnPaths x := by
  rw [handleLastModifiedTimestampsChanged] at hdistinct ⊢
  split at hdistinct
  · next hx =>
      rw [if_pos hx, ← h.keepOwnPaths_read x hx]
      exact (h.read x.file x.lines).publishes_combine ((distinctPaths_combine x.order).1 hdistinct)
        (fun p hp => (hpublished p hp).of_eq rfl rfl) x.order
  · next hx =>
      rw [if_neg hx]
      exact ⟨fun _ hlt => absurd hlt hx, fun _ => hpublished⟩

lemma Kept.handle (h : st.Kept) (x : FileChanged) :
    (st.handleLastModifiedTimestampsChanged x).Kept := by
  rw [handleLastModifiedTimestampsChanged]
  split
  · exact (h.read x.file x.lines).combine x.order
  · exact h

/-- Nothing has been read yet, or only once. -/
lemma kept_read_all (h : st.Kept) (hown : ∀ file, st.KeepsOwnPaths file)
    (contents : ℕ → List Text) (hpublished : st.published = []) (files : ℕ) :
    let read := (List.range files).foldl (fun st file =>
      st.addAndReadLastModifiedTimestampsFile file (contents file)) st
    read.Kept ∧ (∀ file < st.files, read.KeepsOwnPaths file) ∧ read.files = st.files ∧
      read.published = [] := by
  induction files with
  | zero => exact ⟨h, fun file _ => hown file, rfl, hpublished⟩
  | succ files ih =>
      obtain ⟨hkept, hbefore, hfiles, hnone⟩ := ih
      rw [List.range_succ, List.foldl_concat]
      refine ⟨hkept.read files _, fun file hfile => ?_, hfiles, hnone⟩
      by_cases heq : file = files
      · rw [heq]
        exact keepsOwnPaths_read_self
      · exact (hkept.keepsOwnPaths_read_of_ne (hfiles ▸ hfile) heq).2 (hbefore file hfile)

end Publishing

/-- The watching starts right. -/
lemma start_spec (files : ℕ) (pathPrefix : ℕ → Text) (contents : ℕ → List Text) (order : List ℕ)
    (hdistinct : (startWatchingLastModifiedTimestampsFiles files pathPrefix contents
      order).DistinctPaths) :
    (startWatchingLastModifiedTimestampsFiles files pathPrefix contents order).Kept ∧
      (startWatchingLastModifiedTimestampsFiles files pathPrefix contents
        order).PublishesSortedUnion := by
  have hstart : ({ files := files, pathPrefix := pathPrefix } :
      LastModifiedTimestampsWatcher).Kept := by
    constructor <;> simp [SortedMap.empty, entries, entriesOf]
  obtain ⟨hkept, hown, hfiles, hnone⟩ := kept_read_all hstart
    (fun _ e he => absurd he List.not_mem_nil) contents rfl files
  have hdistinct_read := (distinctPaths_combine order).1 hdistinct
  refine ⟨hkept.combine order, (hkept.publishes_combine hdistinct_read ?_ order).2 ?_⟩
  · intro p hp
    rw [hnone] at hp
    exact absurd hp List.not_mem_nil
  · rw [hfiles]
    exact hown

open Machine

/-- **The published timeline is the sorted union of the files** in every run of changes in which no
two lines have the same path, exactly if at each change all the other files keep their own paths.

The order is that of the timestamps and, within one, of the paths.  Paths are distinct in the
hypothesis because a path in two files, or twice in one, is published twice as well, which a union
does not say.  The condition is about the other files at each change, so nothing is asked of the
first publication. -/
theorem publishesSortedUnion_iff (files : ℕ) (pathPrefix : ℕ → Text) (contents : ℕ → List Text)
    (order : List ℕ) (changes : List FileChanged)
    (hdistinct : HoldsThroughout handleLastModifiedTimestampsChanged DistinctPaths
      (startWatchingLastModifiedTimestampsFiles files pathPrefix contents order) changes) :
    HoldsThroughout handleLastModifiedTimestampsChanged PublishesSortedUnion
        (startWatchingLastModifiedTimestampsFiles files pathPrefix contents order) changes ↔
      StaysWithin handleLastModifiedTimestampsChanged OthersKeepOwnPaths
        (startWatchingLastModifiedTimestampsFiles files pathPrefix contents order) changes := by
  obtain ⟨hkept, hpublished⟩ := start_spec files pathPrefix contents order hdistinct.start
  exact holdsThroughout_iff_of_staysWithin (fun st x _ h _ _ => Kept.handle h x)
    (fun st x hstep h hP => publishesSortedUnion_step h hP hstep) hdistinct.staysWithin hkept
    hpublished

instance (st : LastModifiedTimestampsWatcher) (file : ℕ) : Decidable (st.KeepsOwnPaths file) :=
  inferInstanceAs (Decidable (∀ e ∈ (st.maps file).entries, List.Perm _ _))

instance (st : LastModifiedTimestampsWatcher) (x : FileChanged) :
    Decidable (st.OthersKeepOwnPaths x) :=
  inferInstanceAs (Decidable (_ → ∀ file < st.files, _ → _))

instance (st : LastModifiedTimestampsWatcher) : Decidable st.DistinctPaths :=
  inferInstanceAs (Decidable (List.Nodup _))

/-- Two files that have a second in common. -/
def sharedSecond (file : ℕ) : List Text := if file = 0 then ["x:5".toList] else ["y:5".toList]

def sharedSecondPathPrefix (file : ℕ) : Text := if file = 0 then "a/".toList else "b/".toList

/-- The first file has got the path of the second one, but it is the one that is read again. -/
theorem publishesSortedUnion_first :
    (handleLastModifiedTimestampsChanged
      (startWatchingLastModifiedTimestampsFiles 2 sharedSecondPathPrefix sharedSecond [0, 1])
      ⟨0, ["x:6".toList], [0, 1]⟩).PublishesSortedUnion :=
  ((publishesSortedUnion_iff 2 sharedSecondPathPrefix sharedSecond [0, 1]
    [⟨0, ["x:6".toList], [0, 1]⟩] ⟨by decide +kernel, by unfold HoldsThroughout; decide +kernel⟩).2
      (by decide +kernel)).run

/-- The second file is modified a second later, and is shown at both. -/
theorem not_publishesSortedUnion_second : ¬ ∀ files pathPrefix contents order changes,
    HoldsThroughout handleLastModifiedTimestampsChanged DistinctPaths
      (startWatchingLastModifiedTimestampsFiles files pathPrefix contents order) changes →
    HoldsThroughout handleLastModifiedTimestampsChanged PublishesSortedUnion
      (startWatchingLastModifiedTimestampsFiles files pathPrefix contents order) changes := by
  intro h
  have hend := (h 2 sharedSecondPathPrefix sharedSecond [0, 1] [⟨1, ["y:6".toList], [0, 1]⟩]
    ⟨by decide +kernel, by unfold HoldsThroughout; decide +kernel⟩).run
  have hlast : ∃ p ∈ (run handleLastModifiedTimestampsChanged
      (startWatchingLastModifiedTimestampsFiles 2 sharedSecondPathPrefix sharedSecond [0, 1])
        [⟨1, ["y:6".toList], [0, 1]⟩]).published,
      p.sortedTimestampAndPathFlatList =
        [(5, "/a/x".toList), (5, "/b/y".toList), (6, "/b/y".toList)] ∧
      (union (run handleLastModifiedTimestampsChanged
        (startWatchingLastModifiedTimestampsFiles 2 sharedSecondPathPrefix sharedSecond [0, 1])
          [⟨1, ["y:6".toList], [0, 1]⟩]) p.contents).length = 2 := by decide +kernel
  obtain ⟨p, hp, hlist, hunion⟩ := hlast
  have hlength := (hend p hp).complete.length_eq
  rw [hlist, hunion] at hlength
  exact absurd hlength (by decide)

end LastModifiedTimestampsWatcher

end Autobackup.Timeline
