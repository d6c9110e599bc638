import Autobackup.LastModifiedTimestampsTools.RestoredTimes
import Mathlib.Data.List.MinMax

/-!
# Hierarchies that come back

A hierarchy is restored whatever the times in the copy were if it `IsRestorable`.  Otherwise there
is an entry that no line leads to, or one whose time is lost again (`Hierarchy.isRestored_iff`).

A copy is what git keeps of the hierarchy: its files and the directories that they are in, with
other times.  Existence checks and the texts of messages are left out, and so is a timestamps file
that is itself in the directory.
-/

namespace Autobackup.LastModifiedTimestampsTools

open QString AbsolutePath Filesystem Filesystem.SimplifiedLastModifiedTimestamp TimedTree

namespace Hierarchy

variable {o : Hierarchy} {entry : Path × TimedEntry} {now : Path → ℤ} {tree : Tree} {path : Path}

lemma lookup_eq_none (h : path ∉ o.entries.map Prod.fst) : o.entries.lookup path = none := by
  rw [List.lookup_eq_none_iff]
  exact fun entry hentry => bne_iff_ne.2 fun heq => h (heq ▸ List.mem_map_of_mem hentry)

theorem isRestored_of_linesLeadBack (hlines : o.LinesLeadBack)
    (hempty : ∀ entry ∈ o.entries, ¬ o.Keeps entry.1 → entry.1.length = 1) : o.IsRestored := by
  intro now c
  obtain ⟨tree, htree, hafter, hrestored, -⟩ := molestHeirarchy_spec hlines now c
  refine ⟨tree, htree, fun path hne => ?_⟩
  by_cases hmem : path ∈ o.entries.map Prod.fst
  · obtain ⟨entry, hentry, rfl⟩ := List.mem_map.1 hmem
    rw [hrestored hempty entry hentry, lookup_entry hentry]
  · have hnone := hafter.isDirectory path hne
    rw [lookup_eq_none hmem, Option.map_none, ite_self, Option.map_eq_none_iff] at hnone
    rw [hnone, lookup_eq_none hmem]

lemma IsRestorable.linesLeadBack (h : o.IsRestorable) : o.LinesLeadBack :=
  fun _ hentry _ => ⟨_, ofLine_lineRead (excess_eq_zero h) hentry (h.carriageReturn _ hentry)
    (h.backslash _ hentry), filePathToMolest_entry (excess_eq_zero h) hentry⟩

/-- What no line leads to, and what is not above that either, stays as it is. -/
lemma molestEntry_of_not_isPrefix {dirToMolest : AbsolutePath} {tree' : Tree} {line : Text}
    (h : molestEntry now dirToMolest tree line = some tree')
    (hpath : ∀ t, ofLine line = some t → ¬ path <+: filePathToMolest dirToMolest t.filePath) :
    tree' path = tree path := by
  rw [molestEntry] at h
  split at h
  · rw [← Option.some.inj h]
  · rename_i t ht
    have hnot := hpath t ht
    obtain ⟨made, hmade, rfl⟩ := Option.map_eq_some_iff.1 h
    have hne : path ≠ filePathToMolest dirToMolest t.filePath := fun heq =>
      hnot (heq ▸ List.prefix_rfl)
    have hsame : made path = tree path := by
      split at hmade
      · exact mkpath_of_not_isPrefix hmade hnot
      · rw [← Option.some.inj hmade]
    split
    · rw [setTime_of_ne hne, hsame]
    · exact hsame

lemma foldlM_molestEntry_of_not_isPrefix {dirToMolest : AbsolutePath} {tree' : Tree}
    {lines : List Text} (h : lines.foldlM (molestEntry now dirToMolest) tree = some tree')
    (hpath : ∀ line ∈ lines, ∀ t, ofLine line = some t →
      ¬ path <+: filePathToMolest dirToMolest t.filePath) :
    tree' path = tree path := by
  induction lines generalizing tree with
  | nil => rw [← Option.some.inj h]
  | cons line lines ih =>
      obtain ⟨hline, hlines⟩ := List.forall_mem_cons.1 hpath
      rw [List.foldlM_cons] at h
      obtain ⟨next, hnext, h⟩ := Option.bind_eq_some_iff.1 h
      rw [ih h hlines, molestEntry_of_not_isPrefix hnext hline]

/-- A copy in the root, with other times. -/
def otherTimes (o : Hierarchy) : o.Copy where
  dirToMolest := fileSystemRoot
  tree path :=
    if path = [] then some ⟨true, 0⟩
    else if o.Keeps path then
      (o.entries.lookup path).map fun entry => { entry with lastModified := entry.lastModified + 1 }
    else none
  isDir path hpath := by
    rw [List.prefix_nil.1 hpath]
    rfl
  entries path hne := by
    have hroot : fileSystemRoot.names ++ path = path := rfl
    rw [hroot, if_neg hne]
    split
    · rw [Option.map_map]
      rfl
    · rfl

/-- In a hierarchy that is restored some line leads to each entry, or below it. -/
lemma IsRestored.exists_isPrefix (h : o.IsRestored) (hentry : entry ∈ o.entries) :
    ∃ entry' ∈ o.entries, ∃ t, ofLine (o.lineRead entry') = some t ∧
      entry.1 <+: filePathToMolest fileSystemRoot t.filePath := by
  by_contra hlines
  have hnone : ∀ entry' ∈ o.entries, ∀ t, ofLine (o.lineRead entry') = some t →
      ¬ entry.1 <+: filePathToMolest fileSystemRoot t.filePath :=
    fun entry' hentry' t ht hpath => hlines ⟨entry', hentry', t, ht, hpath⟩
  have hne := (o.isName entry hentry).1
  obtain ⟨tree, htree, hrestored⟩ := h (fun _ => 0) o.otherTimes
  rw [molestHeirarchy_eq] at htree
  have hsame : tree entry.1 = o.otherTimes.tree entry.1 := by
    refine foldlM_molestEntry_of_not_isPrefix htree fun line hline t ht => ?_
    obtain ⟨entry', hentry', rfl⟩ := List.mem_map.1 hline
    exact hnone entry' hentry' t ht
  have hother : o.otherTimes.tree entry.1 ≠ some entry.2 := by
    change (if _ then _ else if _ then _ else _) ≠ _
    rw [if_neg hne, lookup_entry hentry]
    split
    · intro heq
      have htime := congrArg TimedEntry.lastModified (Option.some.inj heq)
      exact absurd htime (Int.lt_succ _).ne'
    · exact (Option.some_ne_none _).symm
  refine hother ?_
  rw [← hsame, ← lookup_entry hentry]
  exact hrestored entry.1 hne

/-! ## What is not restorable -/

lemma mem_foldl_enter {front parts : List Text} {name : Text}
    (h : name ∈ parts.foldl enter front) : name ∈ front ∨ name ∈ parts := by
  induction parts generalizing front with
  | nil => exact .inl h
  | cons part parts ih =>
      rcases ih h with hmem | hmem
      · rw [enter] at hmem
        split_ifs at hmem
        · exact .inl hmem
        · exact .inl (List.dropLast_subset _ hmem)
        · rcases List.mem_append.1 hmem with hmem | hmem
          · exact .inl hmem
          · exact .inr (List.mem_singleton.1 hmem ▸ List.mem_cons_self)
      · exact .inr (List.mem_cons_of_mem _ hmem)

lemma IsRestored.carriageReturn (h : o.IsRestored) (hentry : entry ∈ o.entries) :
    ∀ name ∈ entry.1, '\r' ∉ name := by
  intro name hname hreturn
  obtain ⟨entry', -, t, ht, hpath⟩ := h.exists_isPrefix hentry
  have hpart : name ∈ splitSkippingEmptyParts '/' t.filePath :=
    (mem_foldl_enter (hpath.subset hname)).resolve_left List.not_mem_nil
  exact carriageReturn_not_mem_filePath ht carriageReturn_not_mem_readAsText
    (mem_splitOn _ (List.mem_of_mem_filter hpart) _ hreturn).1

lemma IsRestored.excess_eq_zero (h : o.IsRestored) (hne : o.entries ≠ []) : o.excess = 0 := by
  by_contra hexcess
  have hsome : o.entries.argmax (fun entry => (joinNames entry.1).length) ≠ none :=
    mt List.argmax_eq_none.1 hne
  obtain ⟨longest, hlongest⟩ := Option.ne_none_iff_exists'.1 hsome
  have hmem := List.argmax_mem hlongest
  obtain ⟨entry', hentry', t, ht, hpath⟩ := h.exists_isPrefix hmem
  have hmax := List.le_of_mem_argmax hentry' hlongest
  rw [lineRead_eq (h.carriageReturn hentry')] at ht
  have hlt := length_filePathToMolest_lt hexcess hentry'
  rw [← filePath_of_ofLine hentry' ht] at hlt
  obtain ⟨rest, hrest⟩ := hpath
  rw [← hrest, joinNames_append, List.length_append] at hlt
  omega

lemma IsRestored.backslash (h : o.IsRestored) (hentry : entry ∈ o.entries)
    (hfile : entry.2.isDirectory = false) : (joinNames entry.1).getLast? ≠ some '\\' := by
  have hexcess := h.excess_eq_zero (List.ne_nil_of_mem hentry)
  intro hlast
  obtain ⟨entry', hentry', t, ht, hpath⟩ := h.exists_isPrefix hentry
  rw [lineRead_eq (h.carriageReturn hentry')] at ht
  rw [filePath_of_ofLine hentry' ht, filePathToMolest_entry hexcess hentry'] at hpath
  by_cases heq : entry.1 = entry'.1
  · obtain rfl := eq_of_fst_eq hentry hentry' heq
    have hpathOf : o.filePathOf entry = o.relativePathNoLeadingSlash entry.1 := by
      rw [filePathOf, currentEntryLastModifiedTimestamp, hfile]
      rfl
    rw [hpathOf, ofLine_lineOf_eq_none ((getLast?_relativePath hexcess hentry).trans hlast)] at ht
    exact absurd ht.symm (Option.some_ne_none _)
  · obtain ⟨before, after, hsplit⟩ := List.append_of_mem hentry'
    obtain ⟨s, hmem⟩ := o.directories before entry' after hsplit entry.1 hpath
      (o.isName entry hentry).1 heq
    have hsame : entry = (entry.1, ⟨true, s⟩) :=
      eq_of_fst_eq hentry (hsplit ▸ List.mem_append_left _ hmem) rfl
    rw [hsame] at hfile
    exact absurd hfile (by simp)

lemma IsRestored.linesLeadBack (h : o.IsRestored) : o.LinesLeadBack := fun _ hentry _ =>
  ⟨_, ofLine_lineRead (h.excess_eq_zero (List.ne_nil_of_mem hentry)) hentry
    (h.carriageReturn hentry) (h.backslash hentry),
    filePathToMolest_entry (h.excess_eq_zero (List.ne_nil_of_mem hentry)) hentry⟩

lemma IsRestored.emptyDirectories (h : o.IsRestored) (hentry : entry ∈ o.entries)
    (hkeeps : ¬ o.Keeps entry.1) : entry.1.length = 1 := by
  by_contra hlength
  obtain ⟨before, after, hsplit⟩ := List.append_of_mem hentry
  obtain ⟨parent, hparent, hpath⟩ := exists_parent_mem_before hsplit hlength
  have hmem : parent ∈ o.entries := hsplit ▸ List.mem_append_left _ hparent
  let s := parent.2.lastModified + 1
  obtain ⟨tree, htree, -, -, hlost⟩ :=
    molestHeirarchy_spec h.linesLeadBack (fun _ => s) o.otherTimes
  obtain ⟨tree', htree', hrestored⟩ := h (fun _ => s) o.otherTimes
  obtain rfl : tree = tree' := Option.some.inj (htree.symm.trans htree')
  have htime := hlost s (fun _ => rfl) entry hentry hkeeps hlength
  rw [← hpath, hrestored parent.1 (o.isName parent hmem).1, lookup_entry hmem] at htime
  exact absurd (Option.some.inj htime) (Int.lt_succ _).ne

/-- **A hierarchy is restored exactly if it is restorable,** or has no entries.

Restored means restored from every copy, whatever the times in it are, so it is a property of the
hierarchy alone.  Three of its conditions are about what a line can carry.  The last one is about
directories without files, which git does not keep: one is made when its line is read, and by then
the directory around it has had its time. -/
theorem isRestored_iff (o : Hierarchy) : o.IsRestored ↔ o.entries = [] ∨ o.IsRestorable := by
  constructor
  · refine fun h => or_iff_not_imp_left.2 fun hne => ?_
    exact
      { clean := Nat.sub_eq_zero_iff_le.1 (h.excess_eq_zero hne)
        carriageReturn := fun _ hentry => h.carriageReturn hentry
        backslash := fun _ hentry => h.backslash hentry
        emptyDirectories := fun _ hentry => h.emptyDirectories hentry }
  · rintro (hnil | h)
    · refine isRestored_of_linesLeadBack (fun entry hentry => ?_) fun entry hentry => ?_
      · rw [hnil] at hentry
        exact absurd hentry List.not_mem_nil
      · rw [hnil] at hentry
        exact absurd hentry List.not_mem_nil
    · exact isRestored_of_linesLeadBack h.linesLeadBack h.emptyDirectories

/-- A directory with nothing but an empty one in it. -/
def nestedEmptyDirectories : Hierarchy where
  dirToCreateLastModifiedTimestampsFor := "/home".toList
  isAbsolute := rfl
  entries := [(["a".toList], ⟨true, 1⟩), (["a".toList, "b".toList], ⟨true, 2⟩)]
  nodup := by decide
  isName := by decide
  isLongLong := by decide
  directories := by
    rintro before entry after h path hpath hne hself
    obtain ⟨name, rest, rfl⟩ := List.exists_cons_of_ne_nil hne
    rcases before with _ | ⟨first, _ | ⟨second, before⟩⟩
    · obtain ⟨rfl, -⟩ := List.cons_eq_cons.1 h
      obtain ⟨rfl, hrest⟩ := List.cons_prefix_cons.1 hpath
      exact absurd (congrArg _ (List.prefix_nil.1 hrest)) hself
    · obtain ⟨rfl, htail⟩ := List.cons_eq_cons.1 h
      obtain ⟨rfl, -⟩ := List.cons_eq_cons.1 htail
      obtain ⟨rfl, hrest⟩ := List.cons_prefix_cons.1 hpath
      rcases List.prefix_cons_iff.1 hrest with rfl | ⟨more, rfl, hmore⟩
      · exact ⟨1, List.mem_cons_self⟩
      · rw [List.prefix_nil.1 hmore] at hself
        exact absurd rfl hself
    · have hlength := congrArg List.length h
      simp at hlength

/-- Its time is lost when the other one is made. -/
theorem not_isRestored_nestedEmptyDirectories : ¬ nestedEmptyDirectories.IsRestored := fun h => by
  have hentry : (["a".toList, "b".toList], ⟨true, 2⟩) ∈ nestedEmptyDirectories.entries :=
    List.mem_cons_of_mem _ List.mem_cons_self
  have hlength : ["a".toList, "b".toList].length = 1 := h.emptyDirectories hentry (by decide)
  exact absurd hlength (by decide)

end Hierarchy

end Autobackup.LastModifiedTimestampsTools
