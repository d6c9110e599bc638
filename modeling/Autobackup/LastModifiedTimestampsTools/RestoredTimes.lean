import Autobackup.LastModifiedTimestampsTools.TimestampLines
import Mathlib.Data.List.Nodup

/-!
# Restored times

A line that leads to its entry gives it its time.  If the entry is a directory that git missed, the
line makes it first, and gives a new time to the directory that it is in: that one comes earlier in
the file, so nothing puts its time right again (`Hierarchy.molestHeirarchy_spec`).  Only what is in
the hierarchy itself is safe, since there is no line for that.
-/

namespace Autobackup.LastModifiedTimestampsTools

open QString AbsolutePath Filesystem Filesystem.SimplifiedLastModifiedTimestamp TimedTree

lemma exists_of_eq {tree : Tree} {path : Path} {found : TimedEntry} (h : tree path = some found) :
    exists_ tree path found.isDirectory = true := by
  rw [exists_, h]
  exact Bool.or_not_self _

lemma molestPath_of_eq {now : Path → ℤ} {tree : Tree} {path : Path} {found : TimedEntry} {s : ℤ}
    (h : tree path = some found) :
    molestPath now tree path found.isDirectory s =
      some (Function.update tree path (some ⟨found.isDirectory, s⟩)) := by
  have hexists := exists_of_eq h
  have hthere : (found.isDirectory && !exists_ tree path true) = false := by
    cases hdirectory : found.isDirectory with
    | false => rfl
    | true =>
        rw [hdirectory] at hexists
        rw [hexists]
        rfl
  rw [molestPath, hthere, if_neg Bool.false_ne_true, Option.map_some, if_pos hexists, setTime, h]
  rfl

lemma molestPath_of_missing {now : Path → ℤ} {tree : Tree} {path : Path} {name : Text} {s : ℤ}
    (habove : ∀ p, p <+: path → tree.IsDir p) (h : tree (path ++ [name]) = none) :
    molestPath now tree (path ++ [name]) true s =
      some (Function.update (tree.setTime path (now (path ++ [name]))) (path ++ [name])
        (some ⟨true, s⟩)) := by
  have hmissing : (true && !exists_ tree (path ++ [name]) true) = true := by
    rw [exists_, h]
    rfl
  have hself : Function.update (tree.setTime path (now (path ++ [name]))) (path ++ [name])
      (some ⟨true, now (path ++ [name])⟩) (path ++ [name]) = some ⟨true, now (path ++ [name])⟩ :=
    Function.update_self _ _ _
  rw [molestPath, if_pos hmissing, mkpath_concat habove h, Option.map_some,
    if_pos (exists_of_eq hself),
    setTime, Function.update_self, Function.update_idem]
  rfl

namespace Hierarchy

variable {o : Hierarchy} {entry : Path × TimedEntry} {before after : List (Path × TimedEntry)}
  {now : Path → ℤ} {c : o.Copy} {tree : Tree} {path : Path}

/-- The line of every entry leads to it. -/
def LinesLeadBack (o : Hierarchy) : Prop :=
  ∀ entry ∈ o.entries, ∀ dirToMolest : AbsolutePath, ∃ filePath,
    ofLine (o.lineRead entry) =
      some ⟨filePath, entry.2.isDirectory, entry.2.lastModified * 1000⟩ ∧
    filePathToMolest dirToMolest filePath = dirToMolest.names ++ entry.1

lemma eq_of_fst_eq {entry' : Path × TimedEntry} (hentry : entry ∈ o.entries)
    (hentry' : entry' ∈ o.entries) (h : entry.1 = entry'.1) : entry = entry' :=
  List.inj_on_of_nodup_map o.nodup hentry hentry' h

lemma lookup_entry (hentry : entry ∈ o.entries) : o.entries.lookup entry.1 = some entry.2 := by
  obtain ⟨before, after, hsplit⟩ := List.append_of_mem hentry
  have hnodup := o.nodup
  rw [hsplit, List.map_append, List.map_cons] at hnodup
  refine List.lookup_eq_some_iff.2 ⟨before, after, hsplit, fun earlier hearlier => ?_⟩
  have hne : entry.1 ≠ earlier.1 := fun heq =>
    (List.nodup_append.1 hnodup).2.2 _ (List.mem_map_of_mem hearlier) _ List.mem_cons_self heq.symm
  exact bne_iff_ne.2 hne

lemma keeps_file (hentry : entry ∈ o.entries) (hfile : entry.2.isDirectory = false) :
    o.Keeps entry.1 := ⟨entry, hentry, hfile, List.prefix_rfl⟩

/-- The entries before one are others. -/
lemma fst_ne_of_mem_before {earlier : Path × TimedEntry}
    (hentries : o.entries = before ++ entry :: after) (hearlier : earlier ∈ before) :
    earlier.1 ≠ entry.1 := by
  have hnodup := o.nodup
  rw [hentries, List.map_append, List.map_cons] at hnodup
  exact (List.nodup_append.1 hnodup).2.2 _ (List.mem_map_of_mem hearlier) _ List.mem_cons_self

/-! ## A line -/

/-- After the lines of some entries: they are there, next to what git kept. -/
structure AfterLines (c : o.Copy) (before : List (Path × TimedEntry)) (tree : Tree) : Prop where
  isDir : ∀ path, path <+: c.dirToMolest.names → tree.IsDir path
  isDirectory : ∀ path, path ≠ [] →
    (tree (c.dirToMolest.names ++ path)).map TimedEntry.isDirectory =
      if path ∈ before.map Prod.fst ∨ o.Keeps path then
        (o.entries.lookup path).map TimedEntry.isDirectory
      else none

/-- What the line of an entry that git missed does before it gives it its time. -/
def disturb (now : Path → ℤ) (c : o.Copy) (tree : Tree) (entry : Path × TimedEntry) : Tree :=
  if o.Keeps entry.1 then tree
  else tree.setTime (c.dirToMolest.names ++ entry.1.dropLast) (now (c.dirToMolest.names ++ entry.1))

lemma isDir_above (h : AfterLines c before tree) (hentries : o.entries = before ++ entry :: after)
    (hpath : path <+: c.dirToMolest.names ++ entry.1)
    (hne : path ≠ c.dirToMolest.names ++ entry.1) :
    tree.IsDir path := by
  rcases List.prefix_or_prefix_of_prefix hpath (List.prefix_append _ _) with hroot | ⟨rest, rfl⟩
  · exact h.isDir path hroot
  · rw [List.prefix_append_right_inj] at hpath
    by_cases hnil : rest = []
    · rw [hnil, List.append_nil]
      exact h.isDir _ List.prefix_rfl
    · obtain ⟨s, hmem⟩ := o.directories before entry after hentries rest hpath hnil
        fun heq => hne (heq ▸ rfl)
      have hentry : (rest, ⟨true, s⟩) ∈ o.entries := hentries ▸ List.mem_append_left _ hmem
      have hlookup : o.entries.lookup rest = some ⟨true, s⟩ := lookup_entry hentry
      rw [IsDir, h.isDirectory rest hnil, if_pos (.inl (List.mem_map_of_mem hmem)), hlookup]
      rfl

/-- **A line gives its entry its time,** after it has disturbed what the entry is in. -/
theorem molestEntry_lineRead (hlines : o.LinesLeadBack) (h : AfterLines c before tree)
    (hentries : o.entries = before ++ entry :: after) :
    molestEntry now c.dirToMolest tree (o.lineRead entry) =
      some (Function.update (disturb now c tree entry) (c.dirToMolest.names ++ entry.1)
        (some entry.2)) := by
  have hentry : entry ∈ o.entries := hentries ▸ List.mem_append_right _ List.mem_cons_self
  have hne : entry.1 ≠ [] := (o.isName entry hentry).1
  have htime : (entry.2.lastModified * 1000).tdiv 1000 = entry.2.lastModified :=
    Int.mul_tdiv_cancel _ (by decide)
  have hthere := h.isDirectory entry.1 hne
  rw [lookup_entry hentry] at hthere
  obtain ⟨filePath, hof, hto⟩ := hlines entry hentry c.dirToMolest
  rw [molestEntry, hof]
  simp only [hto, htime]
  by_cases hkeeps : o.Keeps entry.1
  · rw [if_pos (.inr hkeeps)] at hthere
    obtain ⟨found, hfound, hdirectory⟩ := Option.map_eq_some_iff.1 hthere
    rw [← hdirectory, molestPath_of_eq hfound, disturb, if_pos hkeeps, hdirectory]
  · have hmissing : entry.1 ∉ before.map Prod.fst := fun hmem => by
      obtain ⟨earlier, hearlier, heq⟩ := List.mem_map.1 hmem
      exact fst_ne_of_mem_before hentries hearlier heq
    rw [if_neg (not_or.2 ⟨hmissing, hkeeps⟩), Option.map_eq_none_iff] at hthere
    have hdirectory : entry.2.isDirectory = true := by
      by_contra hfile
      exact hkeeps (keeps_file hentry (Bool.eq_false_iff.2 hfile))
    have hmade : (⟨true, entry.2.lastModified⟩ : TimedEntry) = entry.2 := by rw [← hdirectory]
    obtain ⟨front, name, hconcat⟩ := (List.eq_nil_or_concat' entry.1).resolve_left hne
    have habove : ∀ path, path <+: c.dirToMolest.names ++ front → tree.IsDir path :=
      fun path hpath => by
        have hlonger : c.dirToMolest.names ++ front <+: c.dirToMolest.names ++ entry.1 :=
          (List.prefix_append_right_inj _).2 ⟨[name], hconcat.symm⟩
        refine isDir_above h hentries (hpath.trans hlonger) fun heq => ?_
        have hlength := hpath.length_le
        rw [heq, hconcat] at hlength
        simp only [List.length_append, List.length_singleton] at hlength
        omega
    rw [disturb, if_neg hkeeps]
    rw [hconcat, ← List.append_assoc] at hthere ⊢
    rw [hdirectory, molestPath_of_missing habove hthere, hmade, List.dropLast_concat]

lemma map_isDirectory_disturb {entry : Path × TimedEntry} :
    (disturb now c tree entry path).map TimedEntry.isDirectory =
      (tree path).map TimedEntry.isDirectory := by
  rw [disturb]
  split
  · rfl
  · exact map_isDirectory_setTime

lemma disturb_of_ne (h : o.Keeps entry.1 ∨ path ≠ entry.1.dropLast) :
    disturb now c tree entry (c.dirToMolest.names ++ path) =
      tree (c.dirToMolest.names ++ path) := by
  rw [disturb]
  split
  · rfl
  · rename_i hkeeps
    exact setTime_of_ne fun heq => h.resolve_left hkeeps (List.append_cancel_left heq)

lemma update_entry_of_ne {tree : Tree} {found : Option TimedEntry} (h : path ≠ entry.1) :
    Function.update tree (c.dirToMolest.names ++ entry.1) found (c.dirToMolest.names ++ path) =
      tree (c.dirToMolest.names ++ path) :=
  Function.update_of_ne (fun heq => h (List.append_cancel_left heq)) _ _

lemma AfterLines.step (h : AfterLines c before tree)
    (hentries : o.entries = before ++ entry :: after) :
    AfterLines c (before ++ [entry])
      (Function.update (disturb now c tree entry) (c.dirToMolest.names ++ entry.1)
        (some entry.2)) := by
  have hentry : entry ∈ o.entries := hentries ▸ List.mem_append_right _ List.mem_cons_self
  constructor
  · intro path hpath
    have hne : path ≠ c.dirToMolest.names ++ entry.1 := fun heq => by
      have hlength := hpath.length_le
      have hpos := List.length_pos_of_ne_nil (o.isName entry hentry).1
      rw [heq, List.length_append] at hlength
      omega
    rw [IsDir, Function.update_of_ne hne, map_isDirectory_disturb]
    exact h.isDir path hpath
  · intro path hne
    by_cases heq : path = entry.1
    · have hmem : path ∈ (before ++ [entry]).map Prod.fst :=
        heq ▸ List.mem_map_of_mem (List.mem_append_right _ List.mem_cons_self)
      rw [if_pos (.inl hmem), heq, lookup_entry hentry, Function.update_self]
    · have hmem : path ∈ (before ++ [entry]).map Prod.fst ↔ path ∈ before.map Prod.fst := by
        rw [List.map_append, List.mem_append, List.map_singleton, List.mem_singleton]
        exact or_iff_left heq
      simp only [update_entry_of_ne heq, map_isDirectory_disturb, h.isDirectory path hne, hmem]

/-! ## All the lines -/

/-- After the lines of some entries, these have their times. -/
def TimesRestored (c : o.Copy) (before : List (Path × TimedEntry)) (tree : Tree) : Prop :=
  ∀ entry ∈ before, tree (c.dirToMolest.names ++ entry.1) = some entry.2

/-- A directory that git missed is in one that has the time at which it was made. -/
def TimesLost (c : o.Copy) (s : ℤ) (before : List (Path × TimedEntry)) (tree : Tree) : Prop :=
  ∀ entry ∈ before, ¬ o.Keeps entry.1 → entry.1.length ≠ 1 →
    (tree (c.dirToMolest.names ++ entry.1.dropLast)).map TimedEntry.lastModified = some s

lemma TimesRestored.step (h : TimesRestored c before tree)
    (hentries : o.entries = before ++ entry :: after)
    (hempty : ¬ o.Keeps entry.1 → entry.1.length = 1) :
    TimesRestored c (before ++ [entry])
      (Function.update (disturb now c tree entry) (c.dirToMolest.names ++ entry.1)
        (some entry.2)) := by
  intro earlier hearlier
  rcases List.mem_append.1 hearlier with hearlier | hearlier
  · have hne := fst_ne_of_mem_before hentries hearlier
    have hparent : o.Keeps entry.1 ∨ earlier.1 ≠ entry.1.dropLast := by
      refine or_iff_not_imp_left.2 fun hkeeps heq => ?_
      have hnil : earlier.1 = [] := List.length_eq_zero_iff.1 (by
        rw [heq, List.length_dropLast, hempty hkeeps])
      exact (o.isName earlier (hentries ▸ List.mem_append_left _ hearlier)).1 hnil
    rw [update_entry_of_ne hne, disturb_of_ne hparent]
    exact h earlier hearlier
  · rw [List.mem_singleton.1 hearlier, Function.update_self]

/-- The directory that an entry is in comes before it, unless that is the hierarchy itself. -/
lemma exists_parent_mem_before (hentries : o.entries = before ++ entry :: after)
    (hlength : entry.1.length ≠ 1) : ∃ parent ∈ before, parent.1 = entry.1.dropLast := by
  have hentry : entry ∈ o.entries := hentries ▸ List.mem_append_right _ List.mem_cons_self
  have hpos := List.length_pos_of_ne_nil (o.isName entry hentry).1
  obtain ⟨s, hmem⟩ := o.directories before entry after hentries entry.1.dropLast
    (List.dropLast_prefix _)
    (fun hnil => by
      have hnil := congrArg List.length hnil
      rw [List.length_dropLast, List.length_nil] at hnil
      omega)
    (fun heq => by
      have heq := congrArg List.length heq
      rw [List.length_dropLast] at heq
      omega)
  exact ⟨_, hmem, rfl⟩

lemma lastModified_disturb (h : AfterLines c before tree)
    (hentries : o.entries = before ++ entry :: after) (hkeeps : ¬ o.Keeps entry.1) :
    (disturb now c tree entry (c.dirToMolest.names ++ entry.1.dropLast)).map
      TimedEntry.lastModified = some (now (c.dirToMolest.names ++ entry.1)) := by
  have hentry : entry ∈ o.entries := hentries ▸ List.mem_append_right _ List.mem_cons_self
  have hpos := List.length_pos_of_ne_nil (o.isName entry hentry).1
  have hdir : tree.IsDir (c.dirToMolest.names ++ entry.1.dropLast) := by
    refine isDir_above h hentries
      ((List.prefix_append_right_inj _).2 (List.dropLast_prefix _)) fun heq => ?_
    have hlength := congrArg List.length (List.append_cancel_left heq)
    rw [List.length_dropLast] at hlength
    omega
  obtain ⟨found, hfound, -⟩ := Option.map_eq_some_iff.1 hdir
  rw [disturb, if_neg hkeeps, setTime_self, hfound]
  rfl

lemma TimesLost.step {s : ℤ} (h : TimesLost c s before tree) (hafter : AfterLines c before tree)
    (hentries : o.entries = before ++ entry :: after) (hnow : ∀ path, now path = s) :
    TimesLost c s (before ++ [entry])
      (Function.update (disturb now c tree entry) (c.dirToMolest.names ++ entry.1)
        (some entry.2)) := by
  intro earlier hearlier hkeeps hlength
  rcases List.mem_append.1 hearlier with hearlier | hearlier
  · obtain ⟨front, rest, hbefore⟩ := List.append_of_mem hearlier
    have hsplit : o.entries = front ++ earlier :: (rest ++ entry :: after) := by
      rw [hentries, hbefore, List.append_assoc, List.cons_append]
    obtain ⟨parent, hparent, hpath⟩ := exists_parent_mem_before hsplit hlength
    have hne : earlier.1.dropLast ≠ entry.1 := by
      rw [← hpath]
      exact fst_ne_of_mem_before hentries (hbefore ▸ List.mem_append_left _ hparent)
    rw [update_entry_of_ne hne]
    by_cases hsame : o.Keeps entry.1 ∨ earlier.1.dropLast ≠ entry.1.dropLast
    · rw [disturb_of_ne hsame]
      exact h earlier hearlier hkeeps hlength
    · obtain ⟨hmissing, hsame⟩ := not_or.1 hsame
      rw [not_not.1 hsame, lastModified_disturb hafter hentries hmissing, hnow]
  · obtain rfl := List.mem_singleton.1 hearlier
    obtain ⟨parent, hparent, hpath⟩ := exists_parent_mem_before hentries hlength
    have hne : earlier.1.dropLast ≠ earlier.1 := hpath ▸ fst_ne_of_mem_before hentries hparent
    rw [update_entry_of_ne hne, lastModified_disturb hafter hentries hkeeps, hnow]

/-- **Every hierarchy comes back,** and the times of the directories that those which git missed
are in do not. -/
theorem molestHeirarchy_spec (hlines : o.LinesLeadBack) (now : Path → ℤ) (c : o.Copy) :
    ∃ tree,
      molestHeirarchy now c.dirToMolest c.tree o.generateLastModifiedTimestampsFile = some tree ∧
        AfterLines c o.entries tree ∧
        ((∀ entry ∈ o.entries, ¬ o.Keeps entry.1 → entry.1.length = 1) →
          TimesRestored c o.entries tree) ∧
        ∀ s, (∀ path, now path = s) → TimesLost c s o.entries tree := by
  have hrun : ∀ before after, o.entries = before ++ after → ∃ tree,
      (before.map o.lineRead).foldlM (molestEntry now c.dirToMolest) c.tree = some tree ∧
        AfterLines c before tree ∧
        ((∀ entry ∈ o.entries, ¬ o.Keeps entry.1 → entry.1.length = 1) →
          TimesRestored c before tree) ∧
        ∀ s, (∀ path, now path = s) → TimesLost c s before tree := by
    intro before
    induction before using List.reverseRecOn with
    | nil =>
        intro after _
        have hcopy : AfterLines c [] c.tree := ⟨c.isDir, fun path hne => by
          simpa using c.entries path hne⟩
        exact ⟨c.tree, rfl, hcopy, fun _ _ h => absurd h List.not_mem_nil,
          fun _ _ _ h => absurd h List.not_mem_nil⟩
    | append_singleton before entry ih =>
        intro after hentries
        rw [List.append_assoc, List.singleton_append] at hentries
        have hentry : entry ∈ o.entries := hentries ▸ List.mem_append_right _ List.mem_cons_self
        obtain ⟨tree, htree, hafter, hrestored, hlost⟩ := ih (entry :: after) hentries
        refine ⟨_, ?_, hafter.step hentries,
          fun hempty => (hrestored hempty).step hentries (hempty entry hentry),
          fun s hnow => (hlost s hnow).step hafter hentries hnow⟩
        rw [List.map_append, List.foldlM_append, htree]
        change (molestEntry now c.dirToMolest tree (o.lineRead entry)).bind some = _
        rw [molestEntry_lineRead hlines hafter hentries]
        rfl
  obtain ⟨tree, htree, h⟩ := hrun o.entries [] (List.append_nil _).symm
  exact ⟨tree, molestHeirarchy_eq.trans htree, h⟩

end Hierarchy

end Autobackup.LastModifiedTimestampsTools
