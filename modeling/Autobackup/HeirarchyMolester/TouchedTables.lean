import Autobackup.HeirarchyMolester.TimestampFiles

/-!
# Files first, then folders

`touch` makes a file that is missing, and so gives a new time to the folder that the file is in.
`molestUsingInternalTables` touches every file before the first folder.  A table that fits what is
in the tree is worked off in any order, and each of its entries has its time when the last one was
touched (`touchTable_spec`): the entries of one table are at different paths, and the folder of a
file is in the other one.  With the folders nothing is made any more, so a file keeps the time that
it got (`molestUsingInternalTables_spec`).

Whatever the tables are, and however far the program gets, what was in the tree stays in it, and a
folder does not become a file (`keepsKinds_molestUsingInternalTables`).
-/

namespace Autobackup.HeirarchyMolester

open QString Filesystem LastModifiedTimestampsTools TimedTree Molestation

abbrev TableEntry := Sigma fun _ : Text => ℤ

namespace Environment

variable (e : Environment)

/-- The paths of a table are different ones, and a slash ends each of them or none.  What is there
already is as the slash says; what is missing is a file, in a folder that is there. -/
structure IsTouchable (isDirectory : Bool) (table : TimestampTable) (tree : Tree) : Prop where
  distinct : ∀ x ∈ table.entries, ∀ y ∈ table.entries, e.resolve x.1 = e.resolve y.1 → x = y
  slash : ∀ x ∈ table.entries, detectIfFilePathIsDirectory x.1 = isDirectory
  fits : ∀ x ∈ table.entries, ∀ found, tree (e.resolve x.1) = some found →
    found.isDirectory = isDirectory
  folder : ∀ x ∈ table.entries, tree (e.resolve x.1) = none →
    isDirectory = false ∧ tree.IsDir (e.resolve x.1).dropLast

/-- Neither the entry of a path in the table, nor the folder of one that is missing. -/
def IsOther (table : TimestampTable) (tree : Tree) (path : Path) : Prop :=
  ∀ x ∈ table.entries, path ≠ e.resolve x.1 ∧
    (tree (e.resolve x.1) = none → path ≠ (e.resolve x.1).dropLast)

/-- **A table has been touched.**  Every entry has its time.  Besides, only a folder in which a file
was made may have got another one. -/
structure IsTouched (isDirectory : Bool) (table : TimestampTable) (tree tree' : Tree) : Prop where
  entries : ∀ x ∈ table.entries,
    tree' (e.resolve x.1) = some ⟨isDirectory, x.2.tdiv 1000⟩
  kinds : ∀ path, (∀ x ∈ table.entries, path ≠ e.resolve x.1) →
    (tree' path).map TimedEntry.isDirectory = (tree path).map TimedEntry.isDirectory
  others : ∀ path, e.IsOther table tree path → tree' path = tree path

variable {e} {tree tree' : Tree} {key : Text} {isDirectory : Bool} {table : TimestampTable} {t : ℤ}
  {s : Molestation} {path : Path} {x : TableEntry}

/-! ## One entry -/

lemma touch_of_fits (hslash : detectIfFilePathIsDirectory key = isDirectory)
    (hfits : ∀ found, tree (e.resolve key) = some found → found.isDirectory = isDirectory)
    (hfolder : tree (e.resolve key) = none →
      isDirectory = false ∧ tree.IsDir (e.resolve key).dropLast) :
    ∃ tree', e.touch tree key t = some tree' ∧ IsUpdate (e.resolve key) tree tree' ∧
      tree' (e.resolve key) = some ⟨isDirectory, t⟩ ∧
      ∀ q, q ≠ e.resolve key → (tree (e.resolve key) = none → q ≠ (e.resolve key).dropLast) →
        tree' q = tree q := by
  obtain ⟨tree', htouch, hupdate, hself⟩ :=
    exists_touch e.now t fun hnone => (hfolder hnone).2
  rw [touch, hslash]
  cases hfound : tree (e.resolve key) with
  | none =>
      refine ⟨tree', ?_, hupdate, ?_, fun q hq hparent => hupdate.others q hq (hparent rfl)⟩
      · rw [(hfolder hfound).1, Bool.false_and, if_neg Bool.false_ne_true]
        exact htouch
      · rw [hself, hfound, (hfolder hfound).1]
        rfl
  | some found =>
      have hfit := hfits found hfound
      have hexists : (isDirectory && !e.exists_ tree key) = false := by
        rw [exists_, LastModifiedTimestampsTools.exists_, hfound, hslash, ← hfit]
        cases hd : found.isDirectory <;> simp [hd]
      refine ⟨tree', ?_, hupdate, ?_, fun q hq _ => ?_⟩
      · rw [hexists, if_neg Bool.false_ne_true]
        exact htouch
      · rw [hself, hfound, ← hfit]
        rfl
      · rw [TimedTree.touch, hfound] at htouch
        rw [← Option.some.inj htouch]
        exact setTime_of_ne hq

lemma touchEntry_of_touch (h : e.touch s.tree x.1 (x.2.tdiv 1000) = some tree') :
    e.touchEntry x s = ({ s with tree := tree' }, true) := by
  rw [touchEntry, changeModificationDate, h]

/-! ## A table -/

/-- In the middle of a table: what is to come fits as before, and what is missing was. -/
structure InTable (e : Environment) (isDirectory : Bool) (table : TimestampTable)
    (before tree : Tree) : Prop where
  isDir : ∀ path, before.IsDir path → tree.IsDir path
  fits : ∀ x ∈ table.entries, ∀ found, tree (e.resolve x.1) = some found →
    found.isDirectory = isDirectory
  missing : ∀ path, tree path = none → before path = none
  kinds : ∀ path, (∀ x ∈ table.entries, path ≠ e.resolve x.1) →
    (tree path).map TimedEntry.isDirectory = (before path).map TimedEntry.isDirectory
  others : ∀ path, e.IsOther table before path → tree path = before path

/-- **An entry gets its time,** and those that have theirs keep it: the folder in which a file is
made is a directory, and so it is not in the table of the files. -/
lemma InTable.touch {before : Tree} (h : e.IsTouchable isDirectory table before)
    (htree : InTable e isDirectory table before tree) (hx : x ∈ table.entries) :
    ∃ tree', e.touch tree x.1 (x.2.tdiv 1000) = some tree' ∧
      InTable e isDirectory table before tree' ∧
      tree' (e.resolve x.1) = some ⟨isDirectory, x.2.tdiv 1000⟩ ∧
      ∀ y ∈ table.entries, y ≠ x → tree (e.resolve y.1) = some ⟨isDirectory, y.2.tdiv 1000⟩ →
        tree' (e.resolve y.1) = some ⟨isDirectory, y.2.tdiv 1000⟩ := by
  have hfolder (hnone : tree (e.resolve x.1) = none) :
      isDirectory = false ∧ tree.IsDir (e.resolve x.1).dropLast :=
    (h.folder x hx (htree.missing _ hnone)).imp_right (htree.isDir _)
  obtain ⟨tree', htouch, hupdate, hself, hothers⟩ :=
    touch_of_fits (t := x.2.tdiv 1000) (h.slash x hx) (htree.fits x hx) hfolder
  refine ⟨tree', htouch, ?_, hself, ?_⟩
  · refine ⟨fun path hpath => ?_, fun y hy found hfound => ?_, fun path hnone => ?_,
      fun path hpath => ?_, fun path hpath => ?_⟩
    · by_cases heq : path = e.resolve x.1
      · obtain ⟨found, hfound, hdirectory⟩ := Option.map_eq_some_iff.1 (htree.isDir path hpath)
        have hfit := htree.fits x hx found (heq ▸ hfound)
        rw [IsDir, heq, hself, ← hfit, hdirectory, Option.map_some]
      · exact (hupdate.isDir heq).2 (htree.isDir path hpath)
    · by_cases heq : e.resolve y.1 = e.resolve x.1
      · rw [heq, hself] at hfound
        rw [← Option.some.inj hfound]
      · have hkind := hupdate.kinds _ heq
        rw [hfound, eq_comm, Option.map_some, Option.map_eq_some_iff] at hkind
        obtain ⟨earlier, hearlier, hdirectory⟩ := hkind
        rw [← hdirectory]
        exact htree.fits y hy earlier hearlier
    · by_cases heq : path = e.resolve x.1
      · rw [heq, hself] at hnone
        exact absurd hnone (Option.some_ne_none _)
      · have hkind := hupdate.kinds path heq
        rw [hnone, eq_comm] at hkind
        exact htree.missing path (Option.map_eq_none_iff.1 hkind)
    · rw [hupdate.kinds path (hpath x hx), htree.kinds path hpath]
    · obtain ⟨hne, hparent⟩ := hpath x hx
      rw [hothers path hne fun hnone => hparent (htree.missing _ hnone), htree.others path hpath]
  · intro y hy hne hdone
    rw [hothers _ (fun heq => hne (h.distinct y hy x hx heq)) fun hnone heq => ?_, hdone]
    obtain ⟨hfile, hdir⟩ := hfolder hnone
    rw [← heq, IsDir, hdone, hfile] at hdir
    exact absurd (Option.some.inj hdir) Bool.false_ne_true

/-- **A table that fits is touched,** whatever the order of the hash. -/
theorem touchTable_spec (h : e.IsTouchable isDirectory table s.tree) :
    ∃ tree, e.touchTable table s = ({ s with tree := tree }, true) ∧
      e.IsTouched isDirectory table s.tree tree := by
  have hstart : InTable e isDirectory table s.tree s.tree :=
    ⟨fun _ hdir => hdir, h.fits, fun _ hnone => hnone, fun _ _ => rfl, fun _ _ => rfl⟩
  have hrun := Script.perform_of_achieves e.touchEntry
    (e.orders.tables.order table.entries) (s := s)
    (I := fun s' => s'.molester = s.molester ∧ InTable e isDirectory table s.tree s'.tree)
    (E := fun x s' => s'.tree (e.resolve x.1) = some ⟨isDirectory, x.2.tdiv 1000⟩)
    (fun x hx s' hs' => by
      obtain ⟨tree', htouch, htree', hself, hothers⟩ :=
        hs'.2.touch h (e.orders.tables.mem_order.1 hx)
      rw [touchEntry_of_touch htouch]
      exact ⟨rfl, ⟨hs'.1, htree'⟩, hself,
        fun y hy => hothers y (e.orders.tables.mem_order.1 hy)⟩)
    ⟨rfl, hstart⟩
  obtain ⟨hok, ⟨hmolester, htree⟩, hentries⟩ := hrun
  refine ⟨(e.touchTable table s).1.tree, Prod.ext ?_ hok,
    fun x hx => hentries x (e.orders.tables.mem_order.2 hx), htree.kinds, htree.others⟩
  rw [touchTable, ← hmolester]

/-! ## Both tables -/

/-- Of the folders none is missing. -/
lemma IsTouchable.isDir (h : e.IsTouchable true table tree) (hx : x ∈ table.entries) :
    tree.IsDir (e.resolve x.1) := by
  cases hfound : tree (e.resolve x.1) with
  | none => exact absurd (h.folder x hx hfound).1.symm Bool.false_ne_true
  | some found => rw [IsDir, hfound, Option.map_some, h.fits x hx found hfound]

/-- Folders can be touched as long as they are there. -/
lemma IsTouchable.of_isDir (h : e.IsTouchable true table tree)
    (hdir : ∀ x ∈ table.entries, tree'.IsDir (e.resolve x.1)) :
    e.IsTouchable true table tree' where
  distinct := h.distinct
  slash := h.slash
  fits := fun x hx found hfound => by
    have hthere := hdir x hx
    rw [IsDir, hfound] at hthere
    exact Option.some.inj hthere
  folder := fun x hx hnone => by
    have hthere := hdir x hx
    rw [IsDir, hnone] at hthere
    exact absurd hthere.symm (Option.some_ne_none _)

/-- **The files and the folders have their times** after both tables were touched, which are then
the old ones.  Nothing else has changed but the time of a folder that is not in the table and in
which a file was made. -/
theorem molestUsingInternalTables_spec
    (hfiles : e.IsTouchable false s.molester.files s.tree)
    (hfolders : e.IsTouchable true s.molester.folders s.tree) :
    ∃ s', e.molestUsingInternalTables s = (s', true) ∧
      s'.molester.oldFiles = s.molester.files ∧ s'.molester.oldFolders = s.molester.folders ∧
      s'.molester.firstTimeDoingHackyOccuranceRateMerging = false ∧
      (∀ x ∈ s.molester.files.entries,
        s'.tree (e.resolve x.1) = some ⟨false, x.2.tdiv 1000⟩) ∧
      (∀ x ∈ s.molester.folders.entries,
        s'.tree (e.resolve x.1) = some ⟨true, x.2.tdiv 1000⟩) ∧
      ∀ path, e.IsOther s.molester.files s.tree path →
        (∀ x ∈ s.molester.folders.entries, path ≠ e.resolve x.1) → s'.tree path = s.tree path := by
  -- What is there as a folder cannot be in the table of the files.
  have hapart (y : TableEntry) (hy : y ∈ s.molester.folders.entries) :
      ∀ x ∈ s.molester.files.entries, e.resolve y.1 ≠ e.resolve x.1 := fun x hx heq => by
    obtain ⟨found, hfound, hdirectory⟩ := Option.map_eq_some_iff.1 (hfolders.isDir hy)
    have hfile := hfiles.fits x hx found (heq ▸ hfound)
    exact absurd (hfile.symm.trans hdirectory) Bool.false_ne_true
  obtain ⟨tree₁, htouch₁, h₁⟩ := touchTable_spec
    (s := s.d ("Beginning Molestation using table size: ".toList ++
      number s.molester.files.entries.length)) hfiles
  have hfolders₁ : e.IsTouchable true s.molester.folders tree₁ :=
    hfolders.of_isDir fun y hy => (h₁.kinds _ (hapart y hy)).trans (hfolders.isDir hy)
  obtain ⟨tree₂, htouch₂, h₂⟩ := touchTable_spec
    (s := { s.d ("Beginning Molestation using table size: ".toList ++
      number s.molester.files.entries.length) with tree := tree₁ }) hfolders₁
  have hkept (path : Path) (hpath : ∀ y ∈ s.molester.folders.entries, path ≠ e.resolve y.1) :
      tree₂ path = tree₁ path :=
    h₂.others path fun y hy => ⟨hpath y hy, fun hnone =>
      absurd (hfolders₁.folder y hy hnone).1.symm Bool.false_ne_true⟩
  obtain ⟨s', hs', rfl, hold⟩ : ∃ s', e.molestUsingInternalTables s = (s', true) ∧
      s'.tree = tree₂ ∧ s'.molester.oldFiles = s.molester.files ∧
      s'.molester.oldFolders = s.molester.folders ∧
      s'.molester.firstTimeDoingHackyOccuranceRateMerging = false := by
    rw [molestUsingInternalTables]
    simp only [d_files, htouch₁, d_folders, htouch₂]
    exact ⟨_, rfl, rfl, rfl, rfl, rfl⟩
  refine ⟨s', hs', hold.1, hold.2.1, hold.2.2, fun x hx => ?_, h₂.entries,
    fun path hfile hfolder => ?_⟩
  · exact (hkept _ fun y hy => (hapart y hy x hx).symm).trans (h₁.entries x hx)
  · exact (hkept path hfolder).trans (h₁.others path hfile)

/-! ## Kinds -/

lemma keepsKinds_touch (h : e.touch tree key t = some tree') : KeepsKinds tree tree' := by
  rw [touch] at h
  split_ifs at h
  exact KeepsKinds.touch h

lemma keepsKinds_touchTable (table : TimestampTable) (s : Molestation) :
    KeepsKinds s.tree (e.touchTable table s).1.tree := by
  refine Script.perform_of_forall (I := fun s' : Molestation => KeepsKinds s.tree s'.tree)
    (fun x _ s' hs' => ?_) (KeepsKinds.refl s.tree)
  rw [touchEntry, changeModificationDate]
  cases htouch : e.touch s'.tree x.1 (x.2.tdiv 1000) with
  | none =>
      dsimp only
      split_ifs <;> exact hs'
  | some tree' => exact hs'.trans (keepsKinds_touch htouch)

lemma keepsKinds_molestUsingInternalTables :
    KeepsKinds s.tree (e.molestUsingInternalTables s).1.tree := by
  have hfiles := keepsKinds_touchTable (e := e) s.molester.files
    (s.d ("Beginning Molestation using table size: ".toList ++
      number s.molester.files.entries.length))
  rw [molestUsingInternalTables]
  simp only [d_files]
  split
  · next s₁ heq => exact heq ▸ hfiles
  · next s₁ heq =>
      have hfolders := keepsKinds_touchTable (e := e) s₁.molester.folders s₁
      rw [heq] at hfiles
      split
      · next s₂ heq => exact hfiles.trans (heq ▸ hfolders)
      · next s₂ heq =>
          rw [heq] at hfolders
          exact hfiles.trans hfolders

end Environment

end Autobackup.HeirarchyMolester
