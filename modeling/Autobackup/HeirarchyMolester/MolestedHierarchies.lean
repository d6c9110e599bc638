import Autobackup.HeirarchyMolester.ListedHierarchies

/-!
# Molested hierarchies

A hierarchy that is listed in a timestamp file is molested if and only if nothing of another kind is
in its way (`isMolested_iff`).  The directories that are made while the file is read, and the files
that `touch` makes, give new times to the directories around them.  No directory gets its time
before all that is over, so even one with an empty directory in it has the right time at the end
(`isMolested_copy`), which it has not after `molestHeirarchy`.

A run of `molestLastModifiedDateHeirarchy` loads the tables and then goes through them, each of them
in the order of its hash.  Left out are `touch` processes that do not start or end, paths that
`touch` takes for options, and the other commands of the tool.
-/

namespace Autobackup.HeirarchyMolester

open QString AbsolutePath Filesystem LastModifiedTimestampsTools TimedTree Molestation

/-- Every entry is there, with its time.  No other path has changed, but for the time of the
directory that the hierarchy is in. -/
structure IsMolested (o : Hierarchy) (dirToMolest : Path) (before after : Tree) : Prop where
  entries : ∀ entry ∈ o.entries, after (dirToMolest ++ entry.1) = some entry.2
  others : ∀ path, path ≠ dirToMolest → (∀ entry ∈ o.entries, path ≠ dirToMolest ++ entry.1) →
    after path = before path

/-- What is listed is what `performHackyOccuranceRateMerging` goes back to the next time. -/
structure Remembers (e : Environment) (o : Hierarchy) (dirToMolest : Path)
    (m : LastModifiedDateHeirarchyMolester) : Prop where
  oldFiles : HasListed e dirToMolest false o.entries m.oldFiles
  oldFolders : HasListed e dirToMolest true o.entries m.oldFolders
  notTheFirstTime : m.firstTimeDoingHackyOccuranceRateMerging = false

lemma Remembers.d {e : Environment} {o : Hierarchy} {dirToMolest : Path} {s : Molestation}
    (h : Remembers e o dirToMolest s.molester) (message : Text) :
    Remembers e o dirToMolest (s.d message).molester :=
  ⟨h.oldFiles, h.oldFolders, h.notTheFirstTime⟩

namespace Environment

variable {e : Environment} {o : Hierarchy} {dirToMolest : Path} {before : Tree} {s : Molestation}
  {dir text : Text} {creation xml : Bool}

/-! ## Touching what was loaded -/

/-- All entries were listed: a table can be touched. -/
lemma isTouchable_of_loaded {isDirectory : Bool} {table : TimestampTable} {before : Tree}
    (h : Loaded o e dirToMolest before o.entries s)
    (hroot : ∀ path, path <+: dirToMolest → before.IsDir path) (hfits : Fits o dirToMolest before)
    (htable : HasListed e dirToMolest isDirectory o.entries table) :
    e.IsTouchable isDirectory table s.tree where
  distinct := fun x hx y hy heq => by
    have hnodup : (table.entries.map fun x => (e.resolve x.1, x.2)).Nodup := by
      rw [htable.entries, List.nodup_reverse]
      refine List.Nodup.map_on (fun entry hentry other hother heq => ?_)
        (List.Nodup.of_map _ o.nodup |>.filter _)
      exact Hierarchy.eq_of_fst_eq (List.mem_of_mem_filter hentry) (List.mem_of_mem_filter hother)
        (List.append_cancel_left (Prod.mk.inj heq).1)
    obtain ⟨entry, hentry, -, hpath, htime⟩ := htable.of_mem_table hx
    obtain ⟨other, hother, -, hpath', htime'⟩ := htable.of_mem_table hy
    obtain rfl : entry = other := Hierarchy.eq_of_fst_eq hentry hother
      (List.append_cancel_left (hpath.symm.trans (heq.trans hpath')))
    exact List.inj_on_of_nodup_map hnodup hx hy (Prod.ext heq (htime.trans htime'.symm))
  slash := htable.slash
  fits := fun x hx found hfound => by
    obtain ⟨entry, hentry, hkind, hpath, -⟩ := htable.of_mem_table hx
    rw [hpath] at hfound
    cases hdirectory : entry.2.isDirectory with
    | true =>
        have hdir := h.isDir entry hentry hdirectory
        rw [IsDir, hfound] at hdir
        rw [← hkind, hdirectory]
        exact Option.some.inj hdir
    | false =>
        have hkept := h.kinds (dirToMolest ++ entry.1) fun other hother hother' heq => by
          rw [Hierarchy.eq_of_fst_eq hentry hother (List.append_cancel_left heq), hother']
            at hdirectory
          exact absurd hdirectory.symm Bool.false_ne_true
        rw [hfound, Option.map_some, eq_comm, Option.map_eq_some_iff] at hkept
        obtain ⟨earlier, hearlier, hsame⟩ := hkept
        rw [← hsame, ← hkind]
        exact hfits entry hentry earlier hearlier
  folder := fun x hx hnone => by
    obtain ⟨entry, hentry, hkind, hpath, -⟩ := htable.of_mem_table hx
    obtain ⟨earlier, after, hentries⟩ := List.append_of_mem hentry
    rw [hpath] at hnone ⊢
    refine ⟨?_, h.isDir_above hroot hentries
      (fun other hother => hentries ▸ List.mem_append_left _ hother) (List.dropLast_prefix _) ?_⟩
    · rw [← hkind]
      refine Bool.eq_false_iff.2 fun hdirectory => ?_
      have hdir := h.isDir entry hentry hdirectory
      rw [IsDir, hnone] at hdir
      exact absurd hdir.symm (Option.some_ne_none _)
    · intro heq
      have hlength := congrArg List.length heq
      rw [List.length_dropLast, List.length_append] at hlength
      have hname := List.length_pos_of_ne_nil (o.isName entry hentry).1
      omega

/-- **What was loaded is molested.** -/
theorem molestUsingInternalTables_loaded (h : Loaded o e dirToMolest before o.entries s)
    (hroot : ∀ path, path <+: dirToMolest → before.IsDir path)
    (hfits : Fits o dirToMolest before) :
    ∃ s', e.molestUsingInternalTables s = (s', true) ∧ IsMolested o dirToMolest before s'.tree ∧
      Remembers e o dirToMolest s'.molester := by
  obtain ⟨s', hrun, hfiles, hfolders, hfirst, htimes, hfolderTimes, hothers⟩ :=
    molestUsingInternalTables_spec (isTouchable_of_loaded h hroot hfits h.files)
      (isTouchable_of_loaded h hroot hfits h.folders)
  refine ⟨s', hrun, ⟨fun entry hentry => ?_, fun path hpath hnot => ?_⟩,
    ⟨hfiles.symm ▸ h.files, hfolders.symm ▸ h.folders, hfirst⟩⟩
  · have hseconds : (entry.2.lastModified * 1000).tdiv 1000 = entry.2.lastModified :=
      Int.mul_tdiv_cancel _ (by decide)
    cases hkind : entry.2.isDirectory with
    | false =>
        obtain ⟨x, hx, hresolve, htime⟩ := h.files.of_mem_listed hentry hkind
        rw [← hresolve, htimes x hx, htime, hseconds, ← hkind]
    | true =>
        obtain ⟨x, hx, hresolve, htime⟩ := h.folders.of_mem_listed hentry hkind
        rw [← hresolve, hfolderTimes x hx, htime, hseconds, ← hkind]
  · refine (hothers path (fun x hx => ?_) fun x hx => ?_).trans (h.others path hpath hnot)
    · obtain ⟨entry, hentry, -, hresolve, -⟩ := h.files.of_mem_table hx
      rw [hresolve]
      exact ⟨hnot entry hentry, fun _ => ne_dropLast hentry hpath hnot⟩
    · obtain ⟨entry, hentry, -, hresolve, -⟩ := h.folders.of_mem_table hx
      rw [hresolve]
      exact hnot entry hentry

/-! ## Whatever is in the file -/

lemma keepsKinds_mkdirIfMissing {tree tree' : Tree} {key : Text}
    (h : e.mkdirIfMissing tree key = some tree') : KeepsKinds tree tree' := by
  rw [mkdirIfMissing] at h
  split_ifs at h
  · exact Option.some.inj h ▸ KeepsKinds.refl tree
  · exact KeepsKinds.mkdir h

lemma keepsKinds_readToken (token : XmlToken) (r : TreeXmlReading) :
    KeepsKinds r.s.tree (e.readToken token r).1.s.tree := by
  cases token with
  | startElement name attributes =>
      rw [readToken]
      split_ifs
      · rw [readDirectory]
        split_ifs
        · exact KeepsKinds.refl _
        · split
          · exact KeepsKinds.refl _
          · next tree hmkdir => split <;> exact keepsKinds_mkdirIfMissing hmkdir
      · exact KeepsKinds.refl _
      · exact KeepsKinds.refl _
  | endElement name =>
      rw [readToken]
      split_ifs
      · rw [leaveDirectory]
        split_ifs <;> exact KeepsKinds.refl _
      · exact KeepsKinds.refl _
  | other => exact KeepsKinds.refl _

lemma doSharedInitBetweenXmlAndEasyTree_tree (dir : Text) (timestampFile : TimestampFile) :
    (e.doSharedInitBetweenXmlAndEasyTree dir timestampFile s).1.tree = s.tree := by
  unfold doSharedInitBetweenXmlAndEasyTree
  dsimp only
  split_ifs
  · rfl
  · cases timestampFile <;> rfl
  · rfl

lemma keepsKinds_loadFromXml (dir : Text) (timestampFile : TimestampFile) :
    KeepsKinds s.tree (e.loadFromXml dir timestampFile s).1.tree := by
  have hinit := doSharedInitBetweenXmlAndEasyTree_tree (e := e) (s := s) dir timestampFile
  rw [loadFromXml]
  split
  · next s₁ heq =>
      rw [heq] at hinit
      exact hinit ▸ KeepsKinds.refl _
  · next s₁ text heq =>
      rw [heq] at hinit
      have hrun : KeepsKinds s₁.tree (Script.perform e.readToken (e.xml text).tokens
          (e.startReading dir
            (s₁.d "Beginning trying to read XML timestamp file".toList))).1.s.tree :=
        Script.perform_of_forall (I := fun r : TreeXmlReading => KeepsKinds s₁.tree r.s.tree)
          (fun token _ r hr => hr.trans (keepsKinds_readToken token r)) (KeepsKinds.refl _)
      rw [← hinit]
      dsimp only
      split
      · next r hread =>
          rw [hread] at hrun
          exact hrun
      · next r hread =>
          rw [hread] at hrun
          split <;> exact hrun

lemma keepsKinds_loadItem (slash : Text) (item : Text × ℤ) :
    KeepsKinds s.tree (e.loadItem slash item s).1.tree := by
  rw [loadItem]
  split_ifs
  · exact KeepsKinds.refl _
  · split
    · exact KeepsKinds.refl _
    · next tree hmkpath => exact KeepsKinds.mkpath hmkpath
  · exact KeepsKinds.refl _

lemma keepsKinds_loadLines {slash : Text} {lines : List Text} {result : Molestation × Bool}
    (h : e.loadLines slash creation lines s = some result) :
    KeepsKinds s.tree result.1.tree := by
  induction lines generalizing s with
  | nil => exact Option.some.inj h ▸ KeepsKinds.refl _
  | cons currentLine lines ih =>
      rw [loadLines] at h
      split_ifs at h
      · exact ih h
      · split at h
        · exact absurd h.symm (Option.some_ne_none _)
        · next item _ =>
            have hitem := keepsKinds_loadItem (e := e) (s := s) slash item
            split at h
            · next s₁ heq =>
                rw [heq] at hitem
                exact Option.some.inj h ▸ hitem
            · next s₁ heq =>
                rw [heq] at hitem
                exact hitem.trans (ih h)

lemma keepsKinds_loadFromEasyTreeFile {timestampFile : TimestampFile} {result : Molestation × Bool}
    (h : e.loadFromEasyTreeFile dir timestampFile creation s = some result) :
    KeepsKinds s.tree result.1.tree := by
  rw [loadFromEasyTreeFile] at h
  split at h
  next s₁ text hinit =>
    have hs₁ := doSharedInitBetweenXmlAndEasyTree_tree (e := e) dir timestampFile
      (s := s.d "Beginning trying to read Easy Tree timestamp file".toList)
    rw [hinit] at hs₁
    split at h
    · exact absurd h.symm (Option.some_ne_none _)
    · next s₂ hload => exact Option.some.inj h ▸ hs₁ ▸ keepsKinds_loadLines hload
    · next s₂ hload =>
        have hkept := keepsKinds_loadLines hload
        rw [← Option.some.inj h, ← d_tree s, ← hs₁]
        exact hkept

/-- **Whatever is in the file,** what was there is there, and it is of the same kind. -/
theorem keepsKinds_molestLastModifiedDateHeirarchy {timestampFile : TimestampFile}
    {s' : Molestation}
    (h : e.molestLastModifiedDateHeirarchy dir timestampFile creation xml s = some s') :
    KeepsKinds s.tree s'.tree := by
  rw [molestLastModifiedDateHeirarchy] at h
  by_cases hboth : (creation && xml) = true
  · rw [if_pos hboth] at h
    exact Option.some.inj h ▸ KeepsKinds.refl _
  · rw [if_neg hboth] at h
    obtain ⟨⟨⟨s₁, ok⟩, failed⟩, hloaded, rfl⟩ := Option.map_eq_some_iff.1 h
    have hkept : KeepsKinds s.tree s₁.tree := by
      split_ifs at hloaded
      · have hload := keepsKinds_loadFromXml (e := e) (s := s) dir timestampFile
        rw [(Prod.mk.inj (Option.some.inj hloaded)).1] at hload
        exact hload
      · obtain ⟨loaded, hload, heq⟩ := Option.map_eq_some_iff.1 hloaded
        have hkept := keepsKinds_loadFromEasyTreeFile hload
        rw [(Prod.mk.inj heq).1] at hkept
        exact hkept
    cases ok with
    | false => exact hkept
    | true =>
        have hmolest := hkept.trans (keepsKinds_molestUsingInternalTables (e := e) (s := s₁))
        dsimp only
        split
        · next s₂ heq =>
            rw [heq] at hmolest
            exact hmolest
        · next s₂ heq =>
            rw [heq] at hmolest
            exact hmolest

/-- **A hierarchy is molested,** from whichever format it is listed in, and in whatever order the
hashes are iterated over: every directory and every file is there afterwards, with the time that is
listed, exactly if nothing of another kind is in its way.

The hierarchy need not be there: what is missing is made, directories while the file is loaded and
files by `touch`.  What is in the way is a file where a directory is listed, a directory where a
file is, or a file where a directory leads through; then no order of the hashes gets the hierarchy
molested. -/
theorem isMolested_iff (hlisted : IsListed o e text creation xml)
    (hroot : ∀ path, path <+: e.dirToMolest dir → s.tree.IsDir path) :
    (∃ s', e.molestLastModifiedDateHeirarchy dir (.readable text) creation xml s = some s' ∧
      IsMolested o (e.dirToMolest dir) s.tree s'.tree ∧
      Remembers e o (e.dirToMolest dir) s'.molester) ↔ Fits o (e.dirToMolest dir) s.tree := by
  constructor
  · rintro ⟨s', hrun, hmolested, -⟩ entry hentry found hfound
    obtain ⟨found', hfound', hkind⟩ := Option.map_eq_some_iff.1
      (keepsKinds_molestLastModifiedDateHeirarchy hrun _ found.isDirectory (by rw [hfound]; rfl))
    rw [hmolested.entries entry hentry] at hfound'
    rw [← hkind, Option.some.inj hfound']
  · intro hfits
    cases hlisted with
    | easyTree hlines =>
        obtain ⟨s₁, hload, h₁⟩ := loadFromEasyTreeFile_spec hroot hfits hlines
        obtain ⟨s₂, hmolest, h₂⟩ := molestUsingInternalTables_loaded h₁ hroot hfits
        rw [molestLastModifiedDateHeirarchy, Bool.and_false, if_neg Bool.false_ne_true,
          if_neg Bool.false_ne_true, hload]
        simp only [Option.map_some, hmolest]
        exact ⟨_, rfl, h₂.1, h₂.2.d _⟩
    | xml hxml =>
        obtain ⟨s₁, hload, h₁⟩ := loadFromXml_spec hroot hfits hxml
        obtain ⟨s₂, hmolest, h₂⟩ := molestUsingInternalTables_loaded h₁ hroot hfits
        rw [molestLastModifiedDateHeirarchy, Bool.and_true, if_neg Bool.false_ne_true, if_pos rfl,
          hload]
        simp only [Option.map_some, hmolest]
        exact ⟨_, rfl, h₂.1, h₂.2.d _⟩

/-- What git keeps of a hierarchy fits. -/
lemma fits_copy (c : o.Copy) : Fits o c.dirToMolest.names c.tree := by
  intro entry hentry found hfound
  have hkind := c.entries entry.1 (o.isName entry hentry).1
  rw [hfound, Hierarchy.lookup_entry hentry] at hkind
  split_ifs at hkind
  · exact Option.some.inj hkind
  · exact absurd hkind (Option.some_ne_none _)

/-- **Every copy that git makes is molested,** also where a directory without files is in another
one: there `molestHeirarchy` leaves a wrong time behind. -/
theorem isMolested_copy (c : o.Copy) (hs : s.tree = c.tree)
    (hlisted : IsListed o e text creation xml) (hdir : e.dirToMolest dir = c.dirToMolest.names) :
    ∃ s', e.molestLastModifiedDateHeirarchy dir (.readable text) creation xml s = some s' ∧
      IsMolested o c.dirToMolest.names c.tree s'.tree := by
  have hroot : ∀ path, path <+: e.dirToMolest dir → s.tree.IsDir path := by
    rw [hdir, hs]
    exact c.isDir
  have hfits : Fits o (e.dirToMolest dir) s.tree := by
    rw [hdir, hs]
    exact fits_copy c
  obtain ⟨s', hrun, hmolested, -⟩ := (isMolested_iff hlisted hroot).2 hfits
  rw [hdir, hs] at hmolested
  exact ⟨s', hrun, hmolested⟩

end Environment

/-- A directory with an empty one and a file in it. -/
def withEmptyDirectory : Hierarchy where
  dirToCreateLastModifiedTimestampsFor := "/home/listed".toList
  isAbsolute := rfl
  entries := [(["a".toList], ⟨true, 1⟩), (["a".toList, "b".toList], ⟨true, 2⟩),
    (["a".toList, "c".toList], ⟨false, 3⟩)]
  nodup := by decide
  isName := by decide
  isLongLong := by decide
  directories := by
    intro before entry after h path hpath hne hself
    have hinits : ∀ x ∈ before ++ entry :: after, ∀ path ∈ x.1.inits, path ≠ [] → path ≠ x.1 →
        path = ["a".toList] := by
      rw [← h]
      decide
    have hparent := hinits entry (List.mem_append_right _ List.mem_cons_self) path
      ((List.mem_inits _ _).2 hpath) hne hself
    refine ⟨1, ?_⟩
    cases before with
    | nil =>
        obtain ⟨rfl, -⟩ := List.cons_eq_cons.1 h
        exact absurd hparent hself
    | cons first before =>
        obtain ⟨rfl, -⟩ := List.cons_eq_cons.1 h
        rw [hparent]
        exact List.mem_cons_self

/-- As in an easy tree that has no creation dates. -/
def linesOfWithEmptyDirectory : List Text :=
  [lineWith (relativeFilePath (["a".toList], ⟨true, 1⟩)) [number 1],
    lineWith (relativeFilePath (["a".toList, "b".toList], ⟨true, 2⟩)) [number 2],
    lineWith (relativeFilePath (["a".toList, "c".toList], ⟨false, 3⟩)) [number 5, number 3]]

lemma forall₂_isLine_withEmptyDirectory :
    List.Forall₂ (IsLine false) linesOfWithEmptyDirectory withEmptyDirectory.entries := by
  have hplain : ∀ field ∈ [number 5, number 3], IsPlain field := by
    intro field hfield
    rcases List.mem_pair.1 hfield with rfl | rfl <;> exact isPlain_number _
  refine .cons ?_ (.cons ?_ (.cons ?_ .nil))
  · exact isLine_lineWith (by decide +kernel)
      ⟨by decide +kernel, fun h => absurd h (by decide +kernel)⟩
      (List.forall_mem_singleton.2 (isPlain_number 1)) rfl
  · exact isLine_lineWith (by decide +kernel)
      ⟨by decide +kernel, fun h => absurd h (by decide +kernel)⟩
      (List.forall_mem_singleton.2 (isPlain_number 2)) rfl
  · exact isLine_lineWith (by decide +kernel)
      ⟨by decide +kernel, fun h => absurd h (by decide +kernel)⟩ hplain rfl

/-- Nothing of it is there but the directory, and that has another time. -/
def copied : Tree := fun path =>
  if path = [] ∨ path = ["home".toList] ∨ path = ["home".toList, "a".toList] then some ⟨true, 9⟩
  else none

/-- What `tree -X` writes of what is in the directory `a`. -/
def insideOfDirectory : List XmlToken :=
  [.startElement "directory".toList [("name".toList, "b".toList), ("time".toList, "2".toList)],
    .endElement "directory".toList,
    .startElement "file".toList [("name".toList, "c".toList), ("time".toList, "3".toList)],
    .endElement "file".toList]

/-- What `tree -X` writes of it. -/
def withEmptyDirectoryXml : XmlDocument where
  tokens := [.startElement "tree".toList [],
    .startElement "directory".toList [("name".toList, ['.']), ("time".toList, "4".toList)],
    .startElement "directory".toList [("name".toList, "a".toList), ("time".toList, "1".toList)]] ++
    (insideOfDirectory ++ [.endElement "directory".toList, .endElement "directory".toList,
      .endElement "tree".toList])
  error := none

lemma isTreeXml_withEmptyDirectory : IsTreeXml withEmptyDirectory withEmptyDirectoryXml where
  error := rfl
  tokens := by
    have hlisting : IsListing [] (.startElement "directory".toList
        [("name".toList, "a".toList), ("time".toList, "1".toList)] ::
          (insideOfDirectory ++ [.endElement "directory".toList])) withEmptyDirectory.entries := by
      have hinside : IsListing ([] ++ ["a".toList]) insideOfDirectory
          [(["a".toList, "b".toList], ⟨true, 2⟩), (["a".toList, "c".toList], ⟨false, 3⟩)] :=
        .directory ⟨rfl, rfl⟩ .nil (.file ⟨rfl, rfl⟩ (.skip (by decide) .nil))
      exact .directory ⟨rfl, rfl⟩ hinside .nil
    exact ⟨[.startElement "tree".toList []], _, _, [.endElement "tree".toList], rfl, rfl, hlisting,
      by decide, by decide⟩
  depth := by decide

def anEnvironment : Environment where
  orders := ⟨HashOrder.inserted, HashOrder.inserted⟩
  workingDirectory := fileSystemRoot
  xml := fun _ => withEmptyDirectoryXml
  now := fun _ => 100
  touchResultString := fun _ => []
  nullDateTime := 0
  uninitialized := false

def aMolester : LastModifiedDateHeirarchyMolester := ⟨∅, ∅, ∅, ∅, true, []⟩

theorem isMolested_withEmptyDirectory :
    (∃ s', anEnvironment.molestLastModifiedDateHeirarchy "/home".toList
        (.readable "a/:1\na/b/:2\na/c:5:3\n".toList) false false ⟨aMolester, copied⟩ = some s' ∧
      IsMolested withEmptyDirectory ["home".toList] copied s'.tree ∧
      Remembers anEnvironment withEmptyDirectory ["home".toList] s'.molester) ∧
    ∃ s', anEnvironment.molestLastModifiedDateHeirarchy "/home".toList
        (.readable []) false true ⟨aMolester, copied⟩ = some s' ∧
      IsMolested withEmptyDirectory ["home".toList] copied s'.tree ∧
      Remembers anEnvironment withEmptyDirectory ["home".toList] s'.molester := by
  have hroot : ∀ path, path <+: anEnvironment.dirToMolest "/home".toList → copied.IsDir path :=
    fun path hpath => by
      have hinits : ∀ path ∈ (anEnvironment.dirToMolest "/home".toList).inits,
        copied.IsDir path := by decide +kernel
      exact hinits path ((List.mem_inits _ _).2 hpath)
  have hfits : Fits withEmptyDirectory (anEnvironment.dirToMolest "/home".toList) copied := by
    have hkinds : ∀ entry ∈ withEmptyDirectory.entries,
        ∀ found ∈ copied (anEnvironment.dirToMolest "/home".toList ++ entry.1),
          found.isDirectory = entry.2.isDirectory := by decide +kernel
    exact hkinds
  constructor
  · refine (Environment.isMolested_iff (.easyTree ?_) hroot).2 hfits
    have hlines : (linesOf (readAsText "a/:1\na/b/:2\na/c:5:3\n".toList)).filter
        (fun currentLine => trimmed currentLine ≠ []) = linesOfWithEmptyDirectory := by
      decide +kernel
    rw [hlines]
    exact forall₂_isLine_withEmptyDirectory
  · exact (Environment.isMolested_iff (.xml isTreeXml_withEmptyDirectory) hroot).2 hfits

end Autobackup.HeirarchyMolester
