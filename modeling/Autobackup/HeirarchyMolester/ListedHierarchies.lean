import Autobackup.HeirarchyMolester.LoadedTables

/-!
# Hierarchies that are listed in a file

A line of an easy tree has the whole path of an entry, so it is read on its own (`loadItem_spec`).
An element of `tree -X` has the name only, and what is read of it depends on the directory that the
program is in: after the end of an element it is back where it was at its start
(`perform_readToken`).  So both formats are read to the same tables, and the entries get their times
from them (`loadFromEasyTreeFile_spec`, `loadFromXml_spec`).
-/

namespace Autobackup.HeirarchyMolester

open QString AbsolutePath Filesystem LastModifiedTimestampsTools TimedTree Molestation
  EasyTreeHashItem

namespace Environment

/-- Where the hierarchy is. -/
def dirToMolest (e : Environment) (directoryHeirarchy : Text) : Path :=
  e.resolve (Autobackup.appendSlashIfNeeded directoryHeirarchy)

variable {e : Environment} {o : Hierarchy} {dirToMolest path : Path} {before : Tree}
  {listed entries after : List (Path × TimedEntry)} {s : Molestation} {entry : Path × TimedEntry}
  {creation : Bool} {dir key : Text}

lemma dateOfField_seconds (hentry : entry ∈ o.entries) :
    dateOfField (number entry.2.lastModified) = entry.2.lastModified * 1000 := by
  have hdate := dateOfField_number (o.isLongLong entry hentry)
  rwa [Int.mul_tdiv_cancel _ (by decide)] at hdate

/-! ## Directories that git missed -/

lemma exists_of_isDir {tree : Tree} (h : tree.IsDir (e.resolve key)) :
    e.exists_ tree key = true := by
  obtain ⟨found, hfound, hdirectory⟩ := Option.map_eq_some_iff.1 h
  rw [exists_, LastModifiedTimestampsTools.exists_, hfound]
  dsimp only
  rw [hdirectory, Bool.true_or]

lemma exists_of_none {tree : Tree} (h : tree (e.resolve key) = none) :
    e.exists_ tree key = false := by
  rw [exists_, LastModifiedTimestampsTools.exists_, h]

/-- A directory is made if it is missing, and no other one with it. -/
lemma mkpath_ifMissing (tree : Tree) (key : Text) (hne : e.resolve key ≠ [])
    (hthere : tree (e.resolve key) = none ∨ tree.IsDir (e.resolve key))
    (habove : ∀ path, path <+: e.resolve key → path ≠ e.resolve key → tree.IsDir path) :
    (if e.exists_ tree key then some tree else tree.mkpath e.now (e.resolve key)) =
      tree.mkdir e.now (e.resolve key) := by
  rcases hthere with hnone | hdir
  · obtain ⟨front, name, hname⟩ := (List.eq_nil_or_concat' (e.resolve key)).resolve_left hne
    have hfront (path : Path) (hpath : path <+: front) : tree.IsDir path := by
      refine habove path (hname ▸ hpath.trans (List.prefix_append _ _)) fun heq => ?_
      have hlength := hpath.length_le
      rw [heq, hname, List.length_append, List.length_singleton] at hlength
      omega
    rw [exists_of_none hnone, if_neg Bool.false_ne_true, hname, mkpath_eq_mkdir hfront]
  · rw [exists_of_isDir hdir, if_pos rfl, mkdir_of_isDir hdir]

lemma mkdirIfMissing_eq {tree : Tree}
    (hthere : tree (e.resolve key) = none ∨ tree.IsDir (e.resolve key))
    (hparent : tree.IsDir (e.resolve key).dropLast) :
    e.mkdirIfMissing tree key = tree.mkdir e.now (e.resolve key) := by
  rw [mkdirIfMissing]
  rcases hthere with hnone | hdir
  · rw [exists_of_none hnone, if_neg Bool.false_ne_true, if_pos hparent]
  · rw [exists_of_isDir hdir, if_pos rfl, mkdir_of_isDir hdir]

/-! ## Easy trees -/

lemma getLast?_relativeFilePath (hentry : entry ∈ o.entries) :
    (relativeFilePath entry).getLast? =
      if entry.2.isDirectory then some '/' else (joinNames entry.1).getLast? := by
  have hlength := Hierarchy.two_le_length_joinNames (Hierarchy.isName_entry hentry)
    (o.isName entry hentry).1
  rw [relativeFilePath]
  cases entry.2.isDirectory with
  | true => exact List.getLast?_concat
  | false =>
      rw [if_neg Bool.false_ne_true, if_neg Bool.false_ne_true, List.append_nil,
        List.getLast?_drop, if_neg (by omega)]

lemma detect_relativeFilePath (hentry : entry ∈ o.entries) (front : Text) :
    detectIfFilePathIsDirectory (front ++ relativeFilePath entry) = entry.2.isDirectory := by
  have hlast := getLast?_relativeFilePath hentry
  rw [detectIfFilePathIsDirectory, List.getLast?_append, hlast]
  cases entry.2.isDirectory with
  | true => exact decide_eq_true rfl
  | false =>
      have hlength := Hierarchy.two_le_length_joinNames (Hierarchy.isName_entry hentry)
        (o.isName entry hentry).1
      have hname := Hierarchy.getLast?_joinNames_ne (Hierarchy.isName_entry hentry)
      obtain ⟨c, hc⟩ : ∃ c, (joinNames entry.1).getLast? = some c :=
        Option.ne_none_iff_exists'.1 fun hnone => by
          rw [List.getLast?_eq_none_iff.1 hnone] at hlength
          exact absurd hlength (by decide)
      rw [hc] at hname
      rw [if_neg Bool.false_ne_true, hc, Option.some_or]
      exact decide_eq_false hname

lemma split_relativeFilePath (hentry : entry ∈ o.entries) :
    splitSkippingEmptyParts '/' (relativeFilePath entry) = entry.1 := by
  rw [relativeFilePath]
  cases entry.2.isDirectory with
  | true =>
      rw [if_pos rfl, split_concat, Hierarchy.split_tail (Hierarchy.isName_entry hentry)]
  | false =>
      rw [if_neg Bool.false_ne_true, List.append_nil,
        Hierarchy.split_tail (Hierarchy.isName_entry hentry)]

/-- A path leads to its entry. -/
lemma resolve_relativeFilePath (dir : Text) (hentry : entry ∈ o.entries) :
    e.resolve (Autobackup.appendSlashIfNeeded dir ++ relativeFilePath entry) =
      e.dirToMolest dir ++ entry.1 := by
  obtain ⟨front, hfront⟩ := exists_appendSlashIfNeeded dir
  rw [hfront, List.append_assoc, List.singleton_append, resolve, names_absolute_append,
    split_relativeFilePath hentry, foldl_enter (Hierarchy.isName_entry hentry), dirToMolest,
    resolve, hfront]

/-- **What is read of a line** is its path and its time, wherever the format has it. -/
lemma easyTreeItem_of_isLine {line : Text} (h : IsLine creation line entry)
    (hentry : entry ∈ o.entries) :
    e.easyTreeItem creation line =
      some (relativeFilePath entry, entry.2.lastModified * 1000) := by
  obtain ⟨fields, hsplit, htime⟩ := h
  have hdetect := detect_relativeFilePath hentry []
  rw [List.nil_append] at hdetect
  have hdate := dateOfField_seconds hentry
  rw [easyTreeItem]
  cases creation with
  | false =>
      rw [if_neg Bool.false_ne_true, hsplit]
      dsimp only
      rw [hdetect]
      cases hkind : entry.2.isDirectory with
      | true =>
          rw [hkind] at htime
          rw [if_pos rfl, show fields[0]? = _ from htime, Option.map_some, hdate]
      | false =>
          rw [hkind] at htime
          rw [if_neg Bool.false_ne_true, show fields[1]? = _ from htime, Option.map_some, hdate]
  | true =>
      rw [if_pos rfl, newEasyTreeHashItemFromLineOfText, if_neg Bool.false_ne_true, hsplit]
      cases hkind : entry.2.isDirectory with
      | true =>
          rw [hkind] at hdetect htime
          obtain _ | ⟨creationDate, _ | ⟨field, rest⟩⟩ := fields
          · exact absurd htime.symm (Option.some_ne_none _)
          · exact absurd htime.symm (Option.some_ne_none _)
          · simp [ofFields, readFileSize, hdetect, hdate, Option.some.inj htime]
      | false =>
          rw [hkind] at hdetect htime
          obtain _ | ⟨fileSize, _ | ⟨creationDate, _ | ⟨field, rest⟩⟩⟩ := fields
          · exact absurd htime.symm (Option.some_ne_none _)
          · exact absurd htime.symm (Option.some_ne_none _)
          · exact absurd htime.symm (Option.some_ne_none _)
          -- A file may have a hash in one more field.
          · cases rest <;> simp [ofFields, readFileSize, hdetect, hdate, Option.some.inj htime]

/-- **An item is read,** and a directory is there afterwards. -/
lemma loadItem_spec (h : Loaded o e (e.dirToMolest dir) before listed s)
    (hroot : ∀ path, path <+: e.dirToMolest dir → before.IsDir path)
    (hfits : Fits o (e.dirToMolest dir) before)
    (hentries : o.entries = listed ++ entry :: after) :
    ∃ s', e.loadItem (Autobackup.appendSlashIfNeeded dir)
        (relativeFilePath entry, entry.2.lastModified * 1000) s = (s', true) ∧
      Loaded o e (e.dirToMolest dir) before (listed ++ [entry]) s' := by
  have hentry : entry ∈ o.entries := hentries ▸ List.mem_append_right _ List.mem_cons_self
  have hdetect := detect_relativeFilePath hentry []
  rw [List.nil_append] at hdetect
  have hslash := detect_relativeFilePath hentry (Autobackup.appendSlashIfNeeded dir)
  have hkey := resolve_relativeFilePath (e := e) dir hentry
  rw [loadItem]
  dsimp only
  rw [hdetect]
  cases hkind : entry.2.isDirectory with
  | false =>
      exact ⟨_, rfl, h.insertFile hentries hkind hkey (hslash.trans hkind)⟩
  | true =>
      obtain ⟨tree, hmkdir, -, hloaded⟩ :=
        h.insertFolder hfits hentries hkind hkey (hslash.trans hkind)
      have hmkpath := mkpath_ifMissing (e := e) s.tree
        (Autobackup.appendSlashIfNeeded dir ++ relativeFilePath entry)
        (by rw [hkey]; exact List.append_ne_nil_of_right_ne_nil _ (o.isName entry hentry).1)
        (by rw [hkey]; exact h.none_or_isDir hfits hentries hkind)
        (by rw [hkey]; exact fun _ => h.isDir_above hroot hentries fun _ hother => hother)
      rw [if_pos rfl, hmkpath, hkey, hmkdir]
      exact ⟨_, rfl, hloaded⟩

/-- **The lines are read.** -/
lemma loadLines_spec {lines : List Text}
    (h : Loaded o e (e.dirToMolest dir) before listed s)
    (hroot : ∀ path, path <+: e.dirToMolest dir → before.IsDir path)
    (hfits : Fits o (e.dirToMolest dir) before)
    (hentries : o.entries = listed ++ entries)
    (hlines : List.Forall₂ (IsLine creation)
      (lines.filter fun currentLine => trimmed currentLine ≠ []) entries) :
    ∃ s', e.loadLines (Autobackup.appendSlashIfNeeded dir) creation lines s = some (s', true) ∧
      Loaded o e (e.dirToMolest dir) before o.entries s' := by
  induction lines generalizing listed entries s with
  | nil =>
      rw [List.filter_nil, List.forall₂_nil_left_iff] at hlines
      rw [hlines, List.append_nil] at hentries
      exact ⟨s, rfl, hentries ▸ h⟩
  | cons currentLine lines ih =>
      rw [loadLines]
      by_cases hblank : trimmed currentLine = []
      · rw [List.filter_cons_of_neg (by simpa using hblank)] at hlines
        rw [if_pos hblank]
        exact ih h hentries hlines
      · rw [List.filter_cons_of_pos (by simpa using hblank),
          List.forall₂_cons_left_iff] at hlines
        obtain ⟨entry, rest, hline, hrest, rfl⟩ := hlines
        have hentry : entry ∈ o.entries := hentries ▸ List.mem_append_right _ List.mem_cons_self
        obtain ⟨s', hitem, hloaded⟩ := loadItem_spec h hroot hfits hentries
        rw [if_neg hblank, easyTreeItem_of_isLine hline hentry]
        simp only [hitem]
        exact ih hloaded (by rw [hentries, List.append_assoc, List.singleton_append]) hrest

/-! ## Elements -/

variable {r : TreeXmlReading} {name : Text} {attributes : List (Text × Text)} {t : ℤ}

lemma readToken_of_isSkipped {token : XmlToken} (h : token.IsSkipped) :
    ∃ r', e.readToken token r = (r', true) ∧ r'.s = r.s ∧ r'.currentDir = r.currentDir ∧
      r'.currentDepthHack = r.currentDepthHack := by
  cases token with
  | startElement name attributes =>
      rw [readToken, if_neg h.1, if_neg h.2]
      exact ⟨_, rfl, rfl, rfl, rfl⟩
  | endElement name =>
      rw [readToken, if_neg h]
      exact ⟨_, rfl, rfl, rfl, rfl⟩
  | other => exact ⟨_, rfl, rfl, rfl, rfl⟩

lemma perform_skipped {tokens : List XmlToken} (h : ∀ token ∈ tokens, token.IsSkipped) :
    ∃ r', Script.perform e.readToken tokens r = (r', true) ∧ r'.s = r.s ∧
      r'.currentDir = r.currentDir ∧ r'.currentDepthHack = r.currentDepthHack := by
  induction tokens generalizing r with
  | nil => exact ⟨r, rfl, rfl, rfl, rfl⟩
  | cons token tokens ih =>
      obtain ⟨htoken, htokens⟩ := List.forall_mem_cons.1 h
      obtain ⟨r₁, hread, hs, hdir, hdepth⟩ := readToken_of_isSkipped (e := e) (r := r) htoken
      obtain ⟨r', hrun, hs', hdir', hdepth'⟩ := ih (r := r₁) htokens
      rw [Script.perform_cons_of_succeeds (by rw [hread]), hread]
      exact ⟨r', hrun, hs'.trans hs, hdir'.trans hdir, hdepth'.trans hdepth⟩

lemma readAttributes_eq (h : AreAttributes attributes name t) (ht : IsLongLong (t * 1000)) :
    readAttributes attributes r =
      { r with currentNameAttribute := name, currentDateTimeAttribute := t * 1000 } := by
  have hdate := dateOfField_number ht
  rw [Int.mul_tdiv_cancel _ (by decide)] at hdate
  rw [readAttributes, h.1, h.2, Option.map_some, hdate]
  rfl

/-- The text of an entry in a directory leads to it. -/
lemma resolve_text (dir : AbsolutePath) (hname : IsName name) :
    e.resolve (dir.text ++ '/' :: name) = dir.names ++ [name] := by
  rw [resolve, names_absolute_append, names_absolute_text,
    splitSkippingEmptyParts_singleton hname.2.1 hname.1,
    foldl_enter (List.forall_mem_singleton.2 hname)]

lemma detect_text (dir : AbsolutePath) (hname : IsName name) :
    detectIfFilePathIsDirectory (dir.text ++ '/' :: name) = false := by
  obtain ⟨front, c, rfl⟩ := (List.eq_nil_or_concat' name).resolve_left hname.1
  rw [detectIfFilePathIsDirectory, ← List.cons_append, ← List.append_assoc, List.getLast?_concat]
  refine decide_eq_false fun heq => hname.2.1 ?_
  rw [← Option.some.inj heq]
  exact List.mem_append_right _ (List.mem_singleton_self c)

lemma names_absolute_name (dir : AbsolutePath) (hname : IsName name) :
    (AbsolutePath.absolute dir name).names = dir.names ++ [name] := by
  have hhead : name.head? ≠ some '/' := fun heq => hname.2.1 (List.mem_of_head? heq)
  rw [names_absolute, if_neg hhead, splitSkippingEmptyParts_singleton hname.2.1 hname.1,
    foldl_enter (List.forall_mem_singleton.2 hname)]

/-- The directory that a directory is in. -/
lemma cd_up {tree : Tree} {dir : AbsolutePath} (h : dir.names = path ++ [name])
    (hisDir : tree.IsDir path) :
    ∃ up, cd tree dir "..".toList = some up ∧ up.names = path := by
  have hnames : (AbsolutePath.absolute dir "..".toList).names = path := by
    have hup : (AbsolutePath.absolute dir "..".toList).names = dir.names.dropLast := rfl
    rw [hup, h, List.dropLast_concat]
  refine ⟨AbsolutePath.absolute dir "..".toList, ?_, hnames⟩
  rw [cd]
  exact if_pos (hnames.symm ▸ hisDir)

/-- **The start of a directory.** -/
lemma readToken_directory (hroot : ∀ path, path <+: dirToMolest → before.IsDir path)
    (hfits : Fits o dirToMolest before) (hattributes : AreAttributes attributes name t)
    (hentries : o.entries = listed ++ (path ++ [name], ⟨true, t⟩) :: after)
    (hdir : r.currentDir.names = dirToMolest ++ path)
    (hdepth : r.currentDepthHack = path.length) (hdeep : path.length + 1 < 2 ^ 32)
    (h : Loaded o e dirToMolest before listed r.s) :
    ∃ r', e.readToken (.startElement "directory".toList attributes) r = (r', true) ∧
      r'.currentDir.names = dirToMolest ++ (path ++ [name]) ∧
      r'.currentDepthHack = (path ++ [name]).length ∧
      Loaded o e dirToMolest before (listed ++ [(path ++ [name], ⟨true, t⟩)]) r'.s := by
  have hentry : (path ++ [name], ⟨true, t⟩) ∈ o.entries :=
    hentries ▸ List.mem_append_right _ List.mem_cons_self
  have hname : IsName name :=
    Hierarchy.isName_entry hentry name (List.mem_append_right _ (List.mem_singleton_self name))
  have hnames : r.currentDir.names ++ [name] = dirToMolest ++ (path ++ [name]) := by
    rw [hdir, List.append_assoc]
  have hnew : (AbsolutePath.absolute r.currentDir name).names = dirToMolest ++ (path ++ [name]) :=
    (names_absolute_name _ hname).trans hnames
  have hkey : e.resolve ((AbsolutePath.absolute r.currentDir name).text ++ ['/']) =
      dirToMolest ++ (path ++ [name]) := names_absolute_text.trans hnew
  obtain ⟨tree, hmkdir, hisDir, hloaded⟩ :=
    h.insertFolder hfits hentries rfl hkey (decide_eq_true List.getLast?_concat)
  have htree : e.mkdirIfMissing r.s.tree (r.currentDir.text ++ '/' :: name) = some tree := by
    have hresolve : e.resolve (r.currentDir.text ++ '/' :: name) =
        dirToMolest ++ (path ++ [name]) := (resolve_text _ hname).trans hnames
    rw [mkdirIfMissing_eq, hresolve, hmkdir]
    · rw [hresolve]
      exact h.none_or_isDir hfits hentries rfl
    · rw [hresolve]
      refine h.isDir_above hroot hentries (fun _ hother => hother) (List.dropLast_prefix _)
        fun heq => ?_
      have hlength := congrArg List.length heq
      rw [List.length_dropLast, List.length_append, List.length_append] at hlength
      simp at hlength
  have hcd : cd tree r.currentDir name = some (AbsolutePath.absolute r.currentDir name) := by
    rw [cd]
    exact if_pos (hnew.symm ▸ hisDir)
  rw [readToken, if_pos rfl, readAttributes_eq hattributes (o.isLongLong _ hentry), readDirectory,
    if_neg hname.2.2.1]
  simp only [htree, hcd]
  refine ⟨_, rfl, hnew, ?_, hloaded⟩
  change (r.currentDepthHack + 1) % 2 ^ 32 = _
  rw [hdepth, Nat.mod_eq_of_lt hdeep, List.length_append, List.length_singleton]

/-- **A file.** -/
lemma readToken_file (hattributes : AreAttributes attributes name t)
    (hentries : o.entries = listed ++ (path ++ [name], ⟨false, t⟩) :: after)
    (hdir : r.currentDir.names = dirToMolest ++ path)
    (h : Loaded o e dirToMolest before listed r.s) :
    ∃ r', e.readToken (.startElement "file".toList attributes) r = (r', true) ∧
      r'.currentDir = r.currentDir ∧ r'.currentDepthHack = r.currentDepthHack ∧
      Loaded o e dirToMolest before (listed ++ [(path ++ [name], ⟨false, t⟩)]) r'.s := by
  have hentry : (path ++ [name], ⟨false, t⟩) ∈ o.entries :=
    hentries ▸ List.mem_append_right _ List.mem_cons_self
  have hname : IsName name :=
    Hierarchy.isName_entry hentry name (List.mem_append_right _ (List.mem_singleton_self name))
  have hkey : e.resolve (r.currentDir.text ++ '/' :: name) = dirToMolest ++ (path ++ [name]) := by
    rw [resolve_text _ hname, hdir, List.append_assoc]
  rw [readToken, if_neg (by decide), if_pos rfl,
    readAttributes_eq hattributes (o.isLongLong _ hentry)]
  exact ⟨_, rfl, rfl, rfl, h.insertFile hentries rfl hkey (detect_text r.currentDir hname)⟩

/-- **The end of a directory.**  It is left for the one that it is in. -/
lemma readToken_endDirectory {within : List (Path × TimedEntry)}
    (hroot : ∀ path, path <+: dirToMolest → before.IsDir path)
    (hentries : o.entries = listed ++ (path ++ [name], ⟨true, t⟩) :: after)
    (hdir : r.currentDir.names = dirToMolest ++ (path ++ [name]))
    (hdepth : r.currentDepthHack = (path ++ [name]).length)
    (h : Loaded o e dirToMolest before
      (listed ++ [(path ++ [name], ⟨true, t⟩)] ++ within) r.s) :
    ∃ r', e.readToken (.endElement "directory".toList) r = (r', true) ∧
      r'.currentDir.names = dirToMolest ++ path ∧ r'.currentDepthHack = path.length ∧
      r'.s = r.s := by
  have hisDir : r.s.tree.IsDir (dirToMolest ++ path) := by
    refine h.isDir_above hroot hentries
      (fun other hother => List.mem_append_left _ (List.mem_append_left _ hother)) ?_ ?_
    · exact (List.prefix_append_right_inj dirToMolest).2 (List.prefix_append _ _)
    · intro heq
      have hlength := congrArg List.length (List.append_cancel_left heq)
      rw [List.length_append] at hlength
      simp at hlength
  rw [← List.append_assoc] at hdir
  obtain ⟨up, hcd, hup⟩ := cd_up hdir hisDir
  rw [List.length_append, List.length_singleton] at hdepth
  rw [readToken, if_pos rfl, leaveDirectory, if_pos (by omega), hcd, Option.getD_some, hdepth,
    Nat.add_sub_cancel]
  exact ⟨_, rfl, hup, rfl, rfl⟩

/-- **The elements are read,** and the program is back in the directory that it was in. -/
theorem perform_readToken {tokens : List XmlToken}
    (hroot : ∀ path, path <+: dirToMolest → before.IsDir path) (hfits : Fits o dirToMolest before)
    (hdepths : ∀ entry ∈ o.entries, entry.1.length < 2 ^ 32)
    (hlisting : IsListing path tokens entries) (hentries : o.entries = listed ++ (entries ++ after))
    (hdir : r.currentDir.names = dirToMolest ++ path) (hdepth : r.currentDepthHack = path.length)
    (h : Loaded o e dirToMolest before listed r.s) :
    ∃ r', Script.perform e.readToken tokens r = (r', true) ∧
      r'.currentDir.names = dirToMolest ++ path ∧ r'.currentDepthHack = path.length ∧
      Loaded o e dirToMolest before (listed ++ entries) r'.s := by
  induction hlisting generalizing listed after r with
  | nil => exact ⟨r, rfl, hdir, hdepth, by rwa [List.append_nil]⟩
  | skip htoken hrest ih =>
      obtain ⟨r₁, hread, hs, hdir₁, hdepth₁⟩ := readToken_of_isSkipped (e := e) (r := r) htoken
      rw [Script.perform_cons_of_succeeds (by rw [hread]), hread]
      exact ih hentries (by rw [hdir₁, hdir]) (by rw [hdepth₁, hdepth]) (by rwa [hs])
  | @file path attributes name t tokens entries hattributes hrest ih =>
      rw [List.cons_append] at hentries
      obtain ⟨r₁, hread, hdir₁, hdepth₁, h₁⟩ := readToken_file hattributes hentries hdir h
      obtain ⟨r', hrun, hdir', hdepth', h'⟩ :=
        ih (by rw [hentries, List.append_assoc, List.singleton_append]) (by rw [hdir₁, hdir])
          (by rw [hdepth₁, hdepth]) h₁
      rw [Script.perform_cons_of_succeeds (by rw [hread]), hread]
      rw [List.append_assoc, List.singleton_append] at h'
      exact ⟨r', hrun, hdir', hdepth', h'⟩
  | @directory path attributes name t inside tokens within entries hattributes hinside hrest
      ihInside ihRest =>
      rw [List.cons_append, List.append_assoc] at hentries
      have hdeep : path.length + 1 < 2 ^ 32 := by
        have hdeep := hdepths (path ++ [name], ⟨true, t⟩)
          (hentries ▸ List.mem_append_right _ List.mem_cons_self)
        rwa [List.length_append, List.length_singleton] at hdeep
      obtain ⟨r₁, hread₁, hdir₁, hdepth₁, h₁⟩ :=
        readToken_directory hroot hfits hattributes hentries hdir hdepth hdeep h
      have hentries₁ : o.entries =
          (listed ++ [(path ++ [name], ⟨true, t⟩)]) ++ (within ++ (entries ++ after)) := by
        rw [hentries, List.append_assoc, List.singleton_append]
      obtain ⟨r₂, hrun₂, hdir₂, hdepth₂, h₂⟩ := ihInside hentries₁ hdir₁ hdepth₁ h₁
      obtain ⟨r₃, hread₃, hdir₃, hdepth₃, hs₃⟩ :=
        readToken_endDirectory hroot hentries hdir₂ hdepth₂ h₂
      have hentries₂ : o.entries =
          (listed ++ [(path ++ [name], ⟨true, t⟩)] ++ within) ++ (entries ++ after) := by
        rw [hentries₁]
        exact (List.append_assoc _ _ _).symm
      obtain ⟨r', hrun, hdir', hdepth', h'⟩ := ihRest hentries₂ hdir₃ hdepth₃ (by rwa [hs₃])
      refine ⟨r', ?_, hdir', hdepth', ?_⟩
      · rw [Script.perform_cons_of_succeeds (by rw [hread₁]), hread₁,
          Script.perform_append_of_succeeds (by rw [hrun₂]), hrun₂,
          Script.perform_cons_of_succeeds (by rw [hread₃]), hread₃, hrun]
      · rwa [List.append_assoc, List.append_assoc, List.singleton_append] at h'

/-! ## Loading -/

/-- The tables are cleared. -/
def cleared (s : Molestation) : Molestation :=
  { s with molester := { s.molester with files := ∅, folders := ∅ } }

lemma doSharedInitBetweenXmlAndEasyTree_eq (text : Text) (h : s.tree.IsDir (e.dirToMolest dir)) :
    e.doSharedInitBetweenXmlAndEasyTree dir (.readable text) s = (cleared s, some text) := by
  have hexists : e.exists_ (cleared s).tree (Autobackup.appendSlashIfNeeded dir) = true :=
    exists_of_isDir h
  rw [doSharedInitBetweenXmlAndEasyTree, ← cleared, hexists]
  simp only [Bool.not_true, Bool.false_eq_true, if_false]
  exact if_neg (not_not_intro h)

lemma loaded_cleared : Loaded o e dirToMolest s.tree [] (cleared s) where
  mem := fun _ hentry => absurd hentry List.not_mem_nil
  files := HasListed.nil
  folders := HasListed.nil
  isDir := fun _ hentry => absurd hentry List.not_mem_nil
  kinds := fun _ _ => rfl
  others := fun _ _ _ => rfl

/-- **An easy tree is loaded.** -/
lemma loadFromEasyTreeFile_spec {text : Text}
    (hroot : ∀ path, path <+: e.dirToMolest dir → s.tree.IsDir path)
    (hfits : Fits o (e.dirToMolest dir) s.tree)
    (hlines : List.Forall₂ (IsLine creation)
      ((linesOf (readAsText text)).filter fun currentLine => trimmed currentLine ≠ []) o.entries) :
    ∃ s', e.loadFromEasyTreeFile dir (.readable text) creation s = some (s', true) ∧
      Loaded o e (e.dirToMolest dir) s.tree o.entries s' := by
  have hstart : Loaded o e (e.dirToMolest dir) s.tree []
      (cleared (s.d "Beginning trying to read Easy Tree timestamp file".toList)) :=
    loaded_cleared (s := s.d "Beginning trying to read Easy Tree timestamp file".toList)
  obtain ⟨s', hload, hloaded⟩ := loadLines_spec hstart hroot hfits rfl hlines
  have hinit := doSharedInitBetweenXmlAndEasyTree_eq (e := e)
    (s := s.d "Beginning trying to read Easy Tree timestamp file".toList) text
    (hroot _ List.prefix_rfl)
  rw [loadFromEasyTreeFile]
  simp only [hinit, Option.getD_some, hload]
  exact ⟨_, rfl, hloaded.d _⟩

/-- **What `tree -X` has written is loaded.** -/
lemma loadFromXml_spec {text : Text}
    (hroot : ∀ path, path <+: e.dirToMolest dir → s.tree.IsDir path)
    (hfits : Fits o (e.dirToMolest dir) s.tree) (hxml : IsTreeXml o (e.xml text)) :
    ∃ s', e.loadFromXml dir (.readable text) s = (s', true) ∧
      Loaded o e (e.dirToMolest dir) s.tree o.entries s' := by
  obtain ⟨front, attributes, inside, rest, htokens, hdot, hlisting, hfront, hrest⟩ := hxml.tokens
  have hstart : Loaded o e (e.dirToMolest dir) s.tree []
      ((cleared s).d "Beginning trying to read XML timestamp file".toList) := loaded_cleared.d _
  obtain ⟨r₁, hrun₁, hs₁, hdir₁, hdepth₁⟩ := perform_skipped (e := e)
    (r := e.startReading dir ((cleared s).d "Beginning trying to read XML timestamp file".toList))
    hfront
  -- The directory `.` is the one that the program is in.
  obtain ⟨r₂, hread, hs₂, hdir₂, hdepth₂⟩ : ∃ r₂,
      e.readToken (.startElement "directory".toList attributes) r₁ = (r₂, true) ∧
        r₂.s = r₁.s ∧ r₂.currentDir = r₁.currentDir ∧
        r₂.currentDepthHack = r₁.currentDepthHack := by
    rw [readToken, if_pos rfl, readDirectory, readAttributes, hdot, Option.getD_some, if_pos rfl]
    exact ⟨_, rfl, rfl, rfl, rfl⟩
  obtain ⟨r₃, hrun₃, hdir₃, hdepth₃, h₃⟩ := perform_readToken hroot hfits hxml.depth hlisting
    (List.append_nil o.entries).symm
    (by rw [hdir₂, hdir₁, List.append_nil]; rfl)
    (hdepth₂.trans hdepth₁) (by rw [hs₂, hs₁]; exact hstart)
  have hleave : e.readToken (.endElement "directory".toList) r₃ = (r₃, true) := by
    rw [readToken, if_pos rfl, leaveDirectory, if_neg (by rw [hdepth₃]; decide)]
  obtain ⟨r', hrun', hs', -, -⟩ := perform_skipped (e := e) (r := r₃) hrest
  have hrun : Script.perform e.readToken (e.xml text).tokens
      (e.startReading dir ((cleared s).d "Beginning trying to read XML timestamp file".toList)) =
        (r', true) := by
    rw [htokens, Script.perform_append_of_succeeds (by rw [hrun₁]), hrun₁,
      Script.perform_cons_of_succeeds (by rw [hread]), hread,
      Script.perform_append_of_succeeds (by rw [hrun₃]), hrun₃,
      Script.perform_cons_of_succeeds (by rw [hleave]), hleave, hrun']
  rw [loadFromXml, doSharedInitBetweenXmlAndEasyTree_eq text (hroot _ List.prefix_rfl)]
  simp only [hrun, hxml.error]
  refine ⟨_, rfl, ?_⟩
  rw [hs']
  exact h₃.d _

end Environment

end Autobackup.HeirarchyMolester
