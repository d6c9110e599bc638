import Autobackup.HeirarchyMolester.TouchedTables
import Autobackup.LastModifiedTimestampsTools.RestoredTimes

/-!
# Tables that were loaded

A hierarchy is listed in a timestamp file: in the lines of an easy tree, which are read one by one,
or in the elements that `tree -X` writes, where a directory is around what is in it and a path has
to be put together from the way there.  Both are read to the same end.  For an entry that is listed
there is one in the table of the files or in that of the folders, whose path leads to it, and the
directories that git missed are made (`Loaded`).  As a directory comes before what is in it, no
other one is made on the way.

A name is read from the element that it belongs to, so nothing is said here about an element
without a name, for which the program goes on with the name of an earlier one.
-/

namespace Autobackup.HeirarchyMolester

open QString AbsolutePath Filesystem LastModifiedTimestampsTools TimedTree Molestation

/-! ## Formats -/

/-- Behind a directory there is a slash. -/
def relativeFilePath (entry : Path × TimedEntry) : Text :=
  (joinNames entry.1).drop 1 ++ if entry.2.isDirectory then ['/'] else []

/-- Which field behind the path has the time: before it there is the size of a file, and the
creation date if the lines have one. -/
def timeIndex (easyTreeLinesHaveCreationDate isDirectory : Bool) : ℕ :=
  (if isDirectory then 0 else 1) + if easyTreeLinesHaveCreationDate then 1 else 0

/-- The line of an entry in an easy tree. -/
def IsLine (easyTreeLinesHaveCreationDate : Bool) (currentLine : Text) (entry : Path × TimedEntry) :
    Prop :=
  ∃ fields, splitAtColons currentLine = relativeFilePath entry :: fields ∧
    fields[timeIndex easyTreeLinesHaveCreationDate entry.2.isDirectory]? =
      some (number entry.2.lastModified)

/-- As `EasyTree` writes it: the colons of the path are escaped, and the fields have none. -/
lemma isLine_lineWith {easyTreeLinesHaveCreationDate : Bool} {entry : Path × TimedEntry}
    {fields : List Text} (hne : relativeFilePath entry ≠ [])
    (hback : PathComesBack (relativeFilePath entry)) (hfields : ∀ field ∈ fields, IsPlain field)
    (htime : fields[timeIndex easyTreeLinesHaveCreationDate entry.2.isDirectory]? =
      some (number entry.2.lastModified)) :
    IsLine easyTreeLinesHaveCreationDate (lineWith (relativeFilePath entry) fields) entry := by
  refine ⟨fields, ?_, htime⟩
  rw [splitAtColons_lineWith hne hback.1 hfields, restored_eq_iff.2 hback.2]

/-- Neither the start of a directory or a file, nor the end of a directory. -/
def XmlToken.IsSkipped : XmlToken → Prop
  | .startElement name _ => name ≠ "directory".toList ∧ name ≠ "file".toList
  | .endElement name => name ≠ "directory".toList
  | .other => True

instance : DecidablePred XmlToken.IsSkipped
  | .startElement _ _ => inferInstanceAs (Decidable (_ ∧ _))
  | .endElement _ => inferInstanceAs (Decidable (_ ≠ _))
  | .other => inferInstanceAs (Decidable True)

/-- The attributes with which the element of an entry starts. -/
def AreAttributes (attributes : List (Text × Text)) (name : Text) (lastModified : ℤ) : Prop :=
  attributes.lookup "name".toList = some name ∧
    attributes.lookup "time".toList = some (number lastModified)

/-- What `tree -X` writes of what is in a directory. -/
inductive IsListing : Path → List XmlToken → List (Path × TimedEntry) → Prop
  | nil {path : Path} : IsListing path [] []
  | skip {path : Path} {token : XmlToken} {tokens : List XmlToken}
      {entries : List (Path × TimedEntry)} (htoken : token.IsSkipped)
      (hrest : IsListing path tokens entries) : IsListing path (token :: tokens) entries
  | file {path : Path} {attributes : List (Text × Text)} {name : Text} {s : ℤ}
      {tokens : List XmlToken} {entries : List (Path × TimedEntry)}
      (hattributes : AreAttributes attributes name s) (hrest : IsListing path tokens entries) :
      IsListing path (.startElement "file".toList attributes :: tokens)
        ((path ++ [name], ⟨false, s⟩) :: entries)
  | directory {path : Path} {attributes : List (Text × Text)} {name : Text} {s : ℤ}
      {inside tokens : List XmlToken} {within entries : List (Path × TimedEntry)}
      (hattributes : AreAttributes attributes name s)
      (hinside : IsListing (path ++ [name]) inside within)
      (hrest : IsListing path tokens entries) :
      IsListing path
        (.startElement "directory".toList attributes ::
          (inside ++ .endElement "directory".toList :: tokens))
        ((path ++ [name], ⟨true, s⟩) :: (within ++ entries))

/-- What `tree -X` writes: all is in a directory `.`, and none is deeper than the counter counts. -/
structure IsTreeXml (o : Hierarchy) (document : XmlDocument) : Prop where
  error : document.error = none
  tokens : ∃ before attributes inside after,
    document.tokens = before ++ .startElement "directory".toList attributes ::
      (inside ++ .endElement "directory".toList :: after) ∧
    attributes.lookup "name".toList = some ['.'] ∧ IsListing [] inside o.entries ∧
    (∀ token ∈ before, token.IsSkipped) ∧ ∀ token ∈ after, token.IsSkipped
  depth : ∀ entry ∈ o.entries, entry.1.length < 2 ^ 32

/-- The hierarchy is listed in the text, in one of the formats. -/
inductive IsListed (o : Hierarchy) (e : Environment) (text : Text) : Bool → Bool → Prop
  | easyTree {easyTreeLinesHaveCreationDate : Bool}
      (h : List.Forall₂ (IsLine easyTreeLinesHaveCreationDate)
        ((linesOf (readAsText text)).filter fun currentLine => trimmed currentLine ≠ [])
        o.entries) : IsListed o e text easyTreeLinesHaveCreationDate false
  | xml (h : IsTreeXml o (e.xml text)) : IsListed o e text false true

/-! ## A table -/

section Tables

variable (e : Environment) (dirToMolest : Path)

/-- The table has the entries of one kind that were listed so far. -/
structure HasListed (isDirectory : Bool) (listed : List (Path × TimedEntry))
    (table : TimestampTable) : Prop where
  entries : table.entries.map (fun x => (e.resolve x.1, x.2)) =
    ((listed.filter (·.2.isDirectory = isDirectory)).map fun entry =>
      (dirToMolest ++ entry.1, entry.2.lastModified * 1000)).reverse
  slash : ∀ x ∈ table.entries, detectIfFilePathIsDirectory x.1 = isDirectory

variable {e dirToMolest} {isDirectory : Bool} {listed : List (Path × TimedEntry)}
  {table : TimestampTable} {entry : Path × TimedEntry} {key : Text} {x : TableEntry}

lemma HasListed.nil : HasListed e dirToMolest isDirectory [] ∅ where
  entries := rfl
  slash := fun _ hx => absurd hx List.not_mem_nil

/-- Every entry of the table is from the list. -/
lemma HasListed.of_mem_table (h : HasListed e dirToMolest isDirectory listed table)
    (hx : x ∈ table.entries) :
    ∃ entry ∈ listed, entry.2.isDirectory = isDirectory ∧
      e.resolve x.1 = dirToMolest ++ entry.1 ∧ x.2 = entry.2.lastModified * 1000 := by
  have hmem := List.mem_map_of_mem (f := fun x : TableEntry => (e.resolve x.1, x.2)) hx
  rw [h.entries, List.mem_reverse] at hmem
  obtain ⟨entry, hentry, heq⟩ := List.mem_map.1 hmem
  obtain ⟨hentry, hkind⟩ := List.mem_filter.1 hentry
  obtain ⟨hpath, htime⟩ := Prod.mk.inj heq
  exact ⟨entry, hentry, of_decide_eq_true hkind, hpath.symm, htime.symm⟩

/-- Every entry of the list is in the table. -/
lemma HasListed.of_mem_listed (h : HasListed e dirToMolest isDirectory listed table)
    (hentry : entry ∈ listed) (hkind : entry.2.isDirectory = isDirectory) :
    ∃ x ∈ table.entries, e.resolve x.1 = dirToMolest ++ entry.1 ∧
      x.2 = entry.2.lastModified * 1000 := by
  have hmem : (dirToMolest ++ entry.1, entry.2.lastModified * 1000) ∈
      table.entries.map fun x => (e.resolve x.1, x.2) := by
    rw [h.entries, List.mem_reverse]
    exact List.mem_map_of_mem (f := fun entry : Path × TimedEntry =>
      (dirToMolest ++ entry.1, entry.2.lastModified * 1000))
      (List.mem_filter.2 ⟨hentry, decide_eq_true hkind⟩)
  obtain ⟨x, hx, heq⟩ := List.mem_map.1 hmem
  exact ⟨x, hx, Prod.mk.inj heq⟩

lemma HasListed.concat_of_ne (h : HasListed e dirToMolest isDirectory listed table)
    (hkind : entry.2.isDirectory ≠ isDirectory) :
    HasListed e dirToMolest isDirectory (listed ++ [entry]) table where
  entries := by
    have hfilter : [entry].filter (·.2.isDirectory = isDirectory) = [] :=
      List.filter_eq_nil_iff.2 fun other hother =>
        List.mem_singleton.1 hother ▸ by simpa using hkind
    rw [List.filter_append, hfilter, List.append_nil]
    exact h.entries
  slash := h.slash

/-- A path that leads to an entry that was not listed so far is not in the table. -/
lemma HasListed.insert (h : HasListed e dirToMolest isDirectory listed table)
    (hkind : entry.2.isDirectory = isDirectory) (hnew : ∀ earlier ∈ listed, earlier.1 ≠ entry.1)
    (hkey : e.resolve key = dirToMolest ++ entry.1)
    (hslash : detectIfFilePathIsDirectory key = isDirectory) :
    HasListed e dirToMolest isDirectory (listed ++ [entry])
      (table.insert key (entry.2.lastModified * 1000)) := by
  have hnot : key ∉ table := fun hmem => by
    obtain ⟨⟨key', t⟩, hx, rfl⟩ := List.mem_map.1 (AList.mem_keys.1 hmem)
    obtain ⟨earlier, hearlier, -, hpath, -⟩ := h.of_mem_table hx
    exact hnew earlier hearlier (List.append_cancel_left (hpath.symm.trans hkey))
  have hentries : (table.insert key (entry.2.lastModified * 1000)).entries =
      ⟨key, entry.2.lastModified * 1000⟩ :: table.entries := AList.entries_insert_of_notMem hnot
  constructor
  · have hfilter : [entry].filter (·.2.isDirectory = isDirectory) = [entry] := by
      rw [List.filter_singleton, hkind, decide_eq_true rfl]
      rfl
    rw [hentries, List.map_cons, hkey, h.entries, List.filter_append, hfilter, List.map_append,
      List.reverse_append]
    rfl
  · rw [hentries]
    intro x hx
    rcases List.mem_cons.1 hx with rfl | hx
    · exact hslash
    · exact h.slash x hx

end Tables

/-! ## What was read so far -/

/-- The entries that were listed so far are in the tables, and their directories are there.  No
other path was changed, but for the time of `dirToMolest`. -/
structure Loaded (o : Hierarchy) (e : Environment) (dirToMolest : Path) (before : Tree)
    (listed : List (Path × TimedEntry)) (s : Molestation) : Prop where
  mem : ∀ entry ∈ listed, entry ∈ o.entries
  files : HasListed e dirToMolest false listed s.molester.files
  folders : HasListed e dirToMolest true listed s.molester.folders
  isDir : ∀ entry ∈ listed, entry.2.isDirectory = true → s.tree.IsDir (dirToMolest ++ entry.1)
  kinds : ∀ path, (∀ entry ∈ listed, entry.2.isDirectory = true → path ≠ dirToMolest ++ entry.1) →
    (s.tree path).map TimedEntry.isDirectory = (before path).map TimedEntry.isDirectory
  others : ∀ path, path ≠ dirToMolest → (∀ entry ∈ o.entries, path ≠ dirToMolest ++ entry.1) →
    s.tree path = before path

/-- What is there of the entries is of the right kind. -/
def Fits (o : Hierarchy) (dirToMolest : Path) (tree : Tree) : Prop :=
  ∀ entry ∈ o.entries, ∀ found, tree (dirToMolest ++ entry.1) = some found →
    found.isDirectory = entry.2.isDirectory

section Directories

variable {o : Hierarchy} {dirToMolest path : Path} {entry : Path × TimedEntry}

/-- The directory that an entry is in is listed too, or it is the one to be molested. -/
lemma ne_dropLast (hentry : entry ∈ o.entries) (hpath : path ≠ dirToMolest)
    (hothers : ∀ other ∈ o.entries, path ≠ dirToMolest ++ other.1) :
    path ≠ (dirToMolest ++ entry.1).dropLast := fun heq => by
  have hname := (o.isName entry hentry).1
  rw [List.dropLast_append_of_ne_nil hname] at heq
  by_cases hnil : entry.1.dropLast = []
  · rw [hnil, List.append_nil] at heq
    exact hpath heq
  · obtain ⟨earlier, after, hentries⟩ := List.append_of_mem hentry
    obtain ⟨t, hmem⟩ := o.directories earlier entry after hentries _
      (List.dropLast_prefix entry.1) hnil fun heq => by
        have hlength := congrArg List.length heq
        rw [List.length_dropLast] at hlength
        exact hname (List.length_eq_zero_iff.1 (by omega))
    exact hothers _ (hentries ▸ List.mem_append_left _ hmem) heq

end Directories

namespace Loaded

variable {o : Hierarchy} {e : Environment} {dirToMolest : Path} {before tree : Tree}
  {listed after : List (Path × TimedEntry)} {s : Molestation} {entry : Path × TimedEntry}
  {key : Text}

lemma d (h : Loaded o e dirToMolest before listed s) (message : Text) :
    Loaded o e dirToMolest before listed (s.d message) :=
  ⟨h.mem, h.files, h.folders, h.isDir, h.kinds, h.others⟩

lemma fst_ne (hentries : o.entries = listed ++ entry :: after) :
    ∀ earlier ∈ listed, earlier.1 ≠ entry.1 := fun _ hearlier =>
  Hierarchy.fst_ne_of_mem_before hentries hearlier

lemma isDir_of_isPrefix (h : Loaded o e dirToMolest before listed s)
    (hroot : ∀ path, path <+: dirToMolest → before.IsDir path) {path : Path}
    (hpath : path <+: dirToMolest) : s.tree.IsDir path := by
  refine (h.kinds path fun other hother _ heq => ?_).trans (hroot path hpath)
  have hlength := hpath.length_le
  rw [heq, List.length_append] at hlength
  exact (o.isName other (h.mem other hother)).1 (List.length_eq_zero_iff.1 (by omega))

/-- What an entry is in is there, as that comes before it. -/
lemma isDir_above (h : Loaded o e dirToMolest before listed s)
    (hroot : ∀ path, path <+: dirToMolest → before.IsDir path)
    {earlier : List (Path × TimedEntry)} (hentries : o.entries = earlier ++ entry :: after)
    (hearlier : ∀ other ∈ earlier, other ∈ listed) {path : Path}
    (hpath : path <+: dirToMolest ++ entry.1) (hne : path ≠ dirToMolest ++ entry.1) :
    s.tree.IsDir path := by
  rcases List.prefix_or_prefix_of_prefix hpath (List.prefix_append _ _) with habove | ⟨rest, rfl⟩
  · exact h.isDir_of_isPrefix hroot habove
  · by_cases hnil : rest = []
    · rw [hnil, List.append_nil]
      exact h.isDir_of_isPrefix hroot List.prefix_rfl
    · rw [List.prefix_append_right_inj] at hpath
      obtain ⟨t, hmem⟩ := o.directories earlier entry after hentries rest hpath hnil
        fun heq => hne (heq ▸ rfl)
      exact h.isDir _ (hearlier _ hmem) rfl

lemma mem_concat (h : Loaded o e dirToMolest before listed s)
    (hentries : o.entries = listed ++ entry :: after) :
    ∀ other ∈ listed ++ [entry], other ∈ o.entries := fun other hother => by
  rcases List.mem_append.1 hother with hother | hother
  · exact h.mem other hother
  · rw [List.mem_singleton.1 hother, hentries]
    exact List.mem_append_right _ List.mem_cons_self

/-- **A file is read.** -/
lemma insertFile (h : Loaded o e dirToMolest before listed s)
    (hentries : o.entries = listed ++ entry :: after) (hfile : entry.2.isDirectory = false)
    (hkey : e.resolve key = dirToMolest ++ entry.1)
    (hslash : detectIfFilePathIsDirectory key = false) :
    Loaded o e dirToMolest before (listed ++ [entry])
      (s.insertFile key (entry.2.lastModified * 1000)) where
  mem := h.mem_concat hentries
  files := h.files.insert hfile (fst_ne hentries) hkey hslash
  folders := h.folders.concat_of_ne (by rw [hfile]; decide)
  isDir := fun other hother hdirectory => by
    rcases List.mem_append.1 hother with hother | hother
    · exact h.isDir other hother hdirectory
    · rw [List.mem_singleton.1 hother, hfile] at hdirectory
      exact absurd hdirectory Bool.false_ne_true
  kinds := fun path hpath => h.kinds path fun other hother =>
    hpath other (List.mem_append_left _ hother)
  others := h.others

/-- Where a directory is to be made, nothing is there or the directory itself. -/
lemma none_or_isDir (h : Loaded o e dirToMolest before listed s) (hfits : Fits o dirToMolest before)
    (hentries : o.entries = listed ++ entry :: after) (hdirectory : entry.2.isDirectory = true) :
    s.tree (dirToMolest ++ entry.1) = none ∨ s.tree.IsDir (dirToMolest ++ entry.1) := by
  have hkind := h.kinds (dirToMolest ++ entry.1) fun earlier hearlier _ heq =>
    fst_ne hentries earlier hearlier (List.append_cancel_left heq).symm
  cases hfound : before (dirToMolest ++ entry.1) with
  | none => exact .inl (Option.map_eq_none_iff.1 (hkind.trans (by rw [hfound]; rfl)))
  | some found =>
      have hfit := hfits entry (hentries ▸ List.mem_append_right _ List.mem_cons_self) found hfound
      refine .inr (hkind.trans ?_)
      rw [hfound, Option.map_some, hfit, hdirectory]

/-- **A directory is read,** which is made if it is missing. -/
lemma insertFolder (h : Loaded o e dirToMolest before listed s)
    (hfits : Fits o dirToMolest before) (hentries : o.entries = listed ++ entry :: after)
    (hdirectory : entry.2.isDirectory = true) (hkey : e.resolve key = dirToMolest ++ entry.1)
    (hslash : detectIfFilePathIsDirectory key = true) :
    ∃ tree, s.tree.mkdir e.now (dirToMolest ++ entry.1) = some tree ∧
      tree.IsDir (dirToMolest ++ entry.1) ∧
      Loaded o e dirToMolest before (listed ++ [entry])
        (({ s with tree := tree } : Molestation).insertFolder key
          (entry.2.lastModified * 1000)) := by
  have hentry : entry ∈ o.entries := hentries ▸ List.mem_append_right _ List.mem_cons_self
  obtain ⟨tree, hmkdir, hself, hupdate⟩ := exists_mkdir e.now
    (h.none_or_isDir hfits hentries hdirectory)
  refine ⟨tree, hmkdir, hself, h.mem_concat hentries,
    h.files.concat_of_ne (by rw [hdirectory]; decide),
    h.folders.insert hdirectory (fst_ne hentries) hkey hslash,
    fun other hother hkind => ?_, fun path hpath => ?_, fun path hpath hothers => ?_⟩
  · rcases List.mem_append.1 hother with hother | hother
    · have hne : dirToMolest ++ other.1 ≠ dirToMolest ++ entry.1 := fun heq =>
        fst_ne hentries other hother (List.append_cancel_left heq)
      exact (hupdate.isDir hne).2 (h.isDir other hother hkind)
    · rw [List.mem_singleton.1 hother]
      exact hself
  · have hne := hpath entry (List.mem_append_right _ (List.mem_singleton_self entry)) hdirectory
    exact (hupdate.kinds path hne).trans
      (h.kinds path fun other hother => hpath other (List.mem_append_left _ hother))
  · have hparent := ne_dropLast hentry hpath hothers
    exact (hupdate.others path (hothers entry hentry) hparent).trans (h.others path hpath hothers)

end Loaded

end Autobackup.HeirarchyMolester
