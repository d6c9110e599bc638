import Autobackup.Filesystem.EasyTree
import Autobackup.Foundation.DirectoryTree
import Autobackup.Foundation.Escaping
import Autobackup.Foundation.TextLines

/-!
# The text of an easy tree

`generateTreeText` goes through a directory and recurses into the directories in it.  The current
entry and the current directory are members, which the recursion overwrites; only the list of the
entries is kept while it runs.

Colons are the only thing that is escaped, so that a name with a newline gives two lines.

The recursion has fuel for the depth of the directory, and more than that changes nothing.  Special
files, unreadable directories and symbolic links are left out, and so is the codec of the text.
-/

namespace Autobackup.Filesystem

open QString DirectoryTree

structure QFileInfo where
  info : FileInfo
  isDir : Bool

/-- What `QDir` tells: the entries of a directory without symbolic links, directories first and then
by name, and whether a path is one of a directory. -/
structure Disk where
  entryInfoList : Text → List QFileInfo
  isDirectory : Text → Bool

structure TreeArguments where
  calculateMd5Sums : CalculateMd5Enum
  dirNamesToIgnore : List Text
  fileNamesToIgnore : List Text
  fileNamesEndWithIgnoreList : List Text
  dirNamesEndWithIgnoreList : List Text
  lastModifiedTimestampsFormat : LastModifiedTimestampsFormat

/-- The members, with what was written to the device. -/
structure EasyTree where
  dirWeAreTreeing : Text
  dirWeAreTreeingChopLength : ℕ
  dir : Text
  currentFileInfo : QFileInfo
  treeText : Text

/-- `QString::endsWith` -/
def endsWith (text back : Text) : Bool := back.isSuffixOf text

/-- `QString::startsWith` -/
def startsWith (text front : Text) : Bool := front.isPrefixOf text

def autogeneratedrpccodefor : Text := "autogeneratedrpccodefor".toList

def FileInfo.currentFilenameOnly (info : FileInfo) : Text :=
  ((splitSkippingEmptyParts '/' info.canonicalFilePath).getLast?).getD []

namespace EasyTree

variable (disk : Disk) (args : TreeArguments) (st : EasyTree)

def addDirEntry : EasyTree :=
  { st with
    treeText := st.treeText ++ (Filesystem.addDirEntry st.dirWeAreTreeingChopLength
      args.lastModifiedTimestampsFormat st.currentFileInfo.info ++ ['\n']) }

def addFileEntry : EasyTree :=
  { st with
    treeText := st.treeText ++ (Filesystem.addFileEntry st.dirWeAreTreeingChopLength
      args.lastModifiedTimestampsFormat args.calculateMd5Sums st.currentFileInfo.info ++
        ['\n']) }

def weDontWantToSkipCurrentFileInfo : Bool :=
  let currentFilenameOnly := st.currentFileInfo.info.currentFilenameOnly
  if args.fileNamesToIgnore.any (currentFilenameOnly == ·) then false
  else if args.fileNamesEndWithIgnoreList.any (endsWith currentFilenameOnly) then false
  else true

def weDontWantToSkipCurrentDirInfo : Bool :=
  let currentFilenameOnly := st.currentFileInfo.info.currentFilenameOnly
  if args.dirNamesToIgnore.any (currentFilenameOnly == ·) then false
  else if startsWith currentFilenameOnly autogeneratedrpccodefor then false
  else if args.dirNamesEndWithIgnoreList.any (endsWith currentFilenameOnly) then false
  else true

/-- One turn of the loop. -/
def insertFileInfo (recurse : Text → EasyTree → Option EasyTree) (st : EasyTree)
    (info : QFileInfo) : Option EasyTree :=
  let st := { st with currentFileInfo := info }
  if st.currentFileInfo.isDir then
    if st.weDontWantToSkipCurrentDirInfo args then
      let st := st.addDirEntry args
      recurse st.currentFileInfo.info.canonicalFilePath st
    else some st
  else if st.weDontWantToSkipCurrentFileInfo args then some (st.addFileEntry args)
  else some st

/-- The fuel is how deep it may recurse. -/
def insertAllFileAndDirInfoIntoTreeTextRecursingIntoDirs :
    ℕ → Text → EasyTree → Option EasyTree
  | 0, _, _ => none
  | fuel + 1, absoluteDirString, st =>
      let st := { st with dir := absoluteDirString }
      (disk.entryInfoList st.dir).foldlM
        (insertFileInfo args (insertAllFileAndDirInfoIntoTreeTextRecursingIntoDirs fuel)) st

def generateTreeText (fuel : ℕ) (absoluteDirString : Text) : Option EasyTree :=
  let dirWeAreTreeing :=
    if endsWith absoluteDirString ['/'] then absoluteDirString else absoluteDirString ++ ['/']
  let st := { st with
    dirWeAreTreeing := dirWeAreTreeing
    dirWeAreTreeingChopLength := dirWeAreTreeing.length
    treeText := [] }
  if disk.isDirectory st.dirWeAreTreeing then
    insertAllFileAndDirInfoIntoTreeTextRecursingIntoDirs disk args fuel st.dirWeAreTreeing st
  else some st

end EasyTree

/-! ## What it is for -/

namespace TreeArguments

variable (args : TreeArguments)

def ignoresFile (name : Text) : Bool :=
  args.fileNamesToIgnore.contains name ||
    args.fileNamesEndWithIgnoreList.any fun back => back.isSuffixOf name

def ignoresDirectory (name : Text) : Bool :=
  args.dirNamesToIgnore.contains name || autogeneratedrpccodefor.isPrefixOf name ||
    args.dirNamesEndWithIgnoreList.any fun back => back.isSuffixOf name

end TreeArguments

/-- A directory with what is in it, in the order of its lists of entries. -/
structure TreedDirectory where
  /-- The canonical path, with a slash at its end. -/
  folder : Text
  entries : List (Entry Unit)
  info : Text → FileInfo
  folder_slash : ∃ front, folder = front ++ ['/']
  wellFormed : WellFormed entries
  name_ne_nil : ∀ listed ∈ listing [] entries, listed.name ≠ []
  canonicalFilePath_info : ∀ path, (info path).canonicalFilePath = path

/-- What the entry list of a directory says of an entry. -/
def infoOf (info : Text → FileInfo) (folder : Text) (entry : Entry Unit) : QFileInfo :=
  ⟨info (folder ++ entry.name), entry.isDirectory⟩

mutual

/-- The disk has what is below the entry. -/
def EntryIsOn (disk : Disk) (info : Text → FileInfo) (folder : Text) : Entry Unit → Prop
  | .file _ _ => True
  | .directory name entries =>
      disk.entryInfoList (folder ++ name) =
          entries.map (infoOf info (folder ++ name ++ ['/'])) ∧
        EntriesAreOn disk info (folder ++ name ++ ['/']) entries

def EntriesAreOn (disk : Disk) (info : Text → FileInfo) (folder : Text) :
    List (Entry Unit) → Prop
  | [] => True
  | entry :: rest => EntryIsOn disk info folder entry ∧ EntriesAreOn disk info folder rest

end

namespace TreedDirectory

variable (d : TreedDirectory) (args : TreeArguments)

structure IsOn (disk : Disk) : Prop where
  isDirectory : disk.isDirectory d.folder = true
  entryInfoList : disk.entryInfoList d.folder = d.entries.map (infoOf d.info d.folder)
  below : EntriesAreOn disk d.info d.folder d.entries

/-- The line of an entry, with its path in the directory that is treed. -/
def lineOf (listed : Listed Unit) : Text :=
  let info := { d.info (d.folder ++ listed.path) with canonicalFilePath := listed.path }
  match listed.content with
  | none => addDirEntry 0 args.lastModifiedTimestampsFormat info
  | some _ => addFileEntry 0 args.lastModifiedTimestampsFormat args.calculateMd5Sums info

def IsWanted (listed : Listed Unit) : Prop :=
  listed.IsWanted args.ignoresFile args.ignoresDirectory []

/-- **Each wanted entry has one line**, and what is in a directory stands behind the directory. -/
def ListsWantedOnce (treeText : Text) : Prop :=
  ∃ all : List (Listed Unit), linesOf treeText = all.map (d.lineOf args) ∧
    (all.map Listed.path).Nodup ∧
    (∀ listed, listed ∈ all ↔ listed ∈ listing [] d.entries ∧ IsWanted args listed) ∧
    ∀ directory ∈ all, directory.content = none → IsContiguous directory all

/-! ## The recursion -/

variable {d args} {disk : Disk} {st st' st'' : EasyTree} {entry : Entry Unit}
  {entries : List (Entry Unit)} {rel : Text} {lines lines' : List (Listed Unit)}

/-- The lines are written, and what is needed later is not touched. -/
structure Writes (d : TreedDirectory) (args : TreeArguments) (st st' : EasyTree)
    (lines : List (Listed Unit)) : Prop where
  treeText : st'.treeText = st.treeText ++ joinLines (lines.map (d.lineOf args))
  chopLength : st'.dirWeAreTreeingChopLength = st.dirWeAreTreeingChopLength

lemma Writes.trans (h : Writes d args st st' lines) (h' : Writes d args st' st'' lines') :
    Writes d args st st'' (lines ++ lines') := by
  constructor
  · rw [h'.treeText, h.treeText, List.map_append, joinLines_append, List.append_assoc]
  · rw [h'.chopLength, h.chopLength]

lemma relativePath_info (d : TreedDirectory) (path : Text) :
    (d.info (d.folder ++ path)).relativePath d.folder.length = path := by
  rw [FileInfo.relativePath, d.canonicalFilePath_info, List.drop_left]

lemma addDirEntry_eq (d : TreedDirectory) (args : TreeArguments) (name path : Text) :
    Filesystem.addDirEntry d.folder.length args.lastModifiedTimestampsFormat
      (d.info (d.folder ++ path)) = d.lineOf args ⟨name, path, none⟩ := by
  unfold Filesystem.addDirEntry
  rw [relativePath_info]
  rfl

lemma addFileEntry_eq (d : TreedDirectory) (args : TreeArguments) (name path : Text) :
    Filesystem.addFileEntry d.folder.length args.lastModifiedTimestampsFormat
      args.calculateMd5Sums (d.info (d.folder ++ path)) = d.lineOf args ⟨name, path, some ()⟩ := by
  unfold Filesystem.addFileEntry
  rw [relativePath_info]
  rfl

/-- The name of an entry of a directory. -/
lemma currentFilenameOnly_eq {info : FileInfo} {front name : Text}
    (h : info.canonicalFilePath = front ++ '/' :: name) (hname : '/' ∉ name) (hne : name ≠ []) :
    info.currentFilenameOnly = name := by
  have hsingle : [name].filter (· ≠ []) = [name] :=
    List.filter_cons_of_pos (decide_eq_true_iff.2 hne)
  rw [FileInfo.currentFilenameOnly, h, splitSkippingEmptyParts, List.splitOn_append_cons_self,
    List.splitOn_eq_singleton hname, List.filter_append, hsingle, List.getLast?_concat]
  rfl

lemma weDontWantToSkipCurrentFileInfo_eq :
    st.weDontWantToSkipCurrentFileInfo args =
      !args.ignoresFile st.currentFileInfo.info.currentFilenameOnly := by
  have hcases : ∀ named ends : Bool,
      (if named then false else if ends then false else true) = !(named || ends) := by decide
  unfold TreeArguments.ignoresFile
  rw [List.contains_eq_any_beq]
  exact hcases _ _

lemma weDontWantToSkipCurrentDirInfo_eq :
    st.weDontWantToSkipCurrentDirInfo args =
      !args.ignoresDirectory st.currentFileInfo.info.currentFilenameOnly := by
  have hcases : ∀ named starts ends : Bool,
      (if named then false else if starts then false else if ends then false else true) =
        !(named || starts || ends) := by decide
  unfold TreeArguments.ignoresDirectory
  rw [List.contains_eq_any_beq]
  exact hcases _ _ _

/-- The entries of a directory at a path that ends with a slash. -/
structure Below (d : TreedDirectory) (disk : Disk) (rel : Text) (entries : List (Entry Unit)) :
    Prop where
  slash : ∃ front, d.folder ++ rel = front ++ ['/']
  wellFormed : WellFormed entries
  name_ne_nil : ∀ listed ∈ listing rel entries, listed.name ≠ []
  isOn : EntriesAreOn disk d.info (d.folder ++ rel) entries

lemma Below.rest (h : Below d disk rel (entry :: entries)) : Below d disk rel entries := by
  obtain ⟨hslash, hwellFormed, hname, hisOn⟩ := h
  rw [WellFormed] at hwellFormed
  rw [EntriesAreOn] at hisOn
  refine ⟨hslash, hwellFormed.2.2, fun listed hlisted => hname listed ?_, hisOn.2⟩
  rw [listing]
  exact List.mem_append_right _ hlisted

lemma Below.name (h : Below d disk rel (entry :: entries)) :
    '/' ∉ entry.name ∧ entry.name ≠ [] := by
  have hwellFormed := h.wellFormed
  rw [WellFormed] at hwellFormed
  refine ⟨slash_not_mem_name hwellFormed.1, ?_⟩
  have hname := h.name_ne_nil
  rw [listing] at hname
  cases entry with
  | file name content =>
      rw [Entry.listing] at hname
      exact hname _ (List.mem_append_left _ (List.mem_singleton_self _))
  | directory name entries =>
      rw [Entry.listing] at hname
      exact hname _ (List.mem_append_left _ List.mem_cons_self)

/-- The entries of a directory are below it. -/
lemma Below.directory {name : Text} {inside : List (Entry Unit)}
    (h : Below d disk rel (.directory name inside :: entries)) :
    Below d disk (rel ++ name ++ ['/']) inside ∧
      disk.entryInfoList (d.folder ++ (rel ++ name)) =
        inside.map (infoOf d.info (d.folder ++ (rel ++ name ++ ['/']))) := by
  obtain ⟨hslash, hwellFormed, hname, hisOn⟩ := h
  rw [WellFormed, Entry.WellFormed] at hwellFormed
  rw [EntriesAreOn, EntryIsOn] at hisOn
  rw [listing, Entry.listing] at hname
  have hfolder : d.folder ++ rel ++ name ++ ['/'] = d.folder ++ (rel ++ name ++ ['/']) := by
    simp only [List.append_assoc]
  obtain ⟨⟨hlist, hbelow⟩, -⟩ := hisOn
  rw [hfolder] at hlist hbelow
  refine ⟨⟨⟨d.folder ++ (rel ++ name), ?_⟩, hwellFormed.1.2, fun listed hlisted => ?_, hbelow⟩, ?_⟩
  · simp only [List.append_assoc]
  · exact hname listed (List.mem_append_left _ (List.mem_cons_of_mem _ hlisted))
  · rw [← List.append_assoc]
    exact hlist

lemma currentFilenameOnly_infoOf (h : Below d disk rel (entry :: entries)) :
    (d.info (d.folder ++ rel ++ entry.name)).currentFilenameOnly = entry.name := by
  obtain ⟨front, hfront⟩ := h.slash
  obtain ⟨hslash, hne⟩ := h.name
  have hpath : (d.info (d.folder ++ rel ++ entry.name)).canonicalFilePath =
      front ++ '/' :: entry.name := by
    rw [d.canonicalFilePath_info, hfront, List.append_assoc, List.singleton_append]
  exact currentFilenameOnly_eq hpath hslash hne

/-- What the recursion does below a directory, for trees that are not higher than this. -/
def Recurses (d : TreedDirectory) (disk : Disk) (args : TreeArguments) (fuel : ℕ) : Prop :=
  ∀ {entries : List (Entry Unit)} {rel dirString : Text} {st : EasyTree}, height entries < fuel →
    Below d disk rel entries →
      disk.entryInfoList dirString = entries.map (infoOf d.info (d.folder ++ rel)) →
        st.dirWeAreTreeingChopLength = d.folder.length →
          ∃ st', EasyTree.insertAllFileAndDirInfoIntoTreeTextRecursingIntoDirs disk args fuel
              dirString st = some st' ∧
            Writes d args st st'
              (listing rel (prune args.ignoresFile args.ignoresDirectory entries))

/-- **One turn of the loop** writes the lines of one entry. -/
lemma exists_insertFileInfo {fuel : ℕ} (ih : Recurses d disk args fuel)
    (hheight : entry.height < fuel + 1) (h : Below d disk rel (entry :: entries))
    (hchop : st.dirWeAreTreeingChopLength = d.folder.length) :
    ∃ st', EasyTree.insertFileInfo args
        (EasyTree.insertAllFileAndDirInfoIntoTreeTextRecursingIntoDirs disk args fuel) st
        (infoOf d.info (d.folder ++ rel) entry) = some st' ∧
      Writes d args st st'
        (listing rel (entry.prune args.ignoresFile args.ignoresDirectory)) := by
  have hfilename := currentFilenameOnly_infoOf h
  cases entry with
  | file name content =>
      unfold EasyTree.insertFileInfo infoOf Entry.isDirectory
      dsimp only
      rw [if_neg Bool.false_ne_true, weDontWantToSkipCurrentFileInfo_eq]
      dsimp only
      rw [hfilename, Entry.prune, Entry.name]
      cases hignores : args.ignoresFile name with
      | true => exact ⟨_, rfl, (List.append_nil _).symm, rfl⟩
      | false =>
          refine ⟨_, rfl, ?_, rfl⟩
          rw [if_neg Bool.false_ne_true, listing, listing, List.append_nil, Entry.listing]
          unfold EasyTree.addFileEntry
          dsimp only
          rw [hchop, List.append_assoc, addFileEntry_eq d args name, List.map_singleton,
            joinLines_cons, joinLines_nil]
  | directory name inside =>
      obtain ⟨hinside, hlist⟩ := h.directory
      unfold EasyTree.insertFileInfo infoOf Entry.isDirectory
      dsimp only
      rw [if_pos rfl, weDontWantToSkipCurrentDirInfo_eq]
      dsimp only
      rw [hfilename, Entry.prune, Entry.name]
      cases hignores : args.ignoresDirectory name with
      | true => exact ⟨_, rfl, (List.append_nil _).symm, rfl⟩
      | false =>
          rw [if_neg Bool.false_ne_true, listing, listing, List.append_nil, Entry.listing]
          let st₁ := EasyTree.addDirEntry args { st with
            currentFileInfo := ⟨d.info (d.folder ++ rel ++ name), true⟩ }
          have hline : Writes d args st st₁ [⟨name, rel ++ name, none⟩] := by
            refine ⟨?_, rfl⟩
            show st.treeText ++ (Filesystem.addDirEntry st.dirWeAreTreeingChopLength
              args.lastModifiedTimestampsFormat (d.info (d.folder ++ rel ++ name)) ++ ['\n']) = _
            rw [hchop, List.append_assoc, addDirEntry_eq d args name, List.map_singleton,
              joinLines_cons, joinLines_nil]
          have hheight' : height inside < fuel := by
            rw [Entry.height] at hheight
            omega
          obtain ⟨st₂, hst₂, hbelow⟩ := ih hheight' hinside hlist (hline.chopLength.trans hchop)
          refine ⟨st₂, ?_, hline.trans hbelow⟩
          have hpath : st₁.currentFileInfo.info.canonicalFilePath = d.folder ++ (rel ++ name) := by
            show (d.info (d.folder ++ rel ++ name)).canonicalFilePath = _
            rw [d.canonicalFilePath_info, List.append_assoc]
          rw [← hpath] at hst₂
          exact hst₂

/-- **The recursion writes the lines of all wanted entries.** -/
lemma exists_insertAll (fuel : ℕ) : Recurses d disk args fuel := by
  induction fuel with
  | zero => exact fun hheight => absurd hheight (Nat.not_lt_zero _)
  | succ fuel ih =>
      intro entries rel dirString st hheight hbelow hlist hchop
      rw [EasyTree.insertAllFileAndDirInfoIntoTreeTextRecursingIntoDirs]
      dsimp only
      rw [hlist]
      -- the members that the loop overwrites do not matter
      suffices hloop : ∀ st : EasyTree, st.dirWeAreTreeingChopLength = d.folder.length →
          ∃ st', (entries.map (infoOf d.info (d.folder ++ rel))).foldlM
              (EasyTree.insertFileInfo args
                (EasyTree.insertAllFileAndDirInfoIntoTreeTextRecursingIntoDirs disk args fuel)) st =
            some st' ∧ Writes d args st st'
              (listing rel (prune args.ignoresFile args.ignoresDirectory entries)) by
        obtain ⟨st', hst', hwrites⟩ := hloop { st with dir := dirString } hchop
        exact ⟨st', hst', hwrites.treeText, hwrites.chopLength⟩
      clear hlist hchop st dirString
      induction entries with
      | nil =>
          intro st _
          exact ⟨st, rfl, by rw [prune, listing]; exact (List.append_nil _).symm, rfl⟩
      | cons entry rest ihrest =>
          intro st hchop
          rw [height] at hheight
          obtain ⟨st₁, hst₁, hfirst⟩ := exists_insertFileInfo ih
            (lt_of_le_of_lt (le_max_left _ _) hheight) hbelow hchop
          obtain ⟨st₂, hst₂, hrest⟩ := ihrest (lt_of_le_of_lt (le_max_right _ _) hheight)
            hbelow.rest st₁ (hfirst.chopLength.trans hchop)
          refine ⟨st₂, ?_, ?_⟩
          · rw [List.map_cons, List.foldlM_cons, hst₁]
            exact hst₂
          · rw [prune, listing_append]
            exact hfirst.trans hrest

/-! ## The lines -/

/-- Numbers and hashes have no line breaks. -/
lemma not_mem_of_isBreak {c : Char} (hc : c = '\n' ∨ c = '\r') :
    (∀ n, c ∉ number n) ∧ (∀ bytes, c ∉ toHex bytes) ∧ c ∉ colon ∧ c ∉ ['/'] := by
  rcases hc with rfl | rfl
  · exact ⟨fun n => not_mem_number (by decide) (by decide), fun bytes => not_mem_toHex (by decide),
      by decide, by decide⟩
  · exact ⟨fun n => not_mem_number (by decide) (by decide), fun bytes => not_mem_toHex (by decide),
      by decide, by decide⟩

/-- Behind the path stands nothing that a line break could be in. -/
lemma exists_lineOf (d : TreedDirectory) (args : TreeArguments) (listed : Listed Unit) :
    ∃ fields, d.lineOf args listed = replace colon colonEscaped listed.path ++ fields ∧
      fields ≠ [] ∧ ∀ c, c = '\n' ∨ c = '\r' → c ∉ fields := by
  obtain ⟨name, path, content⟩ := listed
  let info := d.info (d.folder ++ path)
  cases content with
  | none =>
      let created := if args.lastModifiedTimestampsFormat =
          .obsoleteEasyTreeTimestampsWithSizeAndCreationDate then
        colon ++ number (info.created.tdiv 1000) else []
      refine ⟨['/'] ++ (created ++ (colon ++ number (info.lastModified.tdiv 1000))), ?_,
        List.cons_ne_nil _ _, fun c hc => ?_⟩
      · show replace colon colonEscaped path ++ ['/'] ++ created ++ colon ++ number _ = _
        simp only [List.append_assoc]
        rfl
      · obtain ⟨hnumber, -, hcolon, hslash⟩ := not_mem_of_isBreak hc
        have hcreated : c ∉ created := by
          dsimp only [created]
          split
          · exact mt List.mem_append.1 (not_or.2 ⟨hcolon, hnumber _⟩)
          · exact List.not_mem_nil
        simp only [List.mem_append, hslash, hcreated, hcolon, hnumber, or_self, not_false_eq_true]
  | some content =>
      let created := if args.lastModifiedTimestampsFormat =
          .obsoleteEasyTreeTimestampsWithSizeAndCreationDate then
        colon ++ number info.size ++ colon ++ number (info.created.tdiv 1000) else []
      obtain ⟨hash, hhash, hline⟩ : ∃ hash : Text, (∀ c, c = '\n' ∨ c = '\r' → c ∉ hash) ∧
          d.lineOf args ⟨name, path, some content⟩ = replace colon colonEscaped path ++ created ++
            colon ++ number (info.lastModified.tdiv 1000) ++ hash := by
        by_cases hcalculate : args.calculateMd5Sums = .doCalculateMd5sums
        · cases hmd5 : info.md5 with
          | none =>
              refine ⟨[], fun c _ => List.not_mem_nil, ?_⟩
              simp only [TreedDirectory.lineOf, addFileEntry, if_pos hcalculate, info, hmd5]
              rfl
          | some hash =>
              refine ⟨colon ++ toHex hash.bytes, fun c hc => ?_, ?_⟩
              · obtain ⟨-, hhex, hcolon, -⟩ := not_mem_of_isBreak hc
                exact mt List.mem_append.1 (not_or.2 ⟨hcolon, hhex _⟩)
              · simp only [TreedDirectory.lineOf, addFileEntry, if_pos hcalculate, info, hmd5]
                rfl
        · refine ⟨[], fun c _ => List.not_mem_nil, ?_⟩
          simp only [TreedDirectory.lineOf, addFileEntry, if_neg hcalculate]
          rfl
      refine ⟨created ++ (colon ++ (number (info.lastModified.tdiv 1000) ++ hash)), ?_,
        List.append_ne_nil_of_right_ne_nil _ (List.cons_ne_nil _ _), fun c hc => ?_⟩
      · rw [hline]
        simp only [List.append_assoc]
      · obtain ⟨hnumber, -, hcolon, -⟩ := not_mem_of_isBreak hc
        have hcreated : c ∉ created := by
          dsimp only [created]
          split
          · simp only [List.mem_append, hcolon, hnumber, or_self, not_false_eq_true]
          · exact List.not_mem_nil
        simp only [List.mem_append, hcreated, hcolon, hnumber, hhash c hc, or_self,
          not_false_eq_true]

/-- A line of an entry whose path has no newline is read as it was written. -/
lemma lineOf_isLine {listed : Listed Unit} (h : '\n' ∉ listed.path) :
    '\n' ∉ d.lineOf args listed ∧ chomp (d.lineOf args listed) = d.lineOf args listed := by
  obtain ⟨fields, hline, hne, hbreaks⟩ := exists_lineOf d args listed
  rw [hline]
  constructor
  · intro hmem
    rcases List.mem_append.1 hmem with hmem | hmem
    · rcases mem_of_mem_replace hmem with hmem | hmem
      · exact absurd hmem (by decide)
      · exact h hmem
    · exact hbreaks _ (Or.inl rfl) hmem
  · apply chomp_eq_self
    rw [List.getLast?_append_of_ne_nil _ hne]
    intro hlast
    exact hbreaks _ (Or.inr rfl) (List.mem_of_getLast? hlast)

/-! ## The whole tree -/

/-- The path that is given is the canonical one, with or without the slash at its end. -/
def IsGivenBy (d : TreedDirectory) (absoluteDirString : Text) : Prop :=
  (if endsWith absoluteDirString ['/'] then absoluteDirString else absoluteDirString ++ ['/']) =
    d.folder

lemma below_entries (h : d.IsOn disk) : Below d disk [] d.entries := by
  obtain ⟨front, hfront⟩ := d.folder_slash
  refine ⟨⟨front, ?_⟩, d.wellFormed, d.name_ne_nil, ?_⟩
  · rw [List.append_nil, hfront]
  · rw [List.append_nil]
    exact h.below

/-- What is written are the lines of the tree without the ignored entries. -/
lemma exists_generateTreeText (args : TreeArguments) (h : d.IsOn disk) {absoluteDirString : Text}
    (hpath : d.IsGivenBy absoluteDirString) (st : EasyTree) {fuel : ℕ}
    (hfuel : height d.entries < fuel) :
    ∃ st', st.generateTreeText disk args fuel absoluteDirString = some st' ∧
      st'.treeText = joinLines ((listing []
        (prune args.ignoresFile args.ignoresDirectory d.entries)).map (d.lineOf args)) := by
  unfold EasyTree.generateTreeText
  rw [hpath]
  dsimp only
  rw [if_pos h.isDirectory]
  have hlist : disk.entryInfoList d.folder =
      d.entries.map (infoOf d.info (d.folder ++ [])) := by
    rw [List.append_nil]
    exact h.entryInfoList
  let st₀ : EasyTree := { st with
    dirWeAreTreeing := d.folder
    dirWeAreTreeingChopLength := d.folder.length
    treeText := [] }
  have hchop : st₀.dirWeAreTreeingChopLength = d.folder.length := rfl
  have hrecurses : d.Recurses disk args fuel := exists_insertAll fuel
  obtain ⟨st', hst', hwrites⟩ := hrecurses hfuel (below_entries h) hlist hchop
  exact ⟨st', hst', hwrites.treeText⟩

/-- **The easy tree lists each wanted entry once**, if no wanted entry has a newline in its path.

The directory is given by any text that `QDir` resolves to it without cutting into the names, and
its entries come in any order.  A newline in a name is by design a name that the format has no line
for. -/
theorem exists_listsWantedOnce (d : TreedDirectory) (args : TreeArguments) (h : d.IsOn disk)
    {absoluteDirString : Text} (hpath : d.IsGivenBy absoluteDirString)
    (hnewline : ∀ listed ∈ listing [] d.entries, IsWanted args listed → '\n' ∉ listed.path)
    (st : EasyTree) {fuel : ℕ} (hfuel : height d.entries < fuel) :
    ∃ st', st.generateTreeText disk args fuel absoluteDirString = some st' ∧
      d.ListsWantedOnce args st'.treeText := by
  obtain ⟨st', hst', htext⟩ := exists_generateTreeText args h hpath st hfuel
  have hwanted : ∀ listed, listed ∈ listing []
      (prune args.ignoresFile args.ignoresDirectory d.entries) ↔
        listed ∈ listing [] d.entries ∧ IsWanted args listed := fun listed =>
    mem_listing_prune [] d.entries d.wellFormed
  have hwellFormed : WellFormed (prune args.ignoresFile args.ignoresDirectory d.entries) :=
    wellFormed_prune d.entries d.wellFormed
  refine ⟨st', hst', _, ?_, nodup_listing [] _ hwellFormed, hwanted, ?_⟩
  · have hlines : ∀ line ∈ (listing []
        (prune args.ignoresFile args.ignoresDirectory d.entries)).map (d.lineOf args),
          '\n' ∉ line ∧ chomp line = line := by
      intro line hline
      obtain ⟨listed, hlisted, rfl⟩ := List.mem_map.1 hline
      obtain ⟨hmem, hwantedListed⟩ := (hwanted listed).1 hlisted
      exact lineOf_isLine (hnewline listed hmem hwantedListed)
    rw [htext, ← List.append_nil (joinLines _),
      linesOf_joinLines_append fun line hline => (hlines line hline).1, linesOf_nil,
      List.append_nil]
    exact List.map_congr_left (fun line hline => (hlines line hline).2) |>.trans (List.map_id _)
  · intro directory hdirectory hnone
    exact isContiguous_of_mem [] _ hwellFormed hdirectory hnone

lemma isLongLong_zero : IsLongLong 0 := by decide

lemma isLongLong_one : IsLongLong 1 := by decide

/-- A file of one byte, from the first second. -/
def infoAt (path : Text) : FileInfo where
  canonicalFilePath := path
  size := 1
  created := 0
  lastModified := 0
  md5 := none
  isLongLong_size := isLongLong_one
  isLongLong_created := isLongLong_zero
  isLongLong_lastModified := isLongLong_zero

/-- A disk with this directory only, and one in it. -/
def diskWith (entries : List (Entry Unit)) (name : Text) (inside : List (Entry Unit)) : Disk where
  entryInfoList path :=
    if path = ['/', 't', '/'] then entries.map (infoOf infoAt ['/', 't', '/'])
    else if path = ['/', 't', '/'] ++ name then
      inside.map (infoOf infoAt (['/', 't', '/'] ++ name ++ ['/']))
    else []
  isDirectory _ := true

def simplified : TreeArguments where
  calculateMd5Sums := .dontCalculateMd5Sums
  dirNamesToIgnore := []
  fileNamesToIgnore := []
  fileNamesEndWithIgnoreList := [['~']]
  dirNamesEndWithIgnoreList := []
  lastModifiedTimestampsFormat := .simplifiedLastModifiedTimestamps

def freshEasyTree : EasyTree := ⟨[], 0, [], ⟨infoAt [], false⟩, []⟩

/-- A directory with a file and its backup, next to a file. -/
def notesAndBackup : TreedDirectory where
  folder := ['/', 't', '/']
  entries := [.directory ['d'] [.file ['n'] (), .file ['n', '~'] ()], .file ['a', ':', 'b'] ()]
  info := infoAt
  folder_slash := ⟨['/', 't'], rfl⟩
  wellFormed := by
    simp only [WellFormed, Entry.WellFormed, Entry.name]
    decide
  name_ne_nil := by
    simp only [listing, Entry.listing]
    decide
  canonicalFilePath_info _ := rfl

theorem exists_listsWantedOnce_notesAndBackup : ∃ st', freshEasyTree.generateTreeText
    (diskWith notesAndBackup.entries ['d'] [.file ['n'] (), .file ['n', '~'] ()]) simplified 2
      ['/', 't'] = some st' ∧ notesAndBackup.ListsWantedOnce simplified st'.treeText := by
  apply exists_listsWantedOnce
  · refine ⟨rfl, rfl, ?_⟩
    simp only [notesAndBackup, EntriesAreOn, EntryIsOn, and_true]
    rfl
  · rfl
  · have hall : ∀ listed ∈ listing [] notesAndBackup.entries, '\n' ∉ listed.path := by
      simp only [notesAndBackup, listing, Entry.listing]
      decide
    exact fun listed hlisted _ => hall listed hlisted
  · decide

/-- A file whose name has a newline. -/
def twoLinesInName : TreedDirectory where
  folder := ['/', 't', '/']
  entries := [.file ['a', '\n', 'b'] ()]
  info := infoAt
  folder_slash := ⟨['/', 't'], rfl⟩
  wellFormed := by
    simp only [WellFormed, Entry.WellFormed, Entry.name]
    decide
  name_ne_nil := by
    simp only [listing, Entry.listing]
    decide
  canonicalFilePath_info _ := rfl

theorem not_listsWantedOnce_twoLinesInName : ¬ ∀ (d : TreedDirectory) (args : TreeArguments)
    (disk : Disk) (absoluteDirString : Text) (st : EasyTree) (fuel : ℕ), d.IsOn disk →
      d.IsGivenBy absoluteDirString → height d.entries < fuel →
        ∃ st', st.generateTreeText disk args fuel absoluteDirString = some st' ∧
          d.ListsWantedOnce args st'.treeText := by
  intro h
  obtain ⟨st', hst', all, hlines, hnodup, hmem, -⟩ := h twoLinesInName simplified
    (diskWith twoLinesInName.entries [] []) ['/', 't'] freshEasyTree 1
    ⟨rfl, rfl, trivial, trivial⟩ rfl (by decide)
  have htext : (freshEasyTree.generateTreeText (diskWith twoLinesInName.entries [] []) simplified 1
      ['/', 't']).map (fun st => (linesOf st.treeText).length) = some 2 := by decide +kernel
  rw [hst', Option.map_some, hlines, List.length_map] at htext
  have hlength : all.length = 2 := Option.some.inj htext
  have hpath : ∀ listed ∈ all, listed.path = ['a', '\n', 'b'] := by
    intro listed hlisted
    have hlisted := ((hmem listed).1 hlisted).1
    simp only [twoLinesInName, listing, Entry.listing, List.append_nil, List.mem_singleton,
      List.nil_append] at hlisted
    rw [hlisted]
  obtain ⟨first, second, rfl⟩ := List.length_eq_two.1 hlength
  rw [List.map_cons, List.map_cons, hpath first List.mem_cons_self,
    hpath second (List.mem_cons_of_mem _ List.mem_cons_self)] at hnodup
  exact (List.nodup_cons.1 hnodup).1 List.mem_cons_self

end TreedDirectory

end Autobackup.Filesystem
