import Autobackup.Foundation.AssociationList
import Autobackup.RecursiveGpgTools.DetachedSignatures
import Autobackup.RecursiveGpgTools.TargetDirectory

/-!
# The recursive verifier

`RecursivelyVerifyCustomDetachedGpgSignatures` first makes a table of the files of the directory
with their times.  Then it takes the records of the sigs file one after the other.  It compares the
time of a record if its path is in the table, runs gpg for it, and removes the path from the table.
It reports success if no path is left at the end.

A path can only be removed by a record with the right time and a valid signature, and it is in the
table until then (`firstRecord_of_done`).  So the verifier is sound if the table has the paths of
the files in the directory, which it has not for the root (`verifier_sound_iff`).

gpg is a process that answers later, and it may accept a signature, reject it, or crash.  Left out
are symbolic links and files that cannot be read.
-/

namespace Autobackup.RecursiveGpgTools

open QString

/-- A gpg process: the errors that `QProcess` reports, and how it exits. -/
structure GpgRun where
  errors : List ℕ := []
  normalExit : Bool
  exitCode : ℤ
  output : Text := []

def GpgRun.Accepts (run : GpgRun) : Prop := run.normalExit ∧ run.exitCode = 0

inductive Signal where
  | e (message : Text)
  | o (message : Text)
  | done (success : Bool)
  deriving DecidableEq

/-- The table of the files that have not been verified yet. -/
abbrev Missing := AList fun _ : Text => ℤ

/-- `buildListOfFilesOnFsToSeeIfAnyAreMissingSigs` -/
def buildListOfFilesOnFs (a : Arguments) (files : List FileOnFs) (excludeEntries : List Text) :
    Missing :=
  files.foldl (fun missing file =>
    if a.relativeFilePath file ∈ excludeEntries then missing
    else missing.insert (a.relativeFilePath file) file.unixTimestampInSeconds) ∅

/-- `filesystemLastModifiedUnixTimestampAndMetaUnixTimestampsAreIdentical` emits these, if they are
not. -/
def timestampsDiffer (onFs : ℤ) (fileMeta : FileMeta) : List Signal :=
  [.e ("last modified timestamp on filesystem differs from what's in the sigs file: ".toList ++
      fileMeta.filePath),
    .e ("on fs: ".toList ++ number onFs ++ " -- in sigs file: ".toList ++
      number fileMeta.unixTimestampInSeconds)]

/-- What is emitted at the end of the sigs file. -/
def finishVerifying (missing : Missing) (numFilesVerified : ℕ) : List Signal :=
  if missing.keys ≠ [] then
    [.e "the below files on the filesystem were not in the gpg signatures file:".toList, .e []] ++
      missing.keys.map .e ++
      [.e [], .e "the above files on the filesystem were not in the gpg signatures file".toList,
        .o ("however, every file in the gpg signatures file verified correctly, ".toList ++
          "so it wasn't a complete failure".toList),
        .done false]
  else
    [.o ("done verifying ".toList ++ number numFilesVerified ++
        " custom detached gpg signatures -- everything OK".toList),
      .done true]

/-- `handleGpgProcessError`, which does not stop the verifier. -/
def handleGpgProcessError (filePath : Text) (processError : ℕ) : List Signal :=
  [.e ("gpg qprocess error: '".toList ++ number processError ++
      "' while trying to verify file: ".toList ++ filePath),
    .done false]

/-- What `handleGpgProcessFinished` emits where it stops. -/
def gpgFailed (run : GpgRun) (filePath : Text) : List Signal :=
  [.e run.output,
    .e (if run.normalExit then
        "one of the signatures was not valid, or there was some other reason gpg did not ".toList ++
          "exit with code 0. gpg exitted with code: ".toList ++ number run.exitCode ++
          " while trying to verify file: ".toList ++ filePath
      else "gpg did not exit normally when trying to verify file: ".toList ++ filePath),
    .done false]

/-- The records from here on are verified. -/
def verifyNextEntry (gpg : Text → Text → GpgRun) (lines : List Text) (missing : Missing)
    (numFilesVerified : ℕ) : List Signal :=
  if lines = [] then finishVerifying missing numFilesVerified
  else
    match _h : readPathAndSignature lines with
    | .error message => [.e message, .done false]
    | .ok (fileMeta, rest) =>
        -- A path that is not in the table is silently ignored here.
        match (missing.lookup fileMeta.filePath).filter (· ≠ fileMeta.unixTimestampInSeconds) with
        | some onFs => timestampsDiffer onFs fileMeta ++ [.done false]
        | none =>
            let run := gpg fileMeta.gpgSignature fileMeta.filePath
            run.errors.flatMap (handleGpgProcessError fileMeta.filePath) ++
              if run.normalExit ∧ run.exitCode = 0 then
                verifyNextEntry gpg rest (missing.erase fileMeta.filePath) (numFilesVerified + 1)
              else gpgFailed run fileMeta.filePath
termination_by lines.length
decreasing_by exact readPathAndSignature_length _h

/-- `recursivelyVerifyCustomDetachedGpgSignatures`, for the text of the sigs file if it exists. -/
def recursivelyVerify (a : Arguments) (files : List FileOnFs) (excludeEntries : List Text)
    (gpg : Text → Text → GpgRun) (sigsFile : Option Text) : List Signal :=
  match sigsFile with
  | none =>
      [.e ("sigsfile either doesn't exist or isn't a file: ".toList ++
          a.customDetachedSignaturesFile),
        .done false]
  | some text =>
      verifyNextEntry gpg (linesOf text)
        (buildListOfFilesOnFs a files (a.excluded excludeEntries)) 0

/-! ## Records -/

/-- The records of a sigs file, up to one that cannot be read. -/
def records (lines : List Text) : List FileMeta :=
  if lines = [] then []
  else
    match _h : readPathAndSignature lines with
    | .error _ => []
    | .ok (fileMeta, rest) => fileMeta :: records rest
termination_by lines.length
decreasing_by exact readPathAndSignature_length _h

variable {gpg : Text → Text → GpgRun} {lines rest : List Text} {missing : Missing} {n : ℕ}
  {fileMeta : FileMeta} {path : Text} {t : ℤ}

lemma records_of_ok (h : readPathAndSignature lines = .ok (fileMeta, rest)) :
    records lines = fileMeta :: records rest := by
  have hne : lines ≠ [] := fun hnil => by
    have hlength := readPathAndSignature_length h
    rw [hnil] at hlength
    exact Nat.not_lt_zero _ hlength
  rw [records, if_neg hne]
  split
  · next herror =>
      rw [h] at herror
      cases herror
  · next hok =>
      rw [h] at hok
      cases hok
      rfl

lemma done_not_mem_errors {errors : List ℕ} :
    Signal.done true ∉ errors.flatMap (handleGpgProcessError path) := fun h => by
  obtain ⟨error, -, herror⟩ := List.mem_flatMap.1 h
  simp [handleGpgProcessError] at herror

lemma done_not_mem_gpgFailed {run : GpgRun} : Signal.done true ∉ gpgFailed run path := by
  simp only [gpgFailed, List.mem_cons, List.not_mem_nil, reduceCtorEq, Signal.done.injEq,
    Bool.true_eq_false, or_self, not_false_eq_true]

/-- Success is only reported with an empty table. -/
lemma keys_of_done (h : .done true ∈ finishVerifying missing n) : missing.keys = [] := by
  by_contra hne
  rw [finishVerifying, if_pos hne] at h
  simp at h

/-- Every run ends with a result. -/
lemma getLast?_verifyNextEntry (gpg : Text → Text → GpgRun) (lines : List Text)
    (missing : Missing) (n : ℕ) :
    ∃ success, (verifyNextEntry gpg lines missing n).getLast? = some (.done success) := by
  fun_induction verifyNextEntry gpg lines missing n with
  | case1 missing n =>
      rw [finishVerifying]
      split_ifs
      · exact ⟨false, by rw [List.getLast?_append]; rfl⟩
      · exact ⟨true, rfl⟩
  | case2 lines missing n hne message hread => exact ⟨false, rfl⟩
  | case3 lines missing n hne fileMeta rest hread onFs honFs =>
      exact ⟨false, by rw [List.getLast?_append]; rfl⟩
  | case4 lines missing n hne fileMeta rest hread honFs run ih =>
      rw [List.getLast?_append]
      split_ifs
      · obtain ⟨success, hlast⟩ := ih
        exact ⟨success, by rw [hlast]; rfl⟩
      · exact ⟨false, rfl⟩

/-- **What is in the table is verified by the first record of its path,** if success is reported.
By induction on the records: until then the path is in the table. -/
theorem firstRecord_of_done (gpg : Text → Text → GpgRun) (lines : List Text) (missing : Missing)
    (n : ℕ) (hdone : .done true ∈ verifyNextEntry gpg lines missing n)
    (hlookup : missing.lookup path = some t) :
    ∃ before entry after, records lines = before ++ entry :: after ∧ entry.filePath = path ∧
      entry.unixTimestampInSeconds = t ∧ (gpg entry.gpgSignature path).Accepts ∧
      ∀ other ∈ before, other.filePath ≠ path := by
  fun_induction verifyNextEntry gpg lines missing n with
  | case1 missing n =>
      have hmem : path ∈ missing.keys :=
        AList.lookup_isSome.1 (Option.isSome_iff_exists.2 ⟨t, hlookup⟩)
      rw [keys_of_done hdone] at hmem
      cases hmem
  | case2 lines missing n hne message hread => simp at hdone
  | case3 lines missing n hne fileMeta rest hread onFs honFs =>
      simp [timestampsDiffer] at hdone
  | case4 lines missing n hne fileMeta rest hread honFs run ih =>
      have hlater := (List.mem_append.1 hdone).resolve_left done_not_mem_errors
      split_ifs at hlater with haccepts
      · rw [records_of_ok hread]
        by_cases hpath : fileMeta.filePath = path
        · rw [hpath, hlookup, Option.filter_eq_none_iff] at honFs
          have hsame : t = fileMeta.unixTimestampInSeconds := by simpa using honFs t rfl
          exact ⟨[], fileMeta, records rest, rfl, hpath, hsame.symm, hpath ▸ haccepts,
            fun _ hother => absurd hother List.not_mem_nil⟩
        · obtain ⟨before, entry, after, hrecords, hentry, ht, hgpg, hbefore⟩ :=
            ih hlater (by rwa [AList.lookup_erase_ne (Ne.symm hpath)])
          exact ⟨fileMeta :: before, entry, after, by rw [hrecords]; rfl, hentry, ht, hgpg,
            List.forall_mem_cons.2 ⟨hpath, hbefore⟩⟩
      · exact absurd hlater done_not_mem_gpgFailed

/-! ## The table -/

variable {a : Arguments} {files : List FileOnFs} {excludeEntries : List Text} {file : FileOnFs}

lemma buildListOfFilesOnFs_append :
    buildListOfFilesOnFs a (files ++ [file]) excludeEntries =
      if a.relativeFilePath file ∈ excludeEntries then buildListOfFilesOnFs a files excludeEntries
      else (buildListOfFilesOnFs a files excludeEntries).insert (a.relativeFilePath file)
        file.unixTimestampInSeconds := by
  rw [buildListOfFilesOnFs, List.foldl_append]
  rfl

/-- The files that are not excluded are in the table. -/
lemma lookup_buildListOfFilesOnFs (hnodup : (files.map a.relativeFilePath).Nodup)
    (hfile : file ∈ files) (hexcluded : a.relativeFilePath file ∉ excludeEntries) :
    (buildListOfFilesOnFs a files excludeEntries).lookup (a.relativeFilePath file) =
      some file.unixTimestampInSeconds := by
  induction files using List.reverseRecOn with
  | nil => cases hfile
  | append_singleton files last ih =>
      rw [List.map_append, List.map_singleton, List.nodup_append'] at hnodup
      rw [buildListOfFilesOnFs_append]
      rcases List.mem_append.1 hfile with hold | hlast
      · have hne : a.relativeFilePath file ≠ a.relativeFilePath last := fun heq =>
          hnodup.2.2 (List.mem_map_of_mem hold) (heq ▸ List.mem_singleton_self _)
        split_ifs
        · exact ih hnodup.1 hold
        · rw [AList.lookup_insert_ne hne]
          exact ih hnodup.1 hold
      · obtain rfl := List.mem_singleton.1 hlast
        rw [if_neg hexcluded, AList.lookup_insert]

lemma buildListOfFilesOnFs_eq_empty
    (h : ∀ file ∈ files, a.relativeFilePath file ∈ excludeEntries) :
    buildListOfFilesOnFs a files excludeEntries = ∅ := by
  induction files using List.reverseRecOn with
  | nil => rfl
  | append_singleton files last ih =>
      rw [buildListOfFilesOnFs_append, if_pos (h last (by simp))]
      exact ih fun file hfile => h file (List.mem_append_left _ hfile)

/-! ## Soundness -/

/-- What a verification is given besides the names: the files of the directory, the entries to
exclude, the text of the sigs file, and gpg.  The file that a path names, seen from the directory,
is one of the files if the path is the relative one of it. -/
structure Verification (a : Arguments) where
  files : List FileOnFs
  nodup : (files.map FileOnFs.relativePath).Nodup
  excludeEntries : List Text
  sigsText : Text
  fileNamed : Text → Option (List UInt8)
  fileNamed_relativePath : ∀ file ∈ files, fileNamed file.relativePath = some file.content
  /-- The sigs file is one of the files if it lies in the directory. -/
  sigsFile_mem : ∀ relativePath, a.filePath relativePath = a.sigsFileAbsolutePath.text →
    relativePath ∈ files.map FileOnFs.relativePath
  valid : Text → List UInt8 → Bool
  gpg : Text → Text → GpgRun
  /-- gpg accepts the valid signatures for the file that it is given. -/
  accepts_iff : ∀ signature path, (gpg signature path).Accepts ↔
    ∃ content, fileNamed path = some content ∧ valid signature content

namespace Verification

variable (v : Verification a)

def signals : List Signal :=
  recursivelyVerify a v.files v.excludeEntries v.gpg (some v.sigsText)

/-- The records have a valid signature of the file, and up to the first one all times in the records
of its path are the one of the file. -/
def Verified (file : FileOnFs) : Prop :=
  ∃ before entry after, records (linesOf v.sigsText) = before ++ entry :: after ∧
    (entry.filePath = file.relativePath ∧ v.valid entry.gpgSignature file.content) ∧
    (∀ other ∈ before,
      ¬(other.filePath = file.relativePath ∧ v.valid other.gpgSignature file.content)) ∧
    ∀ other ∈ before ++ [entry], other.filePath = file.relativePath →
      other.unixTimestampInSeconds = file.unixTimestampInSeconds

end Verification

/-- The run ends with a result, and success means that all is verified that should be.  It
quantifies over the files, the sigs file and all that gpg may do. -/
def Sound (a : Arguments) : Prop :=
  ∀ v : Verification a, (∃ success, v.signals.getLast? = some (.done success)) ∧
    (.done true ∈ v.signals → ∀ file ∈ v.files, file.relativePath ∉ v.excludeEntries →
      ¬a.IsSigsFile file → v.Verified file)

lemma sound_of_isBelowRoot (h : a.IsBelowRoot) : Sound a := by
  intro v
  refine ⟨getLast?_verifyNextEntry _ _ _ _, fun hdone file hfile hnotExcluded hnotSigs => ?_⟩
  have hpaths : ∀ file, a.relativeFilePath file = file.relativePath := fun _ =>
    Arguments.relativeFilePath_eq h.2
  have hexcluded : a.relativeFilePath file ∉ a.excluded v.excludeEntries := by
    rw [hpaths, Arguments.mem_excluded h.1]
    exact not_or.2 ⟨hnotExcluded, fun hsigs => hnotSigs hsigs.2⟩
  have hnodup : (v.files.map a.relativeFilePath).Nodup := by
    rw [List.map_congr_left fun file _ => hpaths file]
    exact v.nodup
  have hlookup := lookup_buildListOfFilesOnFs hnodup hfile hexcluded
  rw [hpaths] at hlookup
  obtain ⟨before, entry, after, hrecords, hentry, htime, haccepts, hbefore⟩ :=
    firstRecord_of_done _ _ _ _ hdone hlookup
  obtain ⟨content, hcontent, hvalid⟩ := (v.accepts_iff _ _).1 haccepts
  rw [v.fileNamed_relativePath file hfile, Option.some_inj] at hcontent
  refine ⟨before, entry, after, hrecords, ⟨hentry, hcontent ▸ hvalid⟩,
    fun other hother hnames => hbefore other hother hnames.1, fun other hother hnames => ?_⟩
  rcases List.mem_append.1 hother with hother | hother
  · exact absurd hnames (hbefore other hother)
  · rw [List.mem_singleton.1 hother]
    exact htime

/-- If all files are excluded, an empty sigs file is verified. -/
lemma done_of_excluded (v : Verification a) (hsigs : v.sigsText = [])
    (h : ∀ file ∈ v.files, a.relativeFilePath file ∈ a.excluded v.excludeEntries) :
    .done true ∈ v.signals ∧ ∀ file, ¬v.Verified file := by
  constructor
  · rw [Verification.signals, recursivelyVerify, hsigs]
    change _ ∈ verifyNextEntry _ [] _ 0
    rw [buildListOfFilesOnFs_eq_empty h, verifyNextEntry, if_pos rfl]
    exact List.mem_cons_of_mem _ List.mem_cons_self
  · rintro file ⟨before, entry, after, hrecords, -⟩
    rw [hsigs] at hrecords
    change records [] = _ at hrecords
    rw [records, if_pos rfl] at hrecords
    exact absurd hrecords.symm (by simp)

/-- The sigs file and one file more, which gpg never sees. -/
def twoFiles (a : Arguments) (sigsPath path : Text) (hne : sigsPath ≠ path)
    (hsigs : ∀ relativePath, a.filePath relativePath = a.sigsFileAbsolutePath.text →
      relativePath = sigsPath) (excludeEntries : List Text) : Verification a where
  files := [⟨sigsPath, [], 0⟩, ⟨path, [], 0⟩]
  nodup := by simpa using hne
  excludeEntries := excludeEntries
  sigsText := []
  fileNamed := fun name => if name = sigsPath ∨ name = path then some [] else none
  fileNamed_relativePath := by simp
  sigsFile_mem := fun relativePath h => by simp [hsigs relativePath h]
  valid := fun _ _ => false
  gpg := fun _ _ => ⟨[], true, 1, []⟩
  accepts_iff := by simp [GpgRun.Accepts]

lemma sigsFileAbsolutePath_text (a : Arguments) :
    ∃ rest, rest ≠ [] ∧ a.sigsFileAbsolutePath.text = '/' :: rest := by
  have hne : a.sigsFileAbsolutePath.names ≠ [] := a.sigsFile_ne_root
  obtain ⟨name, names, hnames⟩ := List.exists_cons_of_ne_nil hne
  have hname : IsName name := a.sigsFileAbsolutePath.isName name (hnames ▸ List.mem_cons_self)
  refine ⟨name ++ AbsolutePath.joinNames names, by simp [hname.1], ?_⟩
  rw [AbsolutePath.text_of_ne hne, hnames, AbsolutePath.joinNames, List.flatMap_cons]
  rfl

/-- In the root a file is looked for by its path without the first character. -/
lemma not_sound_of_root (hroot : a.absolutePath.names = []) : ¬Sound a := fun h => by
  obtain ⟨sigsPath, -, hsigsPath⟩ := sigsFileAbsolutePath_text a
  have hfilePath : ∀ path, a.filePath path = '/' :: path := fun path => by
    rw [Arguments.filePath, AbsolutePath.withSlash, hroot]
    rfl
  have hne : sigsPath ≠ 'b' :: sigsPath := fun heq => by
    have hlength := congrArg List.length heq
    simp at hlength
  let v := twoFiles a sigsPath ('b' :: sigsPath) hne (fun path hpath => by
    rw [hfilePath, hsigsPath, List.cons_inj_right] at hpath
    exact hpath) [sigsPath.drop 1, sigsPath]
  have hexcluded : ∀ file ∈ v.files, a.relativeFilePath file ∈ a.excluded v.excludeEntries := by
    intro file hfile
    have hmem : a.relativeFilePath file ∈ v.excludeEntries := by
      rw [Arguments.relativeFilePath_root hroot]
      rcases List.mem_pair.1 hfile with rfl | rfl <;> simp [v, twoFiles]
    rw [Arguments.excluded]
    split_ifs
    · exact List.mem_append_left _ hmem
    · exact hmem
  obtain ⟨hdone, hno⟩ := done_of_excluded v rfl hexcluded
  refine hno _ ((h v).2 hdone ⟨'b' :: sigsPath, [], 0⟩ (by simp [v, twoFiles]) ?_ fun hsigs => ?_)
  · intro hmem
    have hlength : ('b' :: sigsPath).length ≤ sigsPath.length := by
      rcases List.mem_pair.1 hmem with heq | heq
      · have hsame : ('b' :: sigsPath).length = (sigsPath.drop 1).length := congrArg _ heq
        rw [List.length_drop] at hsame
        omega
      · exact Nat.le_of_eq (congrArg List.length heq)
    rw [List.length_cons] at hlength
    omega
  · rw [Arguments.IsSigsFile, hfilePath, hsigsPath, List.cons_inj_right] at hsigs
    exact hne hsigs.symm

/-- If the text of the directory is empty, a slash is taken for it. -/
lemma not_sound_of_nil (hdir : a.dir = []) (hroot : a.absolutePath.names ≠ []) :
    ¬Sound a := fun h => by
  obtain ⟨path, hpathNe, hpath⟩ := sigsFileAbsolutePath_text a
  have hslash : 2 ≤ a.absolutePath.withSlash.length := by
    rw [AbsolutePath.withSlash_eq hroot, AbsolutePath.text_of_ne hroot]
    obtain ⟨name, names, hnames⟩ := List.exists_cons_of_ne_nil hroot
    rw [hnames, AbsolutePath.joinNames, List.flatMap_cons, List.length_append, List.length_append,
      List.length_cons, List.length_singleton]
    omega
  have hlength : 1 ≤ path.length := List.length_pos_iff.2 hpathNe
  let sigsPath := a.sigsFileAbsolutePath.text.drop a.absolutePath.withSlash.length
  have hshorter : sigsPath.length < path.length := by
    rw [List.length_drop, hpath, List.length_cons]
    omega
  have hne : sigsPath ≠ path := fun heq => by
    rw [heq] at hshorter
    exact Nat.lt_irrefl _ hshorter
  let v := twoFiles a sigsPath path hne (fun relativePath hrelative => by
    change relativePath = List.drop _ _
    rw [← hrelative, Arguments.filePath, List.drop_left]) [sigsPath]
  have hexcluded : ∀ file ∈ v.files, a.relativeFilePath file ∈ a.excluded v.excludeEntries := by
    intro file hfile
    rw [Arguments.relativeFilePath_eq hroot, Arguments.excluded, hdir, hpath]
    have hprefix : appendSlashIfNeeded [] <+: '/' :: path := ⟨path, rfl⟩
    rw [if_pos hprefix]
    rcases List.mem_pair.1 hfile with rfl | rfl
    · exact List.mem_append_left _ (List.mem_singleton_self _)
    · exact List.mem_append_right _ (List.mem_singleton_self _)
  obtain ⟨hdone, hno⟩ := done_of_excluded v rfl hexcluded
  refine hno _ ((h v).2 hdone ⟨path, [], 0⟩ (by simp [v, twoFiles]) ?_ fun hsigs => ?_)
  · exact fun hmem => hne (List.mem_singleton.1 hmem).symm
  · have hsame := congrArg List.length hsigs
    rw [Arguments.filePath, List.length_append, hpath, List.length_cons] at hsame
    change _ + path.length = _ at hsame
    omega

/-- **The verifier is sound for precisely the directories below the root.**  For a directory that is
named by a text and is not the root, every run ends with a result, and success means that every file
that is not excluded and not the sigs file itself has a valid signature, with its time in the
records up to that one, whatever the sigs file holds.

The sigs file may hold anything: records for other files, two for one file, times in the future.
Being sound is about every one of them and every behaviour of gpg, so it is a property of the
directory that is given. -/
theorem verifier_sound_iff (a : Arguments) : Sound a ↔ a.IsBelowRoot := by
  refine ⟨fun h => ?_, sound_of_isBelowRoot⟩
  have hroot : a.absolutePath.names ≠ [] := fun hroot => not_sound_of_root hroot h
  exact ⟨fun hdir => not_sound_of_nil hdir hroot h, hroot⟩

def rootArguments : Arguments where
  workingDirectory := ⟨[], fun _ h => absurd h List.not_mem_nil⟩
  dir := "/".toList
  customDetachedSignaturesFile := "/sigs".toList
  sigsFile_ne_root := by decide

/-- The verifier in the root of the file system. -/
theorem not_sound_rootArguments : ¬∀ a : Arguments, Sound a := fun h =>
  not_sound_of_root (a := rootArguments) (by decide) (h rootArguments)

end Autobackup.RecursiveGpgTools
