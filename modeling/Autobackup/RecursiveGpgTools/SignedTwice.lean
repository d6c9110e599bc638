import Autobackup.RecursiveGpgTools.Signer

/-!
# Signing twice and verifying

A directory is signed, signed again, and verified.  The records of the sigs file behind the first
run are those of the files that are looked at (`recordsOf_perm`), if they can be read.  Then the
second run finds all of them, and so does the verifier.

The sigs file itself may be looked at: it is excluded only if its absolute path starts with the text
that the directory is given by.  And if there is nothing to sign, no sigs file is written, which the
verifier does not accept.

The files do not change between the runs, but for the sigs file itself. gpg is a parameter: what it
makes of a content, and which signatures it accepts.  Left out are symbolic links, paths that gpg
takes for options, and the sigs file on the standard output.
-/

namespace Autobackup.RecursiveGpgTools

open QString

/-- What a file is looked up by. -/
def Arguments.lookedUpBy (a : Arguments) (relativePath : Text) : Text :=
  (a.filePath relativePath).drop (a.absolutePath.text.length + 1)

/-- The path of the sigs file in the directory, if it lies there. -/
def Arguments.sigsFileRelativePath (a : Arguments) : Option Text :=
  if a.absolutePath.withSlash <+: a.sigsFileAbsolutePath.text then
    some (a.sigsFileAbsolutePath.text.drop a.absolutePath.withSlash.length)
  else none

/-- The last record of each path of a sigs file. -/
def recorded (sigsFile : Option Text) : Sigs := insertAll ∅ (sigsFile.elim [] recordsOf)

inductive Run where
  | first
  | second
  | verification
  deriving DecidableEq

/-- A directory that is signed twice and verified, with the same arguments.  Its files stay as they
are, in an order that may change, and only the sigs file is written.  gpg signs the readable files,
and accepts the signatures that it made. -/
structure Signing (a : Arguments) where
  sigsFile_ne_nil : a.customDetachedSignaturesFile ≠ []
  /-- The files of the directory besides the sigs file. -/
  others : List FileOnFs
  nodup : (others.map FileOnFs.relativePath).Nodup
  notSigsFile : ∀ file ∈ others, ¬a.IsSigsFile file
  isLongLong : ∀ file ∈ others, IsLongLong file.unixTimestampInSeconds
  excludeEntries : List Text
  /-- The sigs file in front of the first run, if it exists. -/
  previous : Option Text
  encode : Text → List UInt8
  sigsFileLastModified : Run → ℤ
  isLongLong_sigsFile : ∀ run, IsLongLong ((sigsFileLastModified run).tdiv 1000)
  iterate : Run → List FileOnFs → List FileOnFs
  iterate_perm : ∀ run files, (iterate run files).Perm files
  readable : FileOnFs → Bool
  made : Text → List UInt8 → Bool
  sign : Run → Text → List UInt8 → Text
  made_sign : ∀ run path content, made (sign run path content) content = true
  isArmored_sign : ∀ run path content, IsArmored (sign run path content)
  carriageReturn_sign : ∀ run path content, '\r' ∉ sign run path content

namespace Signing

variable {a : Arguments} (s : Signing a)

def sigsFileOnFs (run : Run) (sigsText : Text) : List FileOnFs :=
  a.sigsFileRelativePath.toList.map fun relativePath =>
    ⟨relativePath, s.encode sigsText, s.sigsFileLastModified run⟩

/-- The files that a run finds, besides their order. -/
def present (run : Run) (sigsFile : Option Text) : List FileOnFs :=
  s.others ++ sigsFile.toList.flatMap (s.sigsFileOnFs run)

/-- What gpg reads of the file that a path names. -/
def content (run : Run) (sigsFile : Option Text) (path : Text) : Option (List UInt8) :=
  ((s.present run sigsFile).find? fun file => file.relativePath = path ∧ s.readable file).map
    FileOnFs.content

def gpgSign (run : Run) (sigsFile : Option Text) (path : Text) : GpgSignRun :=
  match s.content run sigsFile path with
  | some content => { normalExit := true, exitCode := 0, output := s.sign run path content }
  | none => { normalExit := true, exitCode := 2 }

def gpgVerify (sigsFile : Option Text) (signature path : Text) : GpgRun :=
  match s.content .verification sigsFile path with
  | some content => { normalExit := true, exitCode := if s.made signature content then 0 else 1 }
  | none => { normalExit := true, exitCode := 2 }

def signingRun (run : Run) (sigsFile : Option Text) : SigningRun :=
  recursivelySign a (s.iterate run (s.present run sigsFile)) s.excludeEntries
    (s.gpgSign run sigsFile) sigsFile

/-- The sigs file behind the first run. -/
def sigsFile : Option Text := (s.signingRun .first s.previous).written.or s.previous

def verification : List Signal :=
  recursivelyVerify a (s.iterate .verification (s.present .verification s.sigsFile))
    s.excludeEntries (s.gpgVerify s.sigsFile) (s.sigsFile.map readAsText)

/-- The files that should be signed. -/
def toSign : List FileOnFs := s.others.filter (·.relativePath ∉ s.excludeEntries)

/-- The first run reports success. -/
def Succeeds : Prop := .done true ∈ (s.signingRun .first s.previous).signals

/-- Behind the first run there is one record for each file that should be signed, the second run
reports success and writes nothing, and the verifier reports success. -/
structure IsSettled : Prop where
  entries : ((s.sigsFile.elim [] recordsOf).map (·.filePath)).Perm
    (s.toSign.map FileOnFs.relativePath)
  again : .done true ∈ (s.signingRun .second s.sigsFile).signals
  nothingWritten : (s.signingRun .second s.sigsFile).written = none
  verified : .done true ∈ s.verification

/-- The files that are looked at by a run. -/
def looked (run : Run) (sigsFile : Option Text) : List FileOnFs :=
  lookedAt a (a.excluded s.excludeEntries) (s.present run sigsFile)

/-- The sigs file is looked at as soon as it exists. -/
def LooksAtSigsFile : Prop :=
  ∃ relativePath ∈ a.sigsFileRelativePath,
    a.lookedUpBy relativePath ∉ a.excluded s.excludeEntries

/-- The first run finds a file without a record. -/
def AddsSigs : Prop :=
  ∃ file ∈ s.looked .first s.previous,
    (recorded s.previous).lookup (a.relativeFilePath file) = none

/-- What makes the first run settle the sigs file. -/
structure WillSettle : Prop where
  /-- With a sigs file the files that are looked at, by what they are looked up by, are those that
  should be signed. -/
  paths : ((s.looked .second (some [])).map a.relativeFilePath).Perm
    (s.toSign.map FileOnFs.relativePath)
  /-- Only in the root the sigs file can stand for one of them. -/
  sigsFile : s.LooksAtSigsFile → s.previous.isSome ∧ ∀ run,
    (s.sigsFileLastModified run).tdiv 1000 = (s.sigsFileLastModified .first).tdiv 1000
  /-- The signatures in front of the first run are good. -/
  made : ∀ path fileMeta, (recorded s.previous).lookup path = some fileMeta →
    ∃ content, s.content .first none path = some content ∧
      s.made fileMeta.gpgSignature content = true
  /-- If a sigs file is written, it can be read. -/
  writable : s.AddsSigs → ∀ file ∈ s.looked .first s.previous, '\r' ∉ a.relativeFilePath file ∧
    IsWritable (a.relativeFilePath file) file.unixTimestampInSeconds
  /-- If none is written, there is one, and it has no path twice. -/
  kept : ¬s.AddsSigs → ∃ sigsText, s.previous = some sigsText ∧
    ((recordsOf sigsText).map (·.filePath)).Nodup

end Signing

/-! ## The records of a sigs file -/

variable {sigs : Sigs} {metas : List FileMeta} {fileMeta : FileMeta} {path sigsText : Text}
  {sigsFile : Option Text}

lemma mem_of_lookup_insertAll (h : (insertAll sigs metas).lookup path = some fileMeta) :
    fileMeta ∈ metas ∧ fileMeta.filePath = path ∨ sigs.lookup path = some fileMeta := by
  induction metas generalizing sigs with
  | nil => exact .inr h
  | cons first metas ih =>
      rcases ih h with ⟨hmem, hpath⟩ | hold
      · exact .inl ⟨List.mem_cons_of_mem _ hmem, hpath⟩
      · by_cases heq : path = first.filePath
        · rw [heq, AList.lookup_insert, Option.some_inj] at hold
          exact .inl ⟨hold ▸ List.mem_cons_self, by rw [heq, hold]⟩
        · rw [AList.lookup_insert_ne heq] at hold
          exact .inr hold

lemma mem_of_lookup_recorded (h : (recorded sigsFile).lookup path = some fileMeta) :
    fileMeta ∈ sigsFile.elim [] recordsOf ∧ fileMeta.filePath = path := by
  refine (mem_of_lookup_insertAll h).resolve_right ?_
  rw [AList.lookup_empty]
  exact (Option.some_ne_none _).symm

lemma isMade_of_lookup_recorded (h : (recorded sigsFile).lookup path = some fileMeta) :
    IsMade fileMeta := by
  have hmem := (mem_of_lookup_recorded h).1
  cases sigsFile with
  | none => cases hmem
  | some sigsText => exact isMade_of_mem_recordsOf fileMeta hmem

lemma lookup_recorded (hnodup : ((recordsOf sigsText).map (·.filePath)).Nodup) :
    (recorded (some sigsText)).lookup path = some fileMeta ↔
      fileMeta ∈ recordsOf sigsText ∧ fileMeta.filePath = path := by
  refine ⟨mem_of_lookup_recorded, ?_⟩
  rintro ⟨hmem, rfl⟩
  change (insertAll ∅ (recordsOf sigsText)).lookup _ = _
  rw [lookup_insertAll hnodup, find?_filePath hnodup hmem]
  rfl

lemma keys_recorded_perm (hnodup : ((recordsOf sigsText).map (·.filePath)).Nodup) :
    (recorded (some sigsText)).keys.Perm ((recordsOf sigsText).map (·.filePath)) := by
  refine (List.perm_ext_iff_of_nodup (AList.keys_nodup _) hnodup).2 fun path => ?_
  rw [mem_keys_iff, List.mem_map]
  exact exists_congr fun fileMeta => lookup_recorded hnodup

/-! ## A verification that goes well -/

lemma done_of_verified (gpg : Text → Text → GpgRun) (lines : List Text) (missing : Missing) (n : ℕ)
    (hread : ∃ sigs, (readInAllSigsFromSigFile lines sigs).1 = true)
    (htimes : ∀ fileMeta ∈ records lines, ∀ t, missing.lookup fileMeta.filePath = some t →
      t = fileMeta.unixTimestampInSeconds)
    (haccepts : ∀ fileMeta ∈ records lines, (gpg fileMeta.gpgSignature fileMeta.filePath).Accepts)
    (hkeys : missing.keys ⊆ (records lines).map (·.filePath)) :
    .done true ∈ verifyNextEntry gpg lines missing n := by
  fun_induction verifyNextEntry gpg lines missing n with
  | case1 missing n =>
      rw [records, if_pos rfl, List.map_nil, List.subset_nil] at hkeys
      rw [finishVerifying, if_neg (not_not.2 hkeys)]
      exact List.mem_cons_of_mem _ List.mem_cons_self
  | case2 lines missing n hne message herror =>
      obtain ⟨sigs, hread⟩ := hread
      rw [readInAllSigsFromSigFile_of_error hne herror] at hread
      exact absurd hread Bool.false_ne_true
  | case3 lines missing n hne fileMeta rest hok onFs honFs =>
      rw [records_of_ok hok] at htimes
      obtain ⟨hlookup, hdiffer⟩ := Option.filter_eq_some_iff.1 honFs
      have hsame := htimes fileMeta List.mem_cons_self onFs hlookup
      exact absurd hsame (by simpa using hdiffer)
  | case4 lines missing n hne fileMeta rest hok honFs run ih =>
      obtain ⟨sigs, hread⟩ := hread
      rw [records_of_ok hok] at htimes haccepts hkeys
      rw [readInAllSigsFromSigFile_of_ok hok] at hread
      obtain ⟨hfirst, hlater⟩ := List.forall_mem_cons.1 haccepts
      have haccepted : run.normalExit ∧ run.exitCode = 0 := hfirst
      refine List.mem_append_right _ ?_
      rw [if_pos haccepted]
      refine ih ⟨_, hread⟩ (fun other hother t ht => ?_) hlater fun path hpath => ?_
      · by_cases heq : other.filePath = fileMeta.filePath
        · rw [heq, AList.lookup_erase] at ht
          cases ht
        · rw [AList.lookup_erase_ne heq] at ht
          exact htimes other (List.mem_cons_of_mem _ hother) t ht
      · obtain ⟨hne, hmem⟩ := AList.mem_erase.1 hpath
        exact (List.mem_cons.1 (hkeys hmem)).resolve_left hne

/-! ## The files that are looked at -/

lemma Fits.perm {a : Arguments} {gpg : Text → GpgSignRun} {looked looked' : List FileOnFs}
    (h : Fits a gpg sigs looked) (hperm : looked.Perm looked') : Fits a gpg sigs looked' where
  time := fun file hfile => h.time file (hperm.mem_iff.2 hfile)
  signed := fun file hfile => h.signed file (hperm.mem_iff.2 hfile)
  found := List.Subset.trans h.found (hperm.map _).subset

namespace Signing

variable {a : Arguments} {s : Signing a} {run : Run} {file : FileOnFs}

lemma lookedAt_iterate_perm : (lookedAt a (a.excluded s.excludeEntries)
    (s.iterate run (s.present run sigsFile))).Perm (s.looked run sigsFile) :=
  (s.iterate_perm run _).filter _

/-- By what the files are looked up, and their times. -/
def key (a : Arguments) (file : FileOnFs) : Text × ℤ :=
  (a.relativeFilePath file, file.unixTimestampInSeconds)

lemma looked_some : s.looked run (some sigsText) =
    lookedAt a (a.excluded s.excludeEntries) s.others ++
      lookedAt a (a.excluded s.excludeEntries) (s.sigsFileOnFs run sigsText) := by
  rw [looked, present, lookedAt, List.filter_append]
  simp [lookedAt]

lemma looked_none : s.looked run none = lookedAt a (a.excluded s.excludeEntries) s.others := by
  rw [looked, present]
  simp

lemma lookedAt_sigsFileOnFs (h : ¬s.LooksAtSigsFile) :
    lookedAt a (a.excluded s.excludeEntries) (s.sigsFileOnFs run sigsText) = [] := by
  refine List.filter_eq_nil_iff.2 fun file hfile hlooked => h ?_
  obtain ⟨relativePath, hpath, rfl⟩ := List.mem_map.1 hfile
  exact ⟨relativePath, Option.mem_toList.1 hpath, of_decide_eq_true hlooked⟩

lemma looked_of_not (h : ¬s.LooksAtSigsFile) : s.looked run sigsFile =
    lookedAt a (a.excluded s.excludeEntries) s.others := by
  cases sigsFile with
  | none => exact looked_none
  | some sigsText => rw [looked_some, lookedAt_sigsFileOnFs h, List.append_nil]

/-- The paths do not depend on the run. -/
lemma paths_looked (run run' : Run) (sigsText sigsText' : Text) :
    (s.looked run (some sigsText)).map a.relativeFilePath =
      (s.looked run' (some sigsText')).map a.relativeFilePath := by
  have hpaths : ∀ run sigsText, (lookedAt a (a.excluded s.excludeEntries)
      (s.sigsFileOnFs run sigsText)).map a.relativeFilePath =
        (a.sigsFileRelativePath.toList.map a.lookedUpBy).filter
          (· ∉ a.excluded s.excludeEntries) := fun run sigsText => by
    rw [lookedAt, sigsFileOnFs, List.filter_map, List.map_map, List.filter_map]
    rfl
  rw [looked_some, looked_some, List.map_append, List.map_append, hpaths, hpaths]

/-- A path of a file besides the sigs file. -/
lemma content_eq (hfile : file ∈ s.others) :
    s.content run sigsFile file.relativePath = s.content .first none file.relativePath := by
  have hsigs : ∀ other ∈ sigsFile.toList.flatMap (s.sigsFileOnFs run),
      ¬(decide (other.relativePath = file.relativePath ∧ s.readable other) = true) := by
    intro other hother heq
    obtain ⟨sigsText, -, hmem⟩ := List.mem_flatMap.1 hother
    obtain ⟨relativePath, hpath, rfl⟩ := List.mem_map.1 hmem
    have hsame : relativePath = file.relativePath := (of_decide_eq_true heq).1
    refine s.notSigsFile file hfile ?_
    have hinside := Option.mem_toList.1 hpath
    rw [Arguments.sigsFileRelativePath] at hinside
    split_ifs at hinside with hprefix
    obtain ⟨rest, hrest⟩ := hprefix
    rw [Option.some_inj, ← hrest, List.drop_left] at hinside
    rw [Arguments.IsSigsFile, Arguments.filePath, ← hsame, ← hinside, hrest]
  rw [content, content, present, present, List.find?_append, List.find?_append,
    List.find?_eq_none.2 hsigs]
  simp

lemma path_mem_toSign {path : Text} (h : path ∈ s.toSign.map FileOnFs.relativePath) :
    ∃ file ∈ s.others, file.relativePath = path := by
  obtain ⟨file, hfile, rfl⟩ := List.mem_map.1 h
  exact ⟨file, List.mem_of_mem_filter hfile, rfl⟩

lemma nodup_toSign : (s.toSign.map FileOnFs.relativePath).Nodup :=
  s.nodup.sublist (List.filter_sublist.map _)

/-! ## One run -/

def start (sigsFile : Option Text) : Signer :=
  ⟨recorded sigsFile, .empty, (recorded sigsFile).keys.length, 0,
    (recorded sigsFile).keys.length⟩

lemma done_not_mem_readErrors (lines : List Text) : Signal.done true ∉ readErrors lines := by
  fun_induction readErrors lines with
  | case1 => exact List.not_mem_nil
  | case2 lines hne message herror => simp
  | case3 lines hne fileMeta rest hok ih => exact ih

lemma signingRun_eq (h : ∀ sigsText, sigsFile = some sigsText → IsReadable sigsText) :
    s.signingRun run sigsFile =
      signDirEntries a (s.gpgSign run sigsFile) (a.excluded s.excludeEntries)
        (s.iterate run (s.present run sigsFile)) (start sigsFile) := by
  cases sigsFile with
  | none => rfl
  | some sigsText =>
      have hread : readInAllSigsFromSigFile (linesOf (readAsText sigsText)) ∅ =
          (true, recorded (some sigsText)) :=
        Prod.ext (h sigsText rfl) (readInAllSigsFromSigFile_snd _ _)
      rw [signingRun, recursivelySign]
      simp only [hread]
      rfl

lemma isReadable_of_done (h : .done true ∈ (s.signingRun run sigsFile).signals) :
    ∀ sigsText, sigsFile = some sigsText → IsReadable sigsText := by
  rintro sigsText rfl
  rw [IsReadable]
  by_contra hread
  have hfail : readInAllSigsFromSigFile (linesOf (readAsText sigsText)) ∅ =
      (false, recorded (some sigsText)) :=
    Prod.ext (Bool.eq_false_iff.2 hread) (readInAllSigsFromSigFile_snd _ _)
  rw [signingRun, recursivelySign] at h
  simp only [hfail] at h
  rcases List.mem_append.1 h with h | h
  · exact done_not_mem_readErrors _ h
  · simp at h

/-- **A run that can read the sigs file goes well exactly if its records fit.** -/
lemma done_signingRun_iff (hread : ∀ sigsText, sigsFile = some sigsText → IsReadable sigsText)
    (hnodup : ((s.looked run sigsFile).map a.relativeFilePath).Nodup) :
    .done true ∈ (s.signingRun run sigsFile).signals ↔
      Fits a (s.gpgSign run sigsFile) (recorded sigsFile) (s.looked run sigsFile) := by
  have hperm : (lookedAt a (a.excluded s.excludeEntries)
    (s.iterate run (s.present run sigsFile))).Perm (s.looked run sigsFile) := lookedAt_iterate_perm
  rw [signingRun_eq hread, done_iff ((hperm.map _).nodup_iff.2 hnodup)]
  exact ⟨fun h => h.perm hperm, fun h => h.perm hperm.symm⟩

/-- What such a run writes. -/
lemma written_signingRun (hnodup : ((s.looked run sigsFile).map a.relativeFilePath).Nodup)
    (hdone : .done true ∈ (s.signingRun run sigsFile).signals) :
    ∃ metas : List FileMeta, metas.Perm ((s.looked run sigsFile).map
        (recordOf a (s.gpgSign run sigsFile) (recorded sigsFile))) ∧
      (s.signingRun run sigsFile).written =
        if ∃ file ∈ s.looked run sigsFile,
          (recorded sigsFile).lookup (a.relativeFilePath file) = none
        then some (metas.flatMap write) else none := by
  have hperm : (lookedAt a (a.excluded s.excludeEntries)
    (s.iterate run (s.present run sigsFile))).Perm (s.looked run sigsFile) := lookedAt_iterate_perm
  have hread := isReadable_of_done hdone
  rw [signingRun_eq hread] at hdone ⊢
  obtain ⟨metas, hmetas, hwritten⟩ := written_of_done ((hperm.map _).nodup_iff.2 hnodup)
    (fun _ _ => rfl) hdone
  refine ⟨metas, hmetas.trans (hperm.map _), ?_⟩
  rw [hwritten]
  refine if_congr ?_ rfl rfl
  have hnothing : ¬0 < (start sigsFile).addedSigs := Nat.lt_irrefl 0
  rw [or_iff_right hnothing]
  exact exists_congr fun file => and_congr_left fun _ => hperm.mem_iff

/-- The record of a file has its path and its time. -/
lemma recordOf_eq (hfits : Fits a (s.gpgSign run sigsFile) (recorded sigsFile)
      (s.looked run sigsFile)) (hfile : file ∈ s.looked run sigsFile) :
    (recordOf a (s.gpgSign run sigsFile) (recorded sigsFile) file).filePath =
        a.relativeFilePath file ∧
      (recordOf a (s.gpgSign run sigsFile) (recorded sigsFile) file).unixTimestampInSeconds =
        file.unixTimestampInSeconds := by
  rw [recordOf]
  cases hlookup : (recorded sigsFile).lookup (a.relativeFilePath file) with
  | none => exact ⟨rfl, rfl⟩
  | some fileMeta =>
      exact ⟨(mem_of_lookup_recorded hlookup).2, (hfits.time file hfile fileMeta hlookup).symm⟩

lemma map_recordOf (hfits : Fits a (s.gpgSign run sigsFile) (recorded sigsFile)
      (s.looked run sigsFile)) :
    ((s.looked run sigsFile).map (recordOf a (s.gpgSign run sigsFile) (recorded sigsFile))).map
      (·.filePath) = (s.looked run sigsFile).map a.relativeFilePath := by
  rw [List.map_map]
  exact List.map_congr_left fun file hfile => (recordOf_eq hfits hfile).1

lemma isLongLong_of_mem_present (hfile : file ∈ s.present run sigsFile) :
    IsLongLong file.unixTimestampInSeconds := by
  rcases List.mem_append.1 hfile with hfile | hfile
  · exact s.isLongLong file hfile
  · obtain ⟨sigsText, -, hmem⟩ := List.mem_flatMap.1 hfile
    obtain ⟨relativePath, -, rfl⟩ := List.mem_map.1 hmem
    exact s.isLongLong_sigsFile run

/-- The file is readable if gpg signs it, and the signature is made for it then. -/
lemma accepts_gpgSign {path : Text} (h : (s.gpgSign run sigsFile path).Accepts) :
    ∃ content, s.content run sigsFile path = some content ∧
      (s.gpgSign run sigsFile path).output = s.sign run path content := by
  rw [gpgSign] at h ⊢
  cases hcontent : s.content run sigsFile path with
  | none =>
      rw [hcontent] at h
      have hcode : (2 : ℤ) = 0 := h.2
      exact absurd hcode (by decide)
  | some content => exact ⟨content, rfl, rfl⟩

lemma accepts_gpgVerify {signature path : Text} : (s.gpgVerify sigsFile signature path).Accepts ↔
    ∃ content, s.content .verification sigsFile path = some content ∧
      s.made signature content = true := by
  rw [gpgVerify]
  cases hcontent : s.content .verification sigsFile path with
  | none => simp [GpgRun.Accepts]
  | some content => simp [GpgRun.Accepts]

lemma isMade_recordOf (hfits : Fits a (s.gpgSign run sigsFile) (recorded sigsFile)
      (s.looked run sigsFile)) (hfile : file ∈ s.looked run sigsFile) :
    IsMade (recordOf a (s.gpgSign run sigsFile) (recorded sigsFile) file) := by
  rw [recordOf]
  cases hlookup : (recorded sigsFile).lookup (a.relativeFilePath file) with
  | some fileMeta => exact isMade_of_lookup_recorded hlookup
  | none =>
      obtain ⟨content, -, houtput⟩ := accepts_gpgSign (hfits.signed file hfile hlookup)
      rw [Option.getD_none, houtput]
      exact ⟨s.isArmored_sign _ _ _, s.carriageReturn_sign _ _ _,
        isLongLong_of_mem_present (List.mem_of_mem_filter hfile)⟩

/-! ## Behind the first run -/

/-- The records of the files that the first run looks at. -/
def firstRecords (s : Signing a) : List FileMeta :=
  (s.looked .first s.previous).map
    (recordOf a (s.gpgSign .first s.previous) (recorded s.previous))

lemma fits_first (hdone : s.Succeeds)
    (hnodup : ((s.looked .first s.previous).map a.relativeFilePath).Nodup) :
    Fits a (s.gpgSign .first s.previous) (recorded s.previous) (s.looked .first s.previous) :=
  (done_signingRun_iff (isReadable_of_done hdone) hnodup).1 hdone

/-- Either the sigs file is written, or it stays as it is. -/
lemma sigsFile_cases (hdone : s.Succeeds)
    (hnodup : ((s.looked .first s.previous).map a.relativeFilePath).Nodup) :
    (s.AddsSigs ∧ ∃ metas : List FileMeta, metas.Perm s.firstRecords ∧
        s.sigsFile = some (metas.flatMap write)) ∨
      ¬s.AddsSigs ∧ s.sigsFile = s.previous := by
  obtain ⟨metas, hmetas, hwritten⟩ := written_signingRun hnodup hdone
  by_cases hadds : s.AddsSigs
  · have hsome : (s.signingRun .first s.previous).written = some (metas.flatMap write) :=
      hwritten.trans (if_pos hadds)
    exact .inl ⟨hadds, metas, hmetas, by rw [sigsFile, hsome, Option.some_or]⟩
  · have hnone : (s.signingRun .first s.previous).written = none :=
      hwritten.trans (if_neg hadds)
    exact .inr ⟨hadds, by rw [sigsFile, hnone, Option.none_or]⟩

/-- If nothing is added, the records are those that were there. -/
lemma recordsOf_perm_of_kept (hdone : s.Succeeds)
    (hnodup : ((s.looked .first s.previous).map a.relativeFilePath).Nodup) (hadds : ¬s.AddsSigs)
    (hprevious : s.previous = some sigsText)
    (hpaths : ((recordsOf sigsText).map (·.filePath)).Nodup) :
    (recordsOf sigsText).Perm s.firstRecords := by
  have hfits := fits_first hdone hnodup
  have hfirst : (s.firstRecords.map (·.filePath)).Nodup := by
    rw [firstRecords, map_recordOf hfits]
    exact hnodup
  refine (List.perm_ext_iff_of_nodup hpaths.of_map hfirst.of_map).2 fun fileMeta => ?_
  have hlookup : (recorded s.previous).lookup fileMeta.filePath = some fileMeta ↔
      fileMeta ∈ recordsOf sigsText := by
    rw [hprevious, lookup_recorded hpaths, and_iff_left rfl]
  rw [← hlookup, firstRecords, List.mem_map]
  constructor
  · intro hsome
    obtain ⟨file, hfile, hpath⟩ := List.mem_map.1 (hfits.found (mem_keys_iff.2 ⟨_, hsome⟩))
    refine ⟨file, hfile, ?_⟩
    rw [recordOf, hpath, hsome]
    rfl
  · rintro ⟨file, hfile, rfl⟩
    rw [(recordOf_eq hfits hfile).1, recordOf]
    cases hnone : (recorded s.previous).lookup (a.relativeFilePath file) with
    | none => exact absurd ⟨file, hfile, hnone⟩ hadds
    | some fileMeta => rfl

/-! ## It settles -/

/-- In all runs the same paths are looked up, with the same times. -/
lemma map_key_looked (run : Run) (sigsText : Text) (h : s.WillSettle) :
    (s.looked run (some sigsText)).map (key a) = (s.looked .first s.previous).map (key a) := by
  by_cases hlooks : s.LooksAtSigsFile
  · obtain ⟨hsome, htimes⟩ := h.sigsFile hlooks
    obtain ⟨previous, hprevious⟩ := Option.isSome_iff_exists.1 hsome
    have hkeys : ∀ run sigsText, (lookedAt a (a.excluded s.excludeEntries)
        (s.sigsFileOnFs run sigsText)).map (key a) =
          (a.sigsFileRelativePath.toList.filter
            (a.lookedUpBy · ∉ a.excluded s.excludeEntries)).map fun relativePath =>
              (a.lookedUpBy relativePath, (s.sigsFileLastModified .first).tdiv 1000) := by
      intro run sigsText
      rw [lookedAt, sigsFileOnFs, List.filter_map, List.map_map]
      refine List.map_congr_left fun relativePath _ => ?_
      change (_, (s.sigsFileLastModified run).tdiv 1000) = _
      rw [htimes run]
      rfl
    rw [hprevious, looked_some, looked_some, List.map_append, List.map_append, hkeys, hkeys]
  · rw [looked_of_not hlooks, looked_of_not hlooks]

lemma map_paths_looked (run : Run) (sigsText : Text) (h : s.WillSettle) :
    (s.looked run (some sigsText)).map a.relativeFilePath =
      (s.looked .first s.previous).map a.relativeFilePath := by
  have hkeys := congrArg (List.map Prod.fst) (map_key_looked run sigsText h)
  rw [List.map_map, List.map_map] at hkeys
  exact hkeys

/-- What is looked up in the first run is what should be signed. -/
lemma paths_first (h : s.WillSettle) :
    ((s.looked .first s.previous).map a.relativeFilePath).Perm
      (s.toSign.map FileOnFs.relativePath) := by
  rw [← map_paths_looked .second [] h]
  exact h.paths

lemma time_eq {file' : FileOnFs} (h : s.WillSettle) (hfile : file ∈ s.looked .first s.previous)
    (hfile' : file' ∈ s.looked run (some sigsText))
    (hpath : a.relativeFilePath file = a.relativeFilePath file') :
    file.unixTimestampInSeconds = file'.unixTimestampInSeconds := by
  have hmem : key a file' ∈ (s.looked .first s.previous).map (key a) := by
    rw [← map_key_looked _ _ h]
    exact List.mem_map_of_mem hfile'
  obtain ⟨same, hsame, hkey⟩ := List.mem_map.1 hmem
  obtain ⟨hpathSame, htime⟩ := Prod.mk.inj hkey
  have hnodup := (paths_first h).nodup_iff.2 nodup_toSign
  rw [← List.inj_on_of_nodup_map hnodup hsame hfile (hpathSame.trans hpath.symm)]
  exact htime

lemma recordsOf_sigsFile (hdone : s.Succeeds) (h : s.WillSettle) :
    ∃ sigsText, s.sigsFile = some sigsText ∧ IsReadable sigsText ∧
      (recordsOf sigsText).Perm s.firstRecords := by
  have hnodup := (paths_first h).nodup_iff.2 nodup_toSign
  have hfits := fits_first hdone hnodup
  rcases sigsFile_cases hdone hnodup with ⟨hadds, metas, hmetas, hsigsFile⟩ | ⟨hadds, hsigsFile⟩
  · have hall : ∀ fileMeta ∈ metas, ∃ file ∈ s.looked .first s.previous,
        recordOf a (s.gpgSign .first s.previous) (recorded s.previous) file = fileMeta :=
      fun fileMeta hmem => List.mem_map.1 (hmetas.mem_iff.1 hmem)
    obtain ⟨hread, hrecords⟩ := @isReadable_writeAll metas
      (fun fileMeta hmem => by
        obtain ⟨file, hfile, rfl⟩ := hall fileMeta hmem
        exact isMade_recordOf hfits hfile)
      (fun fileMeta hmem => by
        obtain ⟨file, hfile, rfl⟩ := hall fileMeta hmem
        rw [(recordOf_eq hfits hfile).1]
        exact (h.writable hadds file hfile).1)
      (fun fileMeta hmem => by
        obtain ⟨file, hfile, rfl⟩ := hall fileMeta hmem
        rw [(recordOf_eq hfits hfile).1, (recordOf_eq hfits hfile).2]
        exact (h.writable hadds file hfile).2)
    exact ⟨_, hsigsFile, hread, by rw [hrecords]; exact hmetas⟩
  · obtain ⟨sigsText, hprevious, hpaths⟩ := h.kept hadds
    exact ⟨sigsText, by rw [hsigsFile, hprevious], isReadable_of_done hdone sigsText hprevious,
      recordsOf_perm_of_kept hdone hnodup hadds hprevious hpaths⟩

/-- A record behind the first run is found by the other runs. -/
lemma lookup_sigsFile {sigsText : Text} (hdone : s.Succeeds) (h : s.WillSettle)
    (hrecords : (recordsOf sigsText).Perm s.firstRecords)
    (hfile : file ∈ s.looked run (some sigsText)) :
    ∃ fileMeta ∈ recordsOf sigsText, fileMeta.filePath = a.relativeFilePath file ∧
      file.unixTimestampInSeconds = fileMeta.unixTimestampInSeconds := by
  have hfits := fits_first hdone ((paths_first h).nodup_iff.2 nodup_toSign)
  have hpath : a.relativeFilePath file ∈ (s.looked .first s.previous).map a.relativeFilePath := by
    rw [← map_paths_looked run sigsText h]
    exact List.mem_map_of_mem hfile
  obtain ⟨first, hfirst, hpath⟩ := List.mem_map.1 hpath
  obtain ⟨hrecordPath, hrecordTime⟩ := recordOf_eq hfits hfirst
  refine ⟨_, hrecords.mem_iff.2 (List.mem_map_of_mem hfirst), hrecordPath.trans hpath, ?_⟩
  rw [hrecordTime, time_eq h hfirst hfile hpath]

/-- The signature of a record behind the first run is made for the file. -/
lemma made_of_mem_firstRecords (hdone : s.Succeeds) (h : s.WillSettle) {fileMeta : FileMeta}
    (hmem : fileMeta ∈ s.firstRecords) :
    ∃ content, s.content .first none fileMeta.filePath = some content ∧
      s.made fileMeta.gpgSignature content = true := by
  have hfits := fits_first hdone ((paths_first h).nodup_iff.2 nodup_toSign)
  obtain ⟨file, hfile, rfl⟩ := List.mem_map.1 hmem
  rw [(recordOf_eq hfits hfile).1, recordOf]
  cases hlookup : (recorded s.previous).lookup (a.relativeFilePath file) with
  | some fileMeta => exact h.made _ _ hlookup
  | none =>
      obtain ⟨content, hcontent, houtput⟩ := accepts_gpgSign (hfits.signed file hfile hlookup)
      obtain ⟨other, hother, hpath⟩ :=
        path_mem_toSign ((paths_first h).mem_iff.1 (List.mem_map_of_mem hfile))
      rw [← hpath, content_eq hother, hpath] at hcontent
      refine ⟨content, hcontent, ?_⟩
      rw [Option.getD_none, houtput]
      exact s.made_sign _ _ _

lemma lookup_table {missing : List FileOnFs} {excludeEntries : List Text} {t : ℤ} {path : Text}
    (h : (buildListOfFilesOnFs a missing excludeEntries).lookup path = some t) :
    ∃ file ∈ lookedAt a excludeEntries missing, a.relativeFilePath file = path ∧
      file.unixTimestampInSeconds = t := by
  induction missing using List.reverseRecOn with
  | nil => cases h
  | append_singleton missing last ih =>
      rw [buildListOfFilesOnFs_append] at h
      rw [lookedAt, List.filter_append]
      split_ifs at h with hexcluded
      · obtain ⟨file, hfile, hsame⟩ := ih h
        exact ⟨file, List.mem_append_left _ hfile, hsame⟩
      · by_cases heq : path = a.relativeFilePath last
        · rw [heq, AList.lookup_insert, Option.some_inj] at h
          refine ⟨last, List.mem_append_right _ ?_, heq.symm, h⟩
          exact List.mem_filter.2 ⟨List.mem_singleton_self _, decide_eq_true hexcluded⟩
        · rw [AList.lookup_insert_ne heq] at h
          obtain ⟨file, hfile, hsame⟩ := ih h
          exact ⟨file, List.mem_append_left _ hfile, hsame⟩

lemma verification_eq {sigsText : Text} (h : s.sigsFile = some sigsText) : s.verification =
    verifyNextEntry (s.gpgVerify (some sigsText)) (linesOf (readAsText sigsText))
      (buildListOfFilesOnFs a (s.iterate .verification (s.present .verification (some sigsText)))
        (a.excluded s.excludeEntries)) 0 := by
  rw [verification, h]
  rfl

/-- **Under these conditions the first run settles the sigs file.** -/
theorem isSettled_of_willSettle (hdone : s.Succeeds) (h : s.WillSettle) : s.IsSettled := by
  have hnodup := (paths_first h).nodup_iff.2 nodup_toSign
  have hfits := fits_first hdone hnodup
  obtain ⟨sigsText, hsigsFile, hread, hrecords⟩ := recordsOf_sigsFile hdone h
  have hpaths : ((recordsOf sigsText).map (·.filePath)).Perm
      ((s.looked .first s.previous).map a.relativeFilePath) := by
    rw [← map_recordOf hfits]
    exact hrecords.map _
  have hrecordsNodup := hpaths.nodup_iff.2 hnodup
  have hlookedNodup : ∀ run, ((s.looked run (some sigsText)).map a.relativeFilePath).Nodup :=
    fun run => by
      rw [map_paths_looked _ _ h]
      exact hnodup
  have hreadable : ∀ text, some sigsText = some text → IsReadable text := fun text htext =>
    Option.some.inj htext ▸ hread
  -- each file of the second run has a record
  have hlookup : ∀ file ∈ s.looked .second (some sigsText), ∃ fileMeta,
      (recorded (some sigsText)).lookup (a.relativeFilePath file) = some fileMeta ∧
        file.unixTimestampInSeconds = fileMeta.unixTimestampInSeconds := fun file hfile => by
    obtain ⟨fileMeta, hmem, hpath, htime⟩ := lookup_sigsFile hdone h hrecords hfile
    exact ⟨fileMeta, (lookup_recorded hrecordsNodup).2 ⟨hmem, hpath⟩, htime⟩
  have hagain : .done true ∈ (s.signingRun .second (some sigsText)).signals := by
    refine (done_signingRun_iff hreadable (hlookedNodup .second)).2 ⟨?_, ?_, ?_⟩
    · intro file hfile fileMeta hsome
      obtain ⟨same, hsame, htime⟩ := hlookup file hfile
      rw [hsame, Option.some_inj] at hsome
      rw [htime, hsome]
    · intro file hfile hnone
      obtain ⟨same, hsame, -⟩ := hlookup file hfile
      rw [hsame] at hnone
      cases hnone
    · rw [map_paths_looked _ _ h]
      exact ((keys_recorded_perm hrecordsNodup).trans hpaths).subset
  refine ⟨?_, ?_, ?_, ?_⟩
  · rw [hsigsFile]
    exact hpaths.trans (paths_first h)
  · rw [hsigsFile]
    exact hagain
  · obtain ⟨metas, -, hwritten⟩ := written_signingRun (hlookedNodup .second) hagain
    rw [hsigsFile, hwritten, if_neg]
    rintro ⟨file, hfile, hnone⟩
    obtain ⟨same, hsame, -⟩ := hlookup file hfile
    rw [hsame] at hnone
    cases hnone
  · rw [verification_eq hsigsFile]
    have htable : ∀ path t, (buildListOfFilesOnFs a
        (s.iterate .verification (s.present .verification (some sigsText)))
          (a.excluded s.excludeEntries)).lookup path = some t →
        ∃ file ∈ s.looked .verification (some sigsText), a.relativeFilePath file = path ∧
          file.unixTimestampInSeconds = t := fun path t ht => by
      obtain ⟨file, hfile, hsame⟩ := lookup_table ht
      exact ⟨file, lookedAt_iterate_perm.mem_iff.1 hfile, hsame⟩
    refine done_of_verified _ _ _ _ ⟨∅, hread⟩ (fun fileMeta hmem t ht => ?_)
      (fun fileMeta hmem => ?_) fun path hpath => ?_
    · obtain ⟨file, hfile, hpath, rfl⟩ := htable _ _ ht
      obtain ⟨same, hsame, hsamePath, htime⟩ := lookup_sigsFile hdone h hrecords hfile
      rw [htime, List.inj_on_of_nodup_map hrecordsNodup hsame hmem (hsamePath.trans hpath)]
    · obtain ⟨content, hcontent, hmade⟩ :=
        made_of_mem_firstRecords hdone h (hrecords.mem_iff.1 hmem)
      have hpath : fileMeta.filePath ∈ s.toSign.map FileOnFs.relativePath :=
        (hpaths.trans (paths_first h)).mem_iff.1 (List.mem_map_of_mem hmem)
      obtain ⟨other, hother, hotherPath⟩ := path_mem_toSign hpath
      refine accepts_gpgVerify.2 ⟨content, ?_, hmade⟩
      rw [← hotherPath, content_eq hother, hotherPath]
      exact hcontent
    · obtain ⟨t, ht⟩ := Option.isSome_iff_exists.1 (AList.lookup_isSome.2 hpath)
      obtain ⟨file, hfile, rfl, -⟩ := htable _ _ ht
      obtain ⟨fileMeta, hmem, hsame, -⟩ := lookup_sigsFile hdone h hrecords hfile
      exact List.mem_map.2 ⟨fileMeta, hmem, hsame⟩

/-! ## Nothing else settles it -/

/-- If the paths without their carriage returns are the same paths, there are none. -/
lemma carriageReturn_not_mem_of_perm {paths : List Text}
    (h : (paths.map readAsText).Perm paths) : ∀ path ∈ paths, '\r' ∉ path := by
  intro path hpath
  obtain ⟨original, -, rfl⟩ := List.mem_map.1 (h.mem_iff.2 hpath)
  exact carriageReturn_not_mem_readAsText

/-- If the sigs file is settled, the second run looks at the files that should be signed. -/
lemma paths_of_isSettled (h : s.IsSettled) :
    ∃ sigsText, s.sigsFile = some sigsText ∧
      ((recordsOf sigsText).map (·.filePath)).Perm (s.toSign.map FileOnFs.relativePath) ∧
      ((s.looked .second (some sigsText)).map a.relativeFilePath).Perm
        ((recordsOf sigsText).map (·.filePath)) := by
  have hverified := h.verified
  have hentries := h.entries
  cases hsigsFile : s.sigsFile with
  | none =>
      rw [verification, hsigsFile] at hverified
      simp [recursivelyVerify] at hverified
  | some sigsText =>
      rw [hsigsFile] at hentries
      have hentries : ((recordsOf sigsText).map (·.filePath)).Perm
        (s.toSign.map FileOnFs.relativePath) := hentries
      have hdone := h.again
      have hwritten := h.nothingWritten
      rw [hsigsFile] at hdone hwritten
      have hread := isReadable_of_done hdone
      rw [signingRun_eq hread] at hdone hwritten
      have hperm : (lookedAt a (a.excluded s.excludeEntries) (s.iterate .second
          (s.present .second (some sigsText)))).Perm (s.looked .second (some sigsText)) :=
        lookedAt_iterate_perm
      exact ⟨sigsText, rfl, hentries, ((hperm.map _).symm.trans
        (perm_of_nothingWritten hdone hwritten)).trans
          (keys_recorded_perm (hentries.nodup_iff.2 nodup_toSign))⟩

lemma nodup_first {sigsText : Text}
    (h : ((s.looked .second (some sigsText)).map a.relativeFilePath).Nodup) :
    ((s.looked .first s.previous).map a.relativeFilePath).Nodup := by
  cases hprevious : s.previous with
  | none =>
      rw [looked_some, List.map_append] at h
      rw [looked_none]
      exact h.of_append_left
  | some previous => rwa [paths_looked .first .second previous sigsText]

/-- If the sigs file appears behind the first run, the second one does not look at it. -/
lemma isSome_previous (hdone : s.Succeeds) (h : s.IsSettled) (hlooks : s.LooksAtSigsFile) :
    s.previous.isSome := by
  obtain ⟨sigsText, hsigsFile, hentries, hlooked⟩ := paths_of_isSettled h
  have hnodup := nodup_first (hlooked.nodup_iff.2 (hentries.nodup_iff.2 nodup_toSign))
  by_contra hnone
  rw [Option.not_isSome_iff_eq_none] at hnone
  rcases sigsFile_cases hdone hnodup with ⟨-, metas, hmetas, hwritten⟩ | ⟨-, hkept⟩
  · have hread : IsReadable sigsText := isReadable_of_done h.again sigsText hsigsFile
    obtain rfl : sigsText = metas.flatMap write :=
      Option.some.inj (hsigsFile.symm.trans hwritten)
    have hfits := fits_first hdone hnodup
    have hmade : ∀ fileMeta ∈ metas, IsMade fileMeta := fun fileMeta hmem => by
      obtain ⟨file, hfile, rfl⟩ := List.mem_map.1 (hmetas.mem_iff.1 hmem)
      exact isMade_recordOf hfits hfile
    obtain ⟨relativePath, hpath, hnot⟩ := hlooks
    have hlooks : (⟨relativePath, s.encode (metas.flatMap write),
        s.sigsFileLastModified .second⟩ : FileOnFs) ∈ lookedAt a (a.excluded s.excludeEntries)
          (s.sigsFileOnFs .second (metas.flatMap write)) :=
      List.mem_filter.2 ⟨List.mem_map.2 ⟨relativePath, Option.mem_toList.2 hpath, rfl⟩,
        decide_eq_true hnot⟩
    have hpos := List.length_pos_of_mem hlooks
    have hlength := hlooked.length_eq
    rw [(isWritable_of_isReadable hmade hread).1, looked_some] at hlength
    simp only [List.length_map, List.length_append] at hlength
    have hsame := hmetas.length_eq
    rw [firstRecords, List.length_map, hnone, looked_none] at hsame
    omega
  · rw [hsigsFile, hnone] at hkept
    cases hkept

lemma paths_first_eq {sigsText : Text} (hsome : s.LooksAtSigsFile → s.previous.isSome) :
    (s.looked .first s.previous).map a.relativeFilePath =
      (s.looked run (some sigsText)).map a.relativeFilePath := by
  cases hprevious : s.previous with
  | some previous => exact paths_looked .first run previous sigsText
  | none =>
      have hnot : ¬s.LooksAtSigsFile := fun hlooks => by
        have hcontra := hsome hlooks
        rw [hprevious] at hcontra
        cases hcontra
      rw [looked_of_not hnot, looked_of_not hnot]

/-- What is written is what is read. -/
lemma records_of_isSettled {sigsText : Text} (hdone : s.Succeeds) (h : s.IsSettled)
    (hsigsFile : s.sigsFile = some sigsText) :
    (recordsOf sigsText).Perm s.firstRecords ∧
      (s.AddsSigs → ∀ file ∈ s.looked .first s.previous, '\r' ∉ a.relativeFilePath file ∧
        IsWritable (a.relativeFilePath file) file.unixTimestampInSeconds) := by
  obtain ⟨sameText, hsameText, hentries, hlooked⟩ := paths_of_isSettled h
  obtain rfl : sigsText = sameText := Option.some.inj (hsigsFile.symm.trans hsameText)
  have hrecordsNodup := hentries.nodup_iff.2 nodup_toSign
  have hnodup := nodup_first (hlooked.nodup_iff.2 hrecordsNodup)
  have hfits := fits_first hdone hnodup
  rcases sigsFile_cases hdone hnodup with ⟨-, metas, hmetas, hwritten⟩ | ⟨hadds, hkept⟩
  · have hread : IsReadable sigsText := isReadable_of_done h.again sigsText hsigsFile
    obtain rfl : sigsText = metas.flatMap write :=
      Option.some.inj (hsigsFile.symm.trans hwritten)
    have hmade : ∀ fileMeta ∈ metas, IsMade fileMeta := fun fileMeta hmem => by
      obtain ⟨file, hfile, rfl⟩ := List.mem_map.1 (hmetas.mem_iff.1 hmem)
      exact isMade_recordOf hfits hfile
    obtain ⟨hrecords, hwritable⟩ := isWritable_of_isReadable hmade hread
    have hmetaPaths : (metas.map (·.filePath)).Perm
        ((s.looked .first s.previous).map a.relativeFilePath) := by
      rw [← map_recordOf hfits]
      exact hmetas.map _
    -- no path loses a carriage return
    have hcr : ∀ path ∈ metas.map (·.filePath), '\r' ∉ path := by
      refine carriageReturn_not_mem_of_perm ?_
      have hread : (metas.map (·.filePath)).map readAsText =
          (recordsOf (metas.flatMap write)).map (·.filePath) := by
        rw [hrecords, List.map_map, List.map_map]
        rfl
      rw [hread]
      refine hlooked.symm.trans ?_
      rw [← paths_first_eq (isSome_previous hdone h)]
      exact hmetaPaths.symm
    have hsame : metas.map withoutCarriageReturns = metas :=
      (List.map_congr_left fun fileMeta hmem => by
        rw [withoutCarriageReturns, readAsText_eq_self (hcr _ (List.mem_map_of_mem hmem))]
        rfl).trans (List.map_id metas)
    refine ⟨by rw [hrecords, hsame]; exact hmetas, fun _ file hfile => ?_⟩
    have hmem := hmetas.mem_iff.2 (List.mem_map_of_mem hfile)
    have hpathCr := hcr _ (List.mem_map_of_mem hmem)
    have hall := hwritable _ hmem
    rw [readAsText_eq_self hpathCr] at hall
    rw [(recordOf_eq hfits hfile).1] at hpathCr hall
    rw [(recordOf_eq hfits hfile).2] at hall
    exact ⟨hpathCr, hall⟩
  · refine ⟨recordsOf_perm_of_kept hdone hnodup hadds (hkept.symm.trans hsigsFile) hrecordsNodup,
      fun h => absurd h hadds⟩

lemma buildListOfFilesOnFs_lookedAt {files : List FileOnFs} {excludeEntries : List Text} :
    buildListOfFilesOnFs a (lookedAt a excludeEntries files) excludeEntries =
      buildListOfFilesOnFs a files excludeEntries := by
  induction files using List.reverseRecOn with
  | nil => rfl
  | append_singleton files last ih =>
      rw [lookedAt, List.filter_append, ← lookedAt, buildListOfFilesOnFs_append]
      by_cases hexcluded : a.relativeFilePath last ∈ excludeEntries
      · rw [List.filter_cons_of_neg (by simpa using hexcluded), List.filter_nil, List.append_nil,
          if_pos hexcluded, ih]
      · rw [List.filter_cons_of_pos (by simpa using hexcluded), List.filter_nil,
          buildListOfFilesOnFs_append, ih]

/-- A file that the verifier looks at has a record with its time that gpg accepts. -/
lemma entry_of_verified {sigsText : Text} (hsigsFile : s.sigsFile = some sigsText)
    (hverified : .done true ∈ s.verification)
    (hnodup : ((s.looked .verification (some sigsText)).map a.relativeFilePath).Nodup)
    (hfile : file ∈ s.looked .verification (some sigsText)) :
    ∃ entry ∈ recordsOf sigsText, entry.filePath = a.relativeFilePath file ∧
      entry.unixTimestampInSeconds = file.unixTimestampInSeconds ∧
        (s.gpgVerify (some sigsText) entry.gpgSignature (a.relativeFilePath file)).Accepts := by
  have hperm : (lookedAt a (a.excluded s.excludeEntries) (s.iterate .verification
      (s.present .verification (some sigsText)))).Perm (s.looked .verification (some sigsText)) :=
    lookedAt_iterate_perm
  rw [verification_eq hsigsFile, ← buildListOfFilesOnFs_lookedAt] at hverified
  have hmem := hperm.mem_iff.2 hfile
  have hlookup := lookup_buildListOfFilesOnFs ((hperm.map a.relativeFilePath).nodup_iff.2 hnodup)
    hmem (of_decide_eq_true (List.mem_filter.1 hmem).2)
  obtain ⟨before, entry, after, hrecords, hpath, htime, haccepts, -⟩ :=
    firstRecord_of_done _ _ _ _ hverified hlookup
  have hentry : entry ∈ recordsOf sigsText := by
    rw [recordsOf, hrecords]
    exact List.mem_append_right _ List.mem_cons_self
  exact ⟨entry, hentry, hpath, htime, haccepts⟩

/-- **A sigs file that the first run settles was settled under these conditions.** -/
theorem willSettle_of_isSettled (hdone : s.Succeeds) (h : s.IsSettled) : s.WillSettle := by
  obtain ⟨sigsText, hsigsFile, hentries, hlooked⟩ := paths_of_isSettled h
  have hrecordsNodup := hentries.nodup_iff.2 nodup_toSign
  have hlookedNodup : ∀ run, ((s.looked run (some sigsText)).map a.relativeFilePath).Nodup :=
    fun run => by
      rw [paths_looked run .second sigsText sigsText]
      exact hlooked.nodup_iff.2 hrecordsNodup
  have hnodup := nodup_first (hlookedNodup .second)
  have hfits := fits_first hdone hnodup
  have hsome := isSome_previous hdone h
  obtain ⟨hrecords, hwritable⟩ := records_of_isSettled hdone h hsigsFile
  have hrecord : ∀ file ∈ s.looked .first s.previous, ∀ entry ∈ recordsOf sigsText,
      entry.filePath = a.relativeFilePath file →
        entry = recordOf a (s.gpgSign .first s.previous) (recorded s.previous) file :=
    fun file hfile entry hentry hpath =>
      List.inj_on_of_nodup_map hrecordsNodup hentry
        (hrecords.mem_iff.2 (List.mem_map_of_mem hfile))
        (hpath.trans (recordOf_eq hfits hfile).1.symm)
  refine ⟨?_, fun hlooks => ⟨hsome hlooks, fun run => ?_⟩, fun path fileMeta hlookup => ?_,
    hwritable, fun hadds => ?_⟩
  · rw [paths_looked .second .second [] sigsText]
    exact hlooked.trans hentries
  · obtain ⟨previous, hprevious⟩ := Option.isSome_iff_exists.1 (hsome hlooks)
    obtain ⟨relativePath, hpath, hnot⟩ := hlooks
    have hmem : ∀ run text, (⟨relativePath, s.encode text, s.sigsFileLastModified run⟩ :
        FileOnFs) ∈ s.looked run (some text) := fun run text => by
      rw [looked_some]
      exact List.mem_append_right _ (List.mem_filter.2 ⟨List.mem_map.2
        ⟨relativePath, Option.mem_toList.2 hpath, rfl⟩, decide_eq_true hnot⟩)
    have hfirst := hmem .first previous
    rw [← hprevious] at hfirst
    have htime := (recordOf_eq hfits hfirst).2
    cases run with
    | first => rfl
    | second =>
        have hagain := h.again
        rw [hsigsFile] at hagain
        have hfitsAgain := (done_signingRun_iff (isReadable_of_done hagain)
          (hlookedNodup .second)).1 hagain
        have hlookup : (recorded (some sigsText)).lookup (a.lookedUpBy relativePath) =
            some (recordOf a (s.gpgSign .first s.previous) (recorded s.previous) _) :=
          (lookup_recorded hrecordsNodup).2 ⟨hrecords.mem_iff.2 (List.mem_map_of_mem hfirst),
            (recordOf_eq hfits hfirst).1⟩
        exact (hfitsAgain.time _ (hmem .second sigsText) _ hlookup).trans htime
    | verification =>
        obtain ⟨entry, hentry, hentryPath, hentryTime, -⟩ := entry_of_verified hsigsFile
          h.verified (hlookedNodup .verification) (hmem .verification sigsText)
        rw [hrecord _ hfirst entry hentry hentryPath, htime] at hentryTime
        exact hentryTime.symm
  · obtain ⟨file, hfile, rfl⟩ := List.mem_map.1 (hfits.found (mem_keys_iff.2 ⟨_, hlookup⟩))
    have hmem : a.relativeFilePath file ∈
        (s.looked .verification (some sigsText)).map a.relativeFilePath := by
      rw [← paths_first_eq hsome]
      exact List.mem_map_of_mem hfile
    obtain ⟨same, hsame, hpath⟩ := List.mem_map.1 hmem
    obtain ⟨entry, hentry, hentryPath, -, haccepts⟩ :=
      entry_of_verified hsigsFile h.verified (hlookedNodup .verification) hsame
    obtain ⟨content, hcontent, hmade⟩ := accepts_gpgVerify.1 haccepts
    have hentryEq := hrecord file hfile entry hentry (hentryPath.trans hpath)
    rw [recordOf, hlookup, Option.getD_some] at hentryEq
    obtain ⟨other, hother, hotherPath⟩ := path_mem_toSign
      ((hlooked.trans hentries).mem_iff.1 (by
        rw [← paths_first_eq hsome]
        exact List.mem_map_of_mem hfile))
    rw [hpath, ← hotherPath, content_eq hother, hotherPath] at hcontent
    exact ⟨content, hcontent, hentryEq ▸ hmade⟩
  · rcases sigsFile_cases hdone hnodup with ⟨hadded, -⟩ | ⟨-, hkept⟩
    · exact absurd hadded hadds
    · exact ⟨sigsText, hkept.symm.trans hsigsFile, hrecordsNodup⟩

/-- Below the root, the files that are looked at are those that should be signed, and the sigs file
if it is not excluded. -/
lemma paths_iff_of_isBelowRoot (h : a.IsBelowRoot) :
    ((s.looked .second (some [])).map a.relativeFilePath).Perm
      (s.toSign.map FileOnFs.relativePath) ↔ ¬s.LooksAtSigsFile := by
  have hothers : lookedAt a (a.excluded s.excludeEntries) s.others = s.toSign := by
    refine List.filter_congr fun file hfile => ?_
    rw [decide_eq_decide, Arguments.relativeFilePath_eq h.2, Arguments.mem_excluded h.1, not_or,
      and_iff_left fun hsigs => s.notSigsFile file hfile hsigs.2]
  have hpaths : s.toSign.map a.relativeFilePath = s.toSign.map FileOnFs.relativePath :=
    List.map_congr_left fun file _ => Arguments.relativeFilePath_eq h.2
  constructor
  · rintro hperm ⟨relativePath, hpath, hnot⟩
    have hmem : (⟨relativePath, s.encode [], s.sigsFileLastModified .second⟩ : FileOnFs) ∈
        lookedAt a (a.excluded s.excludeEntries) (s.sigsFileOnFs .second []) :=
      List.mem_filter.2 ⟨List.mem_map.2 ⟨relativePath, Option.mem_toList.2 hpath, rfl⟩,
        decide_eq_true hnot⟩
    have hpos := List.length_pos_of_mem hmem
    have hlength := hperm.length_eq
    rw [looked_some, hothers, List.length_map, List.length_map, List.length_append] at hlength
    omega
  · intro hnot
    rw [looked_of_not hnot, hothers, hpaths]

/-- **Signing settles the sigs file exactly under these conditions,** if it reports success.

The condition has a field for each thing that can go wrong, about the directory, the exclusions and
the sigs file that was there before.  Signing is slow and asks for a passphrase, so a second run
that signs anything is what a user would notice. -/
theorem isSettled_iff (s : Signing a) (hdone : s.Succeeds) : s.IsSettled ↔ s.WillSettle :=
  ⟨willSettle_of_isSettled hdone, isSettled_of_willSettle hdone⟩

/-! ## Two ways to name a directory -/

def home : AbsolutePath := ⟨["home".toList], by decide⟩

def absoluteArguments : Arguments where
  workingDirectory := home
  dir := "/home/photos".toList
  customDetachedSignaturesFile := "photos/sigs".toList
  sigsFile_ne_root := by decide

def relativeArguments : Arguments where
  workingDirectory := home
  dir := "photos".toList
  customDetachedSignaturesFile := "photos/sigs".toList
  sigsFile_ne_root := by decide

/-- A signature with a letter for each byte. -/
def armor (content : List UInt8) : Text :=
  joinLines (["-----BEGIN PGP SIGNATURE-----".toList, List.replicate content.length 'A'] ++
    [endSigDelimiter])

lemma isArmored_armor (content : List UInt8) : IsArmored (armor content) := by
  refine ⟨_, ?_, ?_, rfl⟩
  · refine List.forall_mem_cons.2 ⟨by decide +kernel, List.forall_mem_singleton.2 fun hmem => ?_⟩
    exact absurd (List.eq_of_mem_replicate hmem) (by decide)
  · rw [List.mem_cons, List.mem_singleton, not_or]
    refine ⟨by decide +kernel, fun heq => ?_⟩
    have hmem : '-' ∈ List.replicate content.length 'A' := heq ▸ by decide +kernel
    exact absurd (List.eq_of_mem_replicate hmem) (by decide)

lemma carriageReturn_not_mem_armor (content : List UInt8) : '\r' ∉ armor content := by
  intro hmem
  obtain ⟨line, hline, hcr⟩ := List.mem_flatMap.1 hmem
  simp only [List.cons_append, List.nil_append, List.mem_cons, List.not_mem_nil, or_false] at hline
  rcases hline with rfl | rfl | rfl
  · exact absurd hcr (by decide +kernel)
  · rcases List.mem_append.1 hcr with hcr | hcr
    · exact absurd (List.eq_of_mem_replicate hcr) (by decide)
    · exact absurd hcr (by decide)
  · exact absurd hcr (by decide +kernel)

/-- One photo, which has not been signed yet. -/
def onePhoto (a : Arguments) (hne : a.customDetachedSignaturesFile ≠ [])
    (hnot : a.filePath "a".toList ≠ a.sigsFileAbsolutePath.text) : Signing a where
  sigsFile_ne_nil := hne
  others := [⟨"a".toList, [1], 5000⟩]
  nodup := List.nodup_singleton _
  notSigsFile := List.forall_mem_singleton.2 hnot
  isLongLong := List.forall_mem_singleton.2 (by decide)
  excludeEntries := []
  previous := none
  encode := fun _ => []
  sigsFileLastModified := fun _ => 6000
  isLongLong_sigsFile := fun _ => by decide
  iterate := fun _ files => files
  iterate_perm := fun _ files => List.Perm.refl files
  readable := fun _ => true
  made := fun signature content => signature = armor content
  sign := fun _ _ content => armor content
  made_sign := fun _ _ _ => decide_eq_true rfl
  isArmored_sign := fun _ _ content => isArmored_armor content
  carriageReturn_sign := fun _ _ content => carriageReturn_not_mem_armor content

def absolutePhoto : Signing absoluteArguments := onePhoto _ (by decide) (by decide)

def relativePhoto : Signing relativeArguments := onePhoto _ (by decide) (by decide)

lemma succeeds_onePhoto {hne : a.customDetachedSignaturesFile ≠ []}
    {hnot : a.filePath "a".toList ≠ a.sigsFileAbsolutePath.text}
    (hlooked : (onePhoto a hne hnot).looked .first none = [⟨"a".toList, [1], 5000⟩])
    (hpath : a.relativeFilePath ⟨"a".toList, [1], 5000⟩ = "a".toList) :
    (onePhoto a hne hnot).Succeeds := by
  refine (done_signingRun_iff (fun _ h => by cases h) ?_).2 ⟨fun file _ fileMeta hsome => ?_,
    fun file hfile _ => ?_, fun path hpath => absurd hpath List.not_mem_nil⟩
  · change (((onePhoto a hne hnot).looked .first none).map _).Nodup
    rw [hlooked]
    exact List.nodup_singleton _
  · cases hsome
  · change file ∈ (onePhoto a hne hnot).looked .first none at hfile
    rw [hlooked] at hfile
    rw [List.mem_singleton.1 hfile, hpath]
    exact ⟨rfl, rfl⟩

lemma not_looksAtSigsFile_absolutePhoto : ¬absolutePhoto.LooksAtSigsFile := by
  rintro ⟨relativePath, hpath, hnot⟩
  have hsigs : absoluteArguments.sigsFileRelativePath = some "sigs".toList := by decide
  rw [hsigs, Option.mem_some_iff] at hpath
  rw [← hpath] at hnot
  exact hnot (by decide)

/-- The directory is given by its absolute path. -/
theorem isSettled_absolutePhoto : absolutePhoto.Succeeds ∧ absolutePhoto.IsSettled := by
  have hsucceeds : absolutePhoto.Succeeds := succeeds_onePhoto (by decide) (by decide)
  have hlooked : absolutePhoto.looked .first none = [⟨"a".toList, [1], 5000⟩] := by decide
  refine ⟨hsucceeds, (isSettled_iff absolutePhoto hsucceeds).2 ⟨?_, ?_, ?_, ?_, ?_⟩⟩
  · rw [paths_iff_of_isBelowRoot ⟨by decide, by decide⟩]
    exact not_looksAtSigsFile_absolutePhoto
  · exact fun hlooks => absurd hlooks not_looksAtSigsFile_absolutePhoto
  · exact fun path fileMeta hsome => by cases hsome
  · intro _ file hfile
    change file ∈ absolutePhoto.looked .first none at hfile
    rw [hlooked] at hfile
    rw [List.mem_singleton.1 hfile]
    exact ⟨by decide, by decide, by decide, by decide⟩
  · intro hnot
    refine absurd ⟨⟨"a".toList, [1], 5000⟩, ?_, rfl⟩ hnot
    change _ ∈ absolutePhoto.looked .first none
    rw [hlooked]
    exact List.mem_singleton_self _

/-- The directory is given by a relative path: the second run signs the sigs file. -/
theorem not_isSettled_relativePhoto :
    ¬∀ (a : Arguments) (s : Signing a), s.Succeeds → s.IsSettled := fun h => by
  have hsettled := h _ relativePhoto (succeeds_onePhoto (by decide) (by decide))
  obtain ⟨sigsText, -, hentries, hlooked⟩ := paths_of_isSettled hsettled
  have hlength := (hlooked.trans hentries).length_eq
  rw [paths_looked .second .second sigsText []] at hlength
  exact absurd hlength (by decide)

end Signing

end Autobackup.RecursiveGpgTools
