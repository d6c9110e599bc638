import Autobackup.Foundation.SortedMap
import Autobackup.RecursiveGpgTools.WrittenSigs
import Mathlib.Data.Char
import Mathlib.Data.List.Lex

/-!
# The recursive signer

`RecursivelyGpgSignIntoCustomDetachedSignaturesFormat` first reads in all records of the sigs file.
Then it goes through the files of the directory.  A record of a file is kept if its time is the one
of the file, and gpg signs the file if there is none.  In the end no record may be left, and the
sigs file is written again if there are new signatures.

A run that goes well is determined by the records of the files (`done_iff`, `written_of_done`).
-/

namespace Autobackup.RecursiveGpgTools

open QString

/-- A gpg process that signs: its signature is the output. -/
structure GpgSignRun extends GpgRun where
  errorOutput : Text := []

/-- The message with which `readInAllSigsFromSigFile` stops. -/
def readErrors (lines : List Text) : List Signal :=
  if lines = [] then []
  else
    match _h : readPathAndSignature lines with
    | .error message => [.e message]
    | .ok (_, rest) => readErrors rest
termination_by lines.length
decreasing_by exact readPathAndSignature_length _h

structure Signer where
  allSigsFromSigFile : Sigs
  allSigsForOutputting : SortedMap Text FileMeta
  existingSigs : ℕ
  addedSigs : ℕ
  totalSigs : ℕ

/-- What is emitted, and what the sigs file is written with. -/
structure SigningRun where
  signals : List Signal
  written : Option Text

namespace Signer

/-- The record of a file goes to those for outputting. -/
def keep (st : Signer) (relativeFilePath : Text) (fileMeta : FileMeta) : Signer :=
  { st with
    allSigsForOutputting := st.allSigsForOutputting.insert relativeFilePath fileMeta
    allSigsFromSigFile := st.allSigsFromSigFile.erase relativeFilePath }

/-- A file has been signed. -/
def add (st : Signer) (fileMeta : FileMeta) : Signer :=
  { st with
    allSigsForOutputting := st.allSigsForOutputting.insert fileMeta.filePath fileMeta
    addedSigs := st.addedSigs + 1
    totalSigs := st.totalSigs + 1 }

/-- What happens behind the last entry. -/
def finishSigning (st : Signer) : SigningRun :=
  if st.allSigsFromSigFile.keys ≠ [] then
    { signals :=
        [.e "the below files in the gpg signatures file were not found on the filesystem:".toList,
          .e []] ++ st.allSigsFromSigFile.keys.map .e ++
        [.e [],
          .e "the above files in the gpg signatures file were not found on the filesystem".toList,
          .done false]
      written := none }
  else
    { signals :=
        [.e ("(sigs, existing: ".toList ++ number st.existingSigs ++ ", added: ".toList ++
            number st.addedSigs ++ ", total: ".toList ++ number st.totalSigs ++ ")".toList),
          .e ("done recursively signing directory -- everything OK".toList ++
            if 0 < st.addedSigs then [] else " (nothing added)".toList),
          .done true]
      written :=
        -- the sigs file is only written over if there is a new signature
        if 0 < st.addedSigs then
          some ((st.allSigsForOutputting.entries.map Prod.snd).flatMap write)
        else none }

end Signer

/-- `handleGpgProcessError`, which does not stop the signer. -/
def handleGpgSigningError (filePath : Text) (processError : ℕ) : List Signal :=
  [.e ("gpg qprocess error: '".toList ++ number processError ++
      "' while trying to sign file: ".toList ++ filePath),
    .done false]

/-- What `handleGpgProcessFinished` emits where it stops. -/
def gpgSigningFailed (run : GpgSignRun) (filePath : Text) : List Signal :=
  [.e run.errorOutput, .e run.output,
    .e (if run.normalExit then
        "gpg did not exit with code 0. gpg exitted with code: ".toList ++ number run.exitCode ++
          " while trying to sign file: ".toList ++ filePath
      else "gpg did not exit normally when trying to sign file: ".toList ++ filePath),
    .done false]

/-- `recursivelyGpgSignDirEntriesAndEmitFinishedWhenNoMore` -/
def signDirEntries (a : Arguments) (gpg : Text → GpgSignRun) (excludeEntries : List Text) :
    List FileOnFs → Signer → SigningRun
  | [], st => st.finishSigning
  | file :: files, st =>
      let relativeFilePath := a.relativeFilePath file
      if relativeFilePath ∈ excludeEntries then signDirEntries a gpg excludeEntries files st
      else
        match st.allSigsFromSigFile.lookup relativeFilePath with
        | some fileMeta =>
            -- signed before, and changed since: the run stops, and nothing is written
            if file.unixTimestampInSeconds ≠ fileMeta.unixTimestampInSeconds then
              ⟨timestampsDiffer file.unixTimestampInSeconds fileMeta ++ [.done false], none⟩
            else
              signDirEntries a gpg excludeEntries files (st.keep relativeFilePath fileMeta)
        | none =>
            let run := gpg relativeFilePath
            let errors := run.errors.flatMap (handleGpgSigningError relativeFilePath)
            if run.normalExit ∧ run.exitCode = 0 then
              let signed := signDirEntries a gpg excludeEntries files
                (st.add ⟨relativeFilePath, run.output, file.unixTimestampInSeconds⟩)
              ⟨errors ++ signed.signals, signed.written⟩
            else ⟨errors ++ gpgSigningFailed run relativeFilePath, none⟩

/-- `recursivelyGpgSignIntoCustomDetachedSignaturesFormat`, for the text of the sigs file if it
exists. -/
def recursivelySign (a : Arguments) (files : List FileOnFs) (excludeEntries : List Text)
    (gpg : Text → GpgSignRun) (sigsFile : Option Text) : SigningRun :=
  match sigsFile with
  | none => signDirEntries a gpg (a.excluded excludeEntries) files ⟨∅, .empty, 0, 0, 0⟩
  | some text =>
      let lines := linesOf (readAsText text)
      match readInAllSigsFromSigFile lines ∅ with
      | (false, _) => ⟨readErrors lines ++ [.done false], none⟩
      | (true, sigs) =>
          signDirEntries a gpg (a.excluded excludeEntries) files
            ⟨sigs, .empty, sigs.keys.length, 0, sigs.keys.length⟩

/-! ## Runs that go well -/

variable {a : Arguments} {gpg : Text → GpgSignRun} {excludeEntries : List Text}
  {file : FileOnFs} {files : List FileOnFs} {st : Signer} {sigs : Sigs}

/-- The files that are looked at. -/
def lookedAt (a : Arguments) (excludeEntries : List Text) (files : List FileOnFs) :
    List FileOnFs :=
  files.filter (a.relativeFilePath · ∉ excludeEntries)

/-- The record of a file behind a run that goes well. -/
def recordOf (a : Arguments) (gpg : Text → GpgSignRun) (sigs : Sigs) (file : FileOnFs) :
    FileMeta :=
  (sigs.lookup (a.relativeFilePath file)).getD
    ⟨a.relativeFilePath file, (gpg (a.relativeFilePath file)).output, file.unixTimestampInSeconds⟩

/-- The records belong to the files that are looked at, and the other files can be signed. -/
structure Fits (a : Arguments) (gpg : Text → GpgSignRun) (sigs : Sigs) (looked : List FileOnFs) :
    Prop where
  time : ∀ file ∈ looked, ∀ fileMeta, sigs.lookup (a.relativeFilePath file) = some fileMeta →
    file.unixTimestampInSeconds = fileMeta.unixTimestampInSeconds
  signed : ∀ file ∈ looked, sigs.lookup (a.relativeFilePath file) = none →
    (gpg (a.relativeFilePath file)).Accepts
  found : sigs.keys ⊆ looked.map a.relativeFilePath

lemma lookedAt_cons_of_mem (h : a.relativeFilePath file ∈ excludeEntries) :
    lookedAt a excludeEntries (file :: files) = lookedAt a excludeEntries files :=
  List.filter_cons_of_neg (by simpa using h)

lemma lookedAt_cons_of_not_mem (h : a.relativeFilePath file ∉ excludeEntries) :
    lookedAt a excludeEntries (file :: files) = file :: lookedAt a excludeEntries files :=
  List.filter_cons_of_pos (decide_eq_true h)

lemma done_not_mem_signingErrors {errors : List ℕ} {path : Text} :
    Signal.done true ∉ errors.flatMap (handleGpgSigningError path) := fun h => by
  obtain ⟨error, -, herror⟩ := List.mem_flatMap.1 h
  simp [handleGpgSigningError] at herror

lemma done_not_mem_gpgSigningFailed {run : GpgSignRun} {path : Text} :
    Signal.done true ∉ gpgSigningFailed run path := by
  simp only [gpgSigningFailed, List.mem_cons, List.not_mem_nil, reduceCtorEq, Signal.done.injEq,
    Bool.true_eq_false, or_self, not_false_eq_true]

lemma done_mem_finishSigning :
    Signal.done true ∈ st.finishSigning.signals ↔ st.allSigsFromSigFile.keys = [] := by
  by_cases hkeys : st.allSigsFromSigFile.keys = []
  · rw [Signer.finishSigning, if_neg (not_not.2 hkeys)]
    exact iff_of_true (List.mem_cons_of_mem _ (List.mem_cons_of_mem _ List.mem_cons_self)) hkeys
  · rw [Signer.finishSigning, if_pos hkeys]
    refine iff_of_false ?_ hkeys
    simp only [List.mem_append, List.mem_cons, List.mem_map, List.not_mem_nil, reduceCtorEq,
      Signal.done.injEq, Bool.true_eq_false, and_false, exists_false, or_self, not_false_eq_true]

lemma written_finishSigning (hkeys : st.allSigsFromSigFile.keys = []) :
    st.finishSigning.written = if 0 < st.addedSigs then
      some ((st.allSigsForOutputting.entries.map Prod.snd).flatMap write) else none := by
  rw [Signer.finishSigning, if_neg (not_not.2 hkeys)]

lemma mem_keys_iff {path : Text} :
    path ∈ sigs.keys ↔ ∃ fileMeta, sigs.lookup path = some fileMeta := by
  rw [← AList.mem_keys, ← AList.lookup_isSome, Option.isSome_iff_exists]

/-- A file that is in the sigs file. -/
lemma fits_cons_of_some {fileMeta : FileMeta}
    (hnew : a.relativeFilePath file ∉ files.map a.relativeFilePath)
    (hlookup : sigs.lookup (a.relativeFilePath file) = some fileMeta) :
    Fits a gpg sigs (file :: files) ↔
      file.unixTimestampInSeconds = fileMeta.unixTimestampInSeconds ∧
        Fits a gpg (sigs.erase (a.relativeFilePath file)) files := by
  have hne : ∀ other ∈ files, a.relativeFilePath other ≠ a.relativeFilePath file :=
    fun other hother heq => hnew (heq ▸ List.mem_map_of_mem hother)
  constructor
  · intro h
    refine ⟨h.time file List.mem_cons_self fileMeta hlookup, fun other hother => ?_,
      fun other hother => ?_, fun path hpath => ?_⟩
    · rw [AList.lookup_erase_ne (hne other hother)]
      exact h.time other (List.mem_cons_of_mem _ hother)
    · rw [AList.lookup_erase_ne (hne other hother)]
      exact h.signed other (List.mem_cons_of_mem _ hother)
    · obtain ⟨hpathNe, hmem⟩ := AList.mem_erase.1 hpath
      exact (List.mem_cons.1 (h.found hmem)).resolve_left hpathNe
  · rintro ⟨htime, h⟩
    refine ⟨List.forall_mem_cons.2 ⟨fun other hother => ?_, fun other hother => ?_⟩,
      List.forall_mem_cons.2 ⟨fun hnone => ?_, fun other hother => ?_⟩, fun path hpath => ?_⟩
    · rw [hlookup, Option.some_inj] at hother
      rw [htime, hother]
    · have hlater := h.time other hother
      rw [AList.lookup_erase_ne (hne other hother)] at hlater
      exact hlater
    · rw [hlookup] at hnone
      cases hnone
    · have hlater := h.signed other hother
      rw [AList.lookup_erase_ne (hne other hother)] at hlater
      exact hlater
    · by_cases heq : path = a.relativeFilePath file
      · rw [heq]
        exact List.mem_cons_self
      · exact List.mem_cons_of_mem _ (h.found (AList.mem_erase.2 ⟨heq, hpath⟩))

/-- A file that is not in the sigs file. -/
lemma fits_cons_of_none (hlookup : sigs.lookup (a.relativeFilePath file) = none) :
    Fits a gpg sigs (file :: files) ↔
      (gpg (a.relativeFilePath file)).Accepts ∧ Fits a gpg sigs files := by
  constructor
  · intro h
    refine ⟨h.signed file List.mem_cons_self hlookup, fun other hother =>
      h.time other (List.mem_cons_of_mem _ hother), fun other hother =>
        h.signed other (List.mem_cons_of_mem _ hother), fun path hpath => ?_⟩
    refine (List.mem_cons.1 (h.found hpath)).resolve_left fun heq => ?_
    obtain ⟨fileMeta, hsome⟩ := mem_keys_iff.1 hpath
    rw [heq, hlookup] at hsome
    cases hsome
  · rintro ⟨haccepts, h⟩
    refine ⟨List.forall_mem_cons.2 ⟨fun other hother => ?_, h.time⟩,
      List.forall_mem_cons.2 ⟨fun _ => haccepts, h.signed⟩,
      List.Subset.trans h.found (List.subset_cons_self _ _)⟩
    rw [hlookup] at hother
    cases hother

/-- **A run goes well exactly if the records fit.**  By induction on the entries. -/
theorem done_iff (hnodup : ((lookedAt a excludeEntries files).map a.relativeFilePath).Nodup) :
    .done true ∈ (signDirEntries a gpg excludeEntries files st).signals ↔
      Fits a gpg st.allSigsFromSigFile (lookedAt a excludeEntries files) := by
  induction files generalizing st with
  | nil =>
      rw [signDirEntries, done_mem_finishSigning]
      refine ⟨fun hkeys => ⟨by simp [lookedAt], by simp [lookedAt], by simp [hkeys]⟩, fun h => ?_⟩
      exact List.subset_nil.1 h.found
  | cons file files ih =>
      rw [signDirEntries]
      by_cases hexcluded : a.relativeFilePath file ∈ excludeEntries
      · rw [lookedAt_cons_of_mem hexcluded] at hnodup ⊢
        rw [if_pos hexcluded]
        exact ih hnodup
      · rw [lookedAt_cons_of_not_mem hexcluded] at hnodup ⊢
        rw [List.map_cons, List.nodup_cons] at hnodup
        rw [if_neg hexcluded]
        cases hlookup : st.allSigsFromSigFile.lookup (a.relativeFilePath file) with
        | some fileMeta =>
            rw [fits_cons_of_some hnodup.1 hlookup]
            simp only
            split_ifs with htime
            · exact iff_of_false (by simp [timestampsDiffer]) fun h => htime h.1
            · rw [ih hnodup.2, and_iff_right (not_not.1 htime)]
              rfl
        | none =>
            rw [fits_cons_of_none hlookup]
            simp only
            split_ifs with haccepts
            · have haccepted : (gpg (a.relativeFilePath file)).Accepts := haccepts
              rw [List.mem_append, or_iff_right done_not_mem_signingErrors, ih hnodup.2,
                and_iff_right haccepted]
              rfl
            · refine iff_of_false (fun h => ?_) fun h => haccepts h.1
              rcases List.mem_append.1 h with h | h
              · exact done_not_mem_signingErrors h
              · exact done_not_mem_gpgSigningFailed h

/-- The records behind a run that goes well, in the order of their paths. -/
lemma written_of_done (hnodup : ((lookedAt a excludeEntries files).map a.relativeFilePath).Nodup)
    (hnew : ∀ file ∈ lookedAt a excludeEntries files,
      st.allSigsForOutputting.lookup (a.relativeFilePath file) = none)
    (hdone : .done true ∈ (signDirEntries a gpg excludeEntries files st).signals) :
    ∃ metas : List FileMeta, metas.Perm (st.allSigsForOutputting.entries.map Prod.snd ++
        (lookedAt a excludeEntries files).map (recordOf a gpg st.allSigsFromSigFile)) ∧
      (signDirEntries a gpg excludeEntries files st).written =
        if 0 < st.addedSigs ∨ ∃ file ∈ lookedAt a excludeEntries files,
          st.allSigsFromSigFile.lookup (a.relativeFilePath file) = none
        then some (metas.flatMap write) else none := by
  induction files generalizing st with
  | nil =>
      rw [signDirEntries, done_mem_finishSigning] at hdone
      refine ⟨st.allSigsForOutputting.entries.map Prod.snd,
        by rw [lookedAt, List.filter_nil, List.map_nil, List.append_nil], ?_⟩
      rw [signDirEntries, written_finishSigning hdone]
      simp [lookedAt]
  | cons file files ih =>
      rw [signDirEntries] at hdone ⊢
      by_cases hexcluded : a.relativeFilePath file ∈ excludeEntries
      · rw [lookedAt_cons_of_mem hexcluded] at hnodup hnew ⊢
        rw [if_pos hexcluded] at hdone ⊢
        exact ih hnodup hnew hdone
      · rw [lookedAt_cons_of_not_mem hexcluded] at hnodup hnew ⊢
        rw [List.map_cons, List.nodup_cons] at hnodup
        rw [if_neg hexcluded] at hdone ⊢
        obtain ⟨hfirst, hrest⟩ := List.forall_mem_cons.1 hnew
        have hne : ∀ other ∈ lookedAt a excludeEntries files,
            a.relativeFilePath other ≠ a.relativeFilePath file := fun other hother heq =>
          hnodup.1 (heq ▸ List.mem_map_of_mem hother)
        have hinserted : ∀ fileMeta, ∀ other ∈ lookedAt a excludeEntries files,
            (st.allSigsForOutputting.insert (a.relativeFilePath file) fileMeta).lookup
              (a.relativeFilePath other) = none := by
          intro fileMeta other hother
          by_contra hsome
          obtain ⟨found, hfound⟩ := Option.ne_none_iff_exists'.1 hsome
          rcases (SortedMap.lookup_insert_eq_some hfirst).1 hfound with ⟨heq, -⟩ | hold
          · exact hne other hother heq
          · rw [hrest other hother] at hold
            cases hold
        have hentries : ∀ fileMeta, ((st.allSigsForOutputting.insert (a.relativeFilePath file)
            fileMeta).entries.map Prod.snd).Perm
              (fileMeta :: st.allSigsForOutputting.entries.map Prod.snd) := fun fileMeta =>
          (SortedMap.insert_perm hfirst).map Prod.snd
        cases hlookup : st.allSigsFromSigFile.lookup (a.relativeFilePath file) with
        | some fileMeta =>
            rw [hlookup] at hdone
            simp only at hdone ⊢
            split_ifs at hdone with htime
            · simp [timestampsDiffer] at hdone
            · rw [if_neg htime]
              have herase : ∀ other ∈ lookedAt a excludeEntries files,
                  (st.keep (a.relativeFilePath file) fileMeta).allSigsFromSigFile.lookup
                    (a.relativeFilePath other) =
                      st.allSigsFromSigFile.lookup (a.relativeFilePath other) :=
                fun other hother => AList.lookup_erase_ne (hne other hother)
              obtain ⟨metas, hperm, hwritten⟩ := ih hnodup.2 (hinserted fileMeta) hdone
              refine ⟨metas, ?_, ?_⟩
              · have hsame : (lookedAt a excludeEntries files).map
                    (recordOf a gpg (st.keep (a.relativeFilePath file)
                      fileMeta).allSigsFromSigFile) =
                    (lookedAt a excludeEntries files).map (recordOf a gpg st.allSigsFromSigFile) :=
                  List.map_congr_left fun other hother => by
                    rw [recordOf, recordOf, herase other hother]
                have hthis : recordOf a gpg st.allSigsFromSigFile file = fileMeta := by
                  rw [recordOf, hlookup]
                  rfl
                rw [hsame] at hperm
                rw [List.map_cons, hthis]
                exact (hperm.trans ((hentries fileMeta).append_right _)).trans
                  List.perm_middle.symm
              · rw [hwritten]
                refine if_congr ?_ rfl rfl
                refine or_congr Iff.rfl ⟨?_, ?_⟩
                · rintro ⟨other, hother, hnone⟩
                  exact ⟨other, List.mem_cons_of_mem _ hother,
                    by rwa [herase other hother] at hnone⟩
                · rintro ⟨other, hother, hnone⟩
                  rcases List.mem_cons.1 hother with rfl | hother
                  · rw [hlookup] at hnone
                    cases hnone
                  · exact ⟨other, hother, by rwa [herase other hother]⟩
        | none =>
            rw [hlookup] at hdone
            simp only at hdone ⊢
            split_ifs at hdone with haccepts
            · rw [if_pos haccepts]
              have hlater := (List.mem_append.1 hdone).resolve_left done_not_mem_signingErrors
              obtain ⟨metas, hperm, hwritten⟩ :=
                ih hnodup.2 (hinserted ⟨a.relativeFilePath file,
                  (gpg (a.relativeFilePath file)).output, file.unixTimestampInSeconds⟩) hlater
              refine ⟨metas, ?_, ?_⟩
              · have hthis : recordOf a gpg st.allSigsFromSigFile file =
                    ⟨a.relativeFilePath file, (gpg (a.relativeFilePath file)).output,
                      file.unixTimestampInSeconds⟩ := by
                  rw [recordOf, hlookup]
                  rfl
                rw [List.map_cons, hthis]
                exact (hperm.trans ((hentries _).append_right _)).trans List.perm_middle.symm
              · rw [hwritten, if_pos (.inl (Nat.succ_pos _)),
                  if_pos (.inr ⟨file, List.mem_cons_self, hlookup⟩)]
            · rcases List.mem_append.1 hdone with h | h
              · exact absurd h done_not_mem_signingErrors
              · exact absurd h done_not_mem_gpgSigningFailed

/-- What has been signed is written. -/
lemma written_ne_none (hadded : 0 < st.addedSigs)
    (hdone : .done true ∈ (signDirEntries a gpg excludeEntries files st).signals) :
    (signDirEntries a gpg excludeEntries files st).written ≠ none := by
  induction files generalizing st with
  | nil =>
      rw [signDirEntries, done_mem_finishSigning] at hdone
      rw [signDirEntries, written_finishSigning hdone, if_pos hadded]
      exact Option.some_ne_none _
  | cons file files ih =>
      rw [signDirEntries] at hdone ⊢
      split_ifs at hdone ⊢ with hexcluded
      · exact ih hadded hdone
      · cases hlookup : st.allSigsFromSigFile.lookup (a.relativeFilePath file) with
        | some fileMeta =>
            rw [hlookup] at hdone
            simp only at hdone ⊢
            split_ifs at hdone ⊢ with htime
            · simp [timestampsDiffer] at hdone
            · exact ih hadded hdone
        | none =>
            rw [hlookup] at hdone
            simp only at hdone ⊢
            split_ifs at hdone ⊢ with haccepts
            · exact ih (Nat.succ_pos _)
                ((List.mem_append.1 hdone).resolve_left done_not_mem_signingErrors)
            · rcases List.mem_append.1 hdone with h | h
              · exact absurd h done_not_mem_signingErrors
              · exact absurd h done_not_mem_gpgSigningFailed

/-- **If nothing is written, the records are those of the files that are looked at.** -/
theorem perm_of_nothingWritten
    (hdone : .done true ∈ (signDirEntries a gpg excludeEntries files st).signals)
    (hwritten : (signDirEntries a gpg excludeEntries files st).written = none) :
    ((lookedAt a excludeEntries files).map a.relativeFilePath).Perm st.allSigsFromSigFile.keys := by
  induction files generalizing st with
  | nil =>
      rw [signDirEntries, done_mem_finishSigning] at hdone
      rw [hdone]
      exact List.Perm.refl _
  | cons file files ih =>
      rw [signDirEntries] at hdone hwritten
      by_cases hexcluded : a.relativeFilePath file ∈ excludeEntries
      · rw [if_pos hexcluded] at hdone hwritten
        rw [lookedAt_cons_of_mem hexcluded]
        exact ih hdone hwritten
      · rw [if_neg hexcluded] at hdone hwritten
        rw [lookedAt_cons_of_not_mem hexcluded]
        cases hlookup : st.allSigsFromSigFile.lookup (a.relativeFilePath file) with
        | some fileMeta =>
            rw [hlookup] at hdone hwritten
            simp only at hdone hwritten
            split_ifs at hdone hwritten with htime
            · simp [timestampsDiffer] at hdone
            · have hlater := ih hdone hwritten
              rw [Signer.keep, AList.keys_erase] at hlater
              exact (hlater.cons _).trans (@List.perm_cons_erase _ instBEqOfDecidableEq
                inferInstance _ _ (mem_keys_iff.2 ⟨fileMeta, hlookup⟩)).symm
        | none =>
            rw [hlookup] at hdone hwritten
            simp only at hdone hwritten
            split_ifs at hdone hwritten with haccepts
            · exact absurd hwritten (written_ne_none (Nat.succ_pos _)
                ((List.mem_append.1 hdone).resolve_left done_not_mem_signingErrors))
            · rcases List.mem_append.1 hdone with h | h
              · exact absurd h done_not_mem_signingErrors
              · exact absurd h done_not_mem_gpgSigningFailed

end Autobackup.RecursiveGpgTools
