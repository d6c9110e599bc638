import Autobackup.Foundation.AbsolutePath

/-!
# The target directory and its sigs file

The signer and the verifier are given a directory and a sigs file by texts.  They find the relative
path of a file by its distance from the absolute path of the directory, and exclude the sigs file
if its absolute path starts with the text of the directory.

Both go well unless the text is empty or the directory is the root: there one character too many is
left out (`relativeFilePath_eq`), and elsewhere nothing but the sigs file is excluded
(`mem_excluded`).
-/

namespace Autobackup.RecursiveGpgTools

open QString

/-- How the directory and the sigs file are named. -/
structure Arguments where
  workingDirectory : AbsolutePath
  dir : Text
  customDetachedSignaturesFile : Text
  /-- A file is not the root. -/
  sigsFile_ne_root :
    (AbsolutePath.absolute workingDirectory customDetachedSignaturesFile).names ≠ []

/-- A file of the directory, with its path in it.  The time is in milliseconds. -/
structure FileOnFs where
  relativePath : Text
  content : List UInt8
  lastModified : ℤ
  deriving DecidableEq

def FileOnFs.unixTimestampInSeconds (file : FileOnFs) : ℤ := file.lastModified.tdiv 1000

namespace Arguments

variable (a : Arguments)

/-- `QDir(dir).absolutePath()` -/
def absolutePath : AbsolutePath := AbsolutePath.absolute a.workingDirectory a.dir

/-- `QFileInfo(customDetachedSignaturesFile).absoluteFilePath()` -/
def sigsFileAbsolutePath : AbsolutePath :=
  AbsolutePath.absolute a.workingDirectory a.customDetachedSignaturesFile

/-- The path of an entry, as the iterator over the directory gives it. -/
def filePath (relativePath : Text) : Text := a.absolutePath.withSlash ++ relativePath

/-- `filePath.mid(m_CharacterLengthOfAbsolutePathOfTargetDir_IncludingTrailingSlash)` -/
def relativeFilePath (file : FileOnFs) : Text :=
  (a.filePath file.relativePath).drop (a.absolutePath.text.length + 1)

/-- `excludeEntriesWithInputSigsFilePossiblyAddedToExclusionList` -/
def excluded (excludeEntries : List Text) : List Text :=
  if appendSlashIfNeeded a.dir <+: a.sigsFileAbsolutePath.text then
    excludeEntries ++ [a.sigsFileAbsolutePath.text.drop (appendSlashIfNeeded a.dir).length]
  else excludeEntries

/-- The directory is named by something, and is not the root. -/
def IsBelowRoot : Prop := a.dir ≠ [] ∧ a.absolutePath.names ≠ []

def IsSigsFile (file : FileOnFs) : Prop :=
  a.filePath file.relativePath = a.sigsFileAbsolutePath.text

instance (file : FileOnFs) : Decidable (a.IsSigsFile file) :=
  inferInstanceAs (Decidable (_ = _))

variable {a} {file : FileOnFs} {excludeEntries : List Text} {path : Text}

/-- **Below the root the relative paths are the ones in the directory.** -/
lemma relativeFilePath_eq (h : a.absolutePath.names ≠ []) :
    a.relativeFilePath file = file.relativePath := by
  have hlength : a.absolutePath.withSlash.length = a.absolutePath.text.length + 1 := by
    rw [AbsolutePath.withSlash_eq h, List.length_append]
    rfl
  rw [relativeFilePath, filePath, ← hlength, List.drop_left]

lemma relativeFilePath_root (h : a.absolutePath.names = []) :
    a.relativeFilePath file = file.relativePath.drop 1 := by
  rw [relativeFilePath, filePath, AbsolutePath.withSlash, AbsolutePath.text, if_pos h, h]
  rfl

/-- If the text of the directory is in front of the sigs file, it is the one of the absolute
path. -/
lemma withSlash_of_isPrefix (hdir : a.dir ≠ [])
    (h : appendSlashIfNeeded a.dir <+: a.sigsFileAbsolutePath.text) :
    a.absolutePath.withSlash = appendSlashIfNeeded a.dir :=
  AbsolutePath.withSlash_absolute hdir h

/-- **Besides the given entries nothing but the sigs file is excluded.** -/
lemma mem_excluded (hdir : a.dir ≠ []) : path ∈ a.excluded excludeEntries ↔
    path ∈ excludeEntries ∨ appendSlashIfNeeded a.dir <+: a.sigsFileAbsolutePath.text ∧
      a.filePath path = a.sigsFileAbsolutePath.text := by
  rw [excluded]
  split_ifs with h
  · have hslash := withSlash_of_isPrefix hdir h
    obtain ⟨rest, hrest⟩ := h
    rw [List.mem_append, List.mem_singleton, ← hrest, List.drop_left, filePath, hslash,
      List.append_cancel_left_eq, and_iff_right (List.prefix_append _ rest)]
  · exact (or_iff_left fun hpart => h hpart.1).symm

end Arguments

end Autobackup.RecursiveGpgTools
