import Autobackup.Filesystem.EasyTree
import Autobackup.Foundation.Escaping

/-!
# Lines of last modified timestamps

A `.lastModifiedTimestamps` file has a line for each path, with the second it was last modified at.
Colons are the only thing that is escaped, so a path that ends with the escaping backslash takes
the separator behind it for one of its own characters, and the line is not valid.  All other paths
come back (`ofLine_written_iff`), if nothing but the slash says what is a directory.

Times are milliseconds since 1970, cut down to seconds in the file.  Negative times are included,
and those that do not fit into 64 bits are excluded.  Left out is the codec of the file: characters
are those of a `QString`.
-/

namespace Autobackup.Filesystem

open QString

/-- `m_IllegalFilePath` -/
def illegalFilePath : Text :=
  "......./////////......\\\\\\\\BUTTS;;;\x7d[0+^%12!@#$%^&*()_+=-\x60~-/".toList ++
    "oneofthesehastobe<>,.? ]".toList

structure SimplifiedLastModifiedTimestamp where
  filePath : Text
  isDirectory : Bool
  /-- In milliseconds. -/
  lastModifiedTimestamp : ℤ
  deriving DecidableEq

inductive IsDirectoryDetectionEnum
  | directoryIfEndingInSlashAutoDetection
  | isDirectory
  | isNotDirectory

def detectIfFilePathIsDirectory (filePath : Text) : Bool := filePath.getLast? = some '/'

def appendSlashIfNeeded (inputString : Text) : Text :=
  if inputString.getLast? = some '/' then inputString else inputString ++ ['/']

namespace SimplifiedLastModifiedTimestamp

/-- The parsing constructor, and `isValid`.  The milliseconds are a `qint64`. -/
def ofLine (line : Text) : Option SimplifiedLastModifiedTimestamp :=
  match splitSkippingEmptyParts ':' (replace colonEscaped illegalFilePath line) with
  | [filePath, timestamp] =>
      (toLongLong timestamp).map fun timestamp =>
        let filePath := replace illegalFilePath colon filePath
        { filePath
          isDirectory := detectIfFilePathIsDirectory filePath
          lastModifiedTimestamp := (timestamp * 1000).bmod (2 ^ 64) }
  | _ => none

/-- The serializing constructor. -/
def ofFilePath (filePath : Text) (lastModifiedTimestamp : ℤ) :
    IsDirectoryDetectionEnum → SimplifiedLastModifiedTimestamp
  | .directoryIfEndingInSlashAutoDetection =>
      ⟨filePath, detectIfFilePathIsDirectory filePath, lastModifiedTimestamp⟩
  | .isDirectory => ⟨appendSlashIfNeeded filePath, true, lastModifiedTimestamp⟩
  | .isNotDirectory => ⟨filePath, false, lastModifiedTimestamp⟩

def toColonSeparatedLineOfText (t : SimplifiedLastModifiedTimestamp) : Text :=
  replace colon colonEscaped t.filePath ++
    (colon ++ number (t.lastModifiedTimestamp.tdiv 1000))

end SimplifiedLastModifiedTimestamp

open SimplifiedLastModifiedTimestamp

/-! ## A line is read -/

variable {filePath : Text} {s : ℤ}

lemma borderless_illegalFilePath : Borderless illegalFilePath := by decide +kernel

lemma illegalFilePath_ne_nil : illegalFilePath ≠ [] := by decide

lemma colon_not_mem_illegalFilePath : ':' ∉ illegalFilePath := by decide

/-- The line of a path, whoever writes it. -/
def lineOf (filePath : Text) (s : ℤ) : Text :=
  substitute ':' colonEscaped filePath ++ ':' :: number s

/-- The colon behind a backslash does not separate. -/
lemma ofLine_lineOf_concat : ofLine (lineOf (filePath ++ ['\\']) s) = none := by
  have hnumber : replace colonEscaped illegalFilePath (number s) = number s :=
    replace_of_not_mem (not_mem_number (by decide) (by decide))
  have hreplace : replace colonEscaped illegalFilePath (lineOf (filePath ++ ['\\']) s) =
      substitute ':' illegalFilePath filePath ++ (illegalFilePath ++ number s) := by
    rw [lineOf, colonEscaped, replace_escape_concat (by decide), ← colonEscaped, hnumber]
  have hmem : ':' ∉ substitute ':' illegalFilePath filePath ++ (illegalFilePath ++ number s) := by
    rw [List.mem_append, List.mem_append, not_or, not_or]
    exact ⟨not_mem_substitute colon_not_mem_illegalFilePath, colon_not_mem_illegalFilePath,
      not_mem_number (by decide) (by decide)⟩
  have hne : substitute ':' illegalFilePath filePath ++ (illegalFilePath ++ number s) ≠ [] :=
    List.append_ne_nil_of_right_ne_nil _
      (List.append_ne_nil_of_left_ne_nil illegalFilePath_ne_nil _)
  rw [ofLine, hreplace, splitSkippingEmptyParts_singleton hmem hne]

lemma ofLine_lineOf_nil : ofLine (lineOf [] s) = none := by
  have hcolon : '\\' ∉ ':' :: number s := by
    rw [List.mem_cons, not_or]
    exact ⟨by decide, not_mem_number (by decide) (by decide)⟩
  rw [ofLine, lineOf, substitute_nil, List.nil_append, colonEscaped, replace_of_not_mem hcolon,
    splitSkippingEmptyParts_cons_self,
    splitSkippingEmptyParts_singleton (not_mem_number (by decide) (by decide)) number_ne_nil]

lemma ofLine_lineOf (hfilePath : filePath ≠ []) (hillegal : ¬ illegalFilePath <:+: filePath)
    (hs : IsLongLong (s * 1000)) (hlast : filePath.getLast? ≠ some '\\') :
    ofLine (lineOf filePath s) =
      some ⟨filePath, detectIfFilePathIsDirectory filePath, s * 1000⟩ := by
  have hreplace : replace colonEscaped illegalFilePath (lineOf filePath s) =
      substitute ':' illegalFilePath filePath ++ ':' :: number s := by
    have hcolon : '\\' ∉ ':' :: number s := by
      rw [List.mem_cons, not_or]
      exact ⟨by decide, not_mem_number (by decide) (by decide)⟩
    rw [lineOf, colonEscaped, replace_escape (by decide) fun h => absurd h hlast,
      replace_of_not_mem hcolon]
  have hsplit : splitSkippingEmptyParts ':'
      (substitute ':' illegalFilePath filePath ++ ':' :: number s) =
        [substitute ':' illegalFilePath filePath, number s] := by
    rw [splitSkippingEmptyParts_append (not_mem_substitute colon_not_mem_illegalFilePath)
        (substitute_ne_nil illegalFilePath_ne_nil hfilePath),
      splitSkippingEmptyParts_singleton (not_mem_number (by decide) (by decide)) number_ne_nil]
  have hback : replace illegalFilePath colon (substitute ':' illegalFilePath filePath) = filePath :=
    (replace_substitute_eq_iff illegalFilePath_ne_nil).2
      (borderless_illegalFilePath.recoverable hillegal)
  have hrange : IsLongLong s := by
    unfold IsLongLong at hs ⊢
    omega
  have hbmod : (s * 1000).bmod (2 ^ 64) = s * 1000 := by
    unfold IsLongLong at hs
    exact Int.bmod_eq_of_le (by omega) (by omega)
  rw [ofLine, hreplace, hsplit]
  simp only [toLongLong_number_of_isLongLong hrange, Option.map_some, hback, hbmod]

lemma ofLine_lineOf_eq_none (hlast : filePath.getLast? = some '\\') :
    ofLine (lineOf filePath s) = none := by
  obtain ⟨start, hstart⟩ := List.getLast?_eq_some_iff.1 hlast
  rw [hstart]
  exact ofLine_lineOf_concat

/-- A slash at the end brings neither the backslash nor what is illegal. -/
lemma ofLine_lineOf_slash (hillegal : ¬ illegalFilePath <:+: filePath)
    (hs : IsLongLong (s * 1000)) :
    ofLine (lineOf (filePath ++ ['/']) s) = some ⟨filePath ++ ['/'], true, s * 1000⟩ := by
  have hslash : (filePath ++ ['/']).getLast? = some '/' := List.getLast?_concat
  have hillegal' : ¬ illegalFilePath <:+: filePath ++ ['/'] := fun hpart => by
    rcases List.infix_concat_iff.1 hpart with hsuffix | hpart
    · rcases List.suffix_concat_iff.1 hsuffix with hnil | ⟨start, hconcat, -⟩
      · exact illegalFilePath_ne_nil hnil
      · have hlast : illegalFilePath.getLast? = some '/' := by
          rw [hconcat]
          exact List.getLast?_concat
        exact absurd hlast (by decide)
    · exact hillegal hpart
  have hdetect : detectIfFilePathIsDirectory (filePath ++ ['/']) = true := by
    rw [detectIfFilePathIsDirectory, hslash]
    rfl
  rw [ofLine_lineOf (List.append_ne_nil_of_right_ne_nil _ (List.cons_ne_nil _ _)) hillegal' hs
    (by rw [hslash]; decide), hdetect]

/-! ## What was written is read -/

lemma toColonSeparatedLineOfText_eq (t : SimplifiedLastModifiedTimestamp)
    (ht : t.lastModifiedTimestamp = s * 1000) :
    t.toColonSeparatedLineOfText = lineOf t.filePath s := by
  rw [toColonSeparatedLineOfText, ht, Int.mul_tdiv_cancel s (by decide), colon, replace_singleton]
  rfl

lemma addFileEntry_eq {chopLength : ℕ} {info : FileInfo} (hs : info.lastModified = s * 1000) :
    addFileEntry chopLength .simplifiedLastModifiedTimestamps .dontCalculateMd5Sums info =
      lineOf (info.relativePath chopLength) s := by
  rw [addFileEntry, if_neg (by decide), if_neg (by decide), hs,
    Int.mul_tdiv_cancel s (by decide), colon, replace_singleton, List.append_nil, List.append_nil,
    List.append_assoc]
  rfl

lemma addDirEntry_eq {chopLength : ℕ} {info : FileInfo} (hs : info.lastModified = s * 1000) :
    addDirEntry chopLength .simplifiedLastModifiedTimestamps info =
      lineOf (info.relativePath chopLength ++ ['/']) s := by
  have hslash : substitute ':' colonEscaped ['/'] = ['/'] := substitute_eq_self (by decide)
  rw [addDirEntry, if_neg (by decide), hs, Int.mul_tdiv_cancel s (by decide), colon,
    replace_singleton, List.append_nil, lineOf, substitute_append, hslash, List.append_assoc]
  rfl

/-- Which paths come back. -/
def ComesBack (filePath : Text) : IsDirectoryDetectionEnum → Prop
  | .directoryIfEndingInSlashAutoDetection => filePath.getLast? ≠ some '\\'
  | .isDirectory => True
  | .isNotDirectory => filePath.getLast? ≠ some '\\' ∧ filePath.getLast? ≠ some '/'

lemma ofLine_lineOf_file_iff (hfilePath : filePath ≠ [])
    (hillegal : ¬ illegalFilePath <:+: filePath) (hs : IsLongLong (s * 1000)) :
    ofLine (lineOf filePath s) = some ⟨filePath, false, s * 1000⟩ ↔
      ComesBack filePath .isNotDirectory := by
  by_cases hlast : filePath.getLast? = some '\\'
  · rw [ofLine_lineOf_eq_none hlast]
    exact iff_of_false (Option.some_ne_none _).symm fun h => h.1 hlast
  · rw [ofLine_lineOf hfilePath hillegal hs hlast, Option.some_inj]
    constructor
    · intro heq
      have hdetect : detectIfFilePathIsDirectory filePath = false :=
        congrArg SimplifiedLastModifiedTimestamp.isDirectory heq
      exact ⟨hlast, of_decide_eq_false hdetect⟩
    · intro h
      have hdetect : detectIfFilePathIsDirectory filePath = false := decide_eq_false h.2
      rw [hdetect]

/-- **A line comes back unless its path ends with a backslash.**  Only the slash says what is a
directory, so that of a file does not come back either.

There are three writers, for a file and a directory while treeing, and for an item, and all are read
by the same reader.  The escaping puts a backslash before a colon and leaves backslashes alone, so
it can be undone except at the end of the path.  While it is undone, `illegalFilePath` stands for an
escaped colon, and a path that has it in it is left out. -/
theorem ofLine_written_iff (filePath : Text) (s : ℤ) (hfilePath : filePath ≠ [])
    (hillegal : ¬ illegalFilePath <:+: filePath) (hs : IsLongLong (s * 1000)) :
    (∀ (chopLength : ℕ) (info : FileInfo), info.relativePath chopLength = filePath →
      info.lastModified = s * 1000 →
      (ofLine (addFileEntry chopLength .simplifiedLastModifiedTimestamps .dontCalculateMd5Sums
          info) = some ⟨filePath, false, s * 1000⟩ ↔ ComesBack filePath .isNotDirectory) ∧
      ofLine (addDirEntry chopLength .simplifiedLastModifiedTimestamps info) =
        some ⟨filePath ++ ['/'], true, s * 1000⟩) ∧
    ∀ detection, ofLine (ofFilePath filePath (s * 1000) detection).toColonSeparatedLineOfText =
      some (ofFilePath filePath (s * 1000) detection) ↔ ComesBack filePath detection := by
  refine ⟨fun chopLength info hpath hmodified => ?_, fun detection => ?_⟩
  · rw [addFileEntry_eq hmodified, addDirEntry_eq hmodified, hpath]
    exact ⟨ofLine_lineOf_file_iff hfilePath hillegal hs, ofLine_lineOf_slash hillegal hs⟩
  · have hline := toColonSeparatedLineOfText_eq (s := s) (ofFilePath filePath (s * 1000) detection)
    cases detection with
    | directoryIfEndingInSlashAutoDetection =>
        rw [hline rfl]
        by_cases hlast : filePath.getLast? = some '\\'
        · refine iff_of_false (fun heq => ?_) fun h => h hlast
          rw [ofFilePath, ofLine_lineOf_eq_none hlast] at heq
          exact Option.some_ne_none _ heq.symm
        · exact iff_of_true (ofLine_lineOf hfilePath hillegal hs hlast) hlast
    | isDirectory =>
        rw [hline rfl]
        refine iff_of_true ?_ trivial
        by_cases hslash : filePath.getLast? = some '/'
        · have hdetect : detectIfFilePathIsDirectory filePath = true := decide_eq_true hslash
          have hlast : filePath.getLast? ≠ some '\\' := by
            rw [hslash]
            decide
          rw [ofFilePath, appendSlashIfNeeded, if_pos hslash,
            ofLine_lineOf hfilePath hillegal hs hlast, hdetect]
        · rw [ofFilePath, appendSlashIfNeeded, if_neg hslash, ofLine_lineOf_slash hillegal hs]
    | isNotDirectory =>
        rw [hline rfl]
        exact ofLine_lineOf_file_iff hfilePath hillegal hs

theorem ofLine_written_iff_notes : ofLine
    (ofFilePath "notes: a\\b.txt".toList 5000 .isNotDirectory).toColonSeparatedLineOfText =
      some ⟨"notes: a\\b.txt".toList, false, 5000⟩ :=
  ((ofLine_written_iff "notes: a\\b.txt".toList 5 (by decide) (by decide +kernel)
    (by decide)).2 .isNotDirectory).2 ⟨by decide, by decide⟩

/-- A file whose name ends with a backslash. -/
theorem ofLine_backslash : ofLine
    (addFileEntry 6 .simplifiedLastModifiedTimestamps .dontCalculateMd5Sums
      ⟨"/home/a\\".toList, 0, 0, 5000, none, by decide, by decide, by decide⟩) = none := by
  decide +kernel

end Autobackup.Filesystem
