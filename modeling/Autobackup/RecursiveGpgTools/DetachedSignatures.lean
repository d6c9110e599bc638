import Autobackup.Foundation.Escaping
import Autobackup.Foundation.TextLines
import Mathlib.Data.List.AList

/-!
# Files of detached signatures

A record has a line with the path of a file and the second it was last modified at, and the armored
signature of the file, which ends with a line of its own.  `operator<<` writes a record, and
`readInAllSigsFromSigFile` reads all of them.

Not all that is written is read (`readsBack_iff`): the reader rejects a time before 1970, and the
separator behind a path that ends with a backslash is taken for an escaped colon.

A file of signatures is a list of records in the order of the paths, and what is read is a table
with the paths as keys, so the paths have to differ.  Left out are failures to open or to commit the
file.
-/

namespace Autobackup.RecursiveGpgTools

open QString

structure RecursiveCustomDetachedSignaturesFileMeta where
  filePath : Text
  gpgSignature : Text
  unixTimestampInSeconds : ℤ
  deriving DecidableEq

abbrev FileMeta := RecursiveCustomDetachedSignaturesFileMeta

/-- `QHash<QString, RecursiveCustomDetachedSignaturesFileMeta>` -/
abbrev Sigs := AList fun _ : Text => FileMeta

def endSigDelimiter : Text := "-----END PGP SIGNATURE-----".toList

def escapedDelimiter : Text := ['\\', ':']

def illegalFilenameNotContainingColon : Text :=
  "kjxx..../////.\\\\^^^\n\taaaa1   23333358 324434 sdfsfd sdfsfsfsf ".toList ++
    "sersiously there are no fucking blah characters anymore ".toList ++
    "that are illegal and idfk how to type a null character ".toList ++
    "but i guess the longer i make this, the less likely a ".toList ++
    "collision is to happen 0 4398489''';;\\kthx".toList

/-- The lines of a signature, and what is left. -/
def readSignature (filePath : Text) : List Text → Except Text (Text × List Text)
  | [] =>
      .error ("malformed custom detached gpg signatures file near file path: ".toList ++ filePath)
  | line :: lines =>
      if line = endSigDelimiter then .ok (line ++ ['\n'], lines)
      else (readSignature filePath lines).map fun (signature, rest) =>
        (line ++ '\n' :: signature, rest)

def readPathAndTimestamp (origFilePathAndTimestampLine : Text) : Except Text (Text × ℤ) :=
  match (replace escapedDelimiter illegalFilenameNotContainingColon
      origFilePathAndTimestampLine).splitOn ':' with
  | [filePath, timestamp] =>
      match toLongLong timestamp with
      | some unixTimestamp =>
          if unixTimestamp < 0 then
            .error ("malformed unix timestamp on line: ".toList ++ origFilePathAndTimestampLine)
          else .ok (replace illegalFilenameNotContainingColon [':'] filePath, unixTimestamp)
      | none =>
          .error ("malformed unix timestamp on line: ".toList ++ origFilePathAndTimestampLine)
  | _ => .error ("malformed file path and unix timestamp line: ".toList ++
      origFilePathAndTimestampLine)

/-- At the end of the stream an empty line is read. -/
def readPathAndSignature (lines : List Text) : Except Text (FileMeta × List Text) := do
  let (filePath, unixTimestamp) ← readPathAndTimestamp (lines.headD [])
  let (signature, rest) ← readSignature filePath lines.tail
  return (⟨filePath, signature, unixTimestamp⟩, rest)

lemma readSignature_length {filePath signature : Text} {lines rest : List Text}
    (h : readSignature filePath lines = .ok (signature, rest)) : rest.length < lines.length := by
  induction lines generalizing signature with
  | nil => cases h
  | cons line lines ih =>
      rw [readSignature] at h
      split at h
      · cases h
        exact Nat.lt_succ_self _
      · cases hread : readSignature filePath lines with
        | error message =>
            rw [hread] at h
            cases h
        | ok read =>
            obtain ⟨signature', rest'⟩ := read
            rw [hread] at h
            cases h
            exact Nat.lt_succ_of_lt (ih hread)

lemma readPathAndSignature_length {lines rest : List Text} {fileMeta : FileMeta}
    (h : readPathAndSignature lines = .ok (fileMeta, rest)) : rest.length < lines.length := by
  rw [readPathAndSignature] at h
  cases hpath : readPathAndTimestamp (lines.headD []) with
  | error message =>
      rw [hpath] at h
      cases h
  | ok read =>
      obtain ⟨filePath, unixTimestamp⟩ := read
      cases hsignature : readSignature filePath lines.tail with
      | error message =>
          simp only [hpath, hsignature, bind, Except.bind] at h
          cases h
      | ok read =>
          obtain ⟨signature, rest'⟩ := read
          simp only [hpath, hsignature, bind, Except.bind, pure, Except.pure, Except.ok.injEq,
            Prod.mk.injEq] at h
          have hlength := readSignature_length hsignature
          rw [List.length_tail] at hlength
          rw [← h.2]
          omega

/-- Whether all records could be read, and those that were. -/
def readInAllSigsFromSigFile (lines : List Text) (sigsFromSigFile : Sigs) : Bool × Sigs :=
  if lines = [] then (true, sigsFromSigFile)
  else
    match _h : readPathAndSignature lines with
    | .error _ => (false, sigsFromSigFile)
    | .ok (fileMeta, rest) =>
        readInAllSigsFromSigFile rest (sigsFromSigFile.insert fileMeta.filePath fileMeta)
termination_by lines.length
decreasing_by exact readPathAndSignature_length _h

/-- `operator<<` -/
def write (fileMeta : FileMeta) : Text :=
  replace [':'] escapedDelimiter fileMeta.filePath ++
    ':' :: (number fileMeta.unixTimestampInSeconds ++ '\n' :: fileMeta.gpgSignature)

/-! ## One record -/

variable {fileMeta : FileMeta} {metas : List FileMeta} {sigs : Sigs} {filePath : Text} {s : ℤ}
  {lines rest before : List Text}

lemma readInAllSigsFromSigFile_nil : readInAllSigsFromSigFile [] sigs = (true, sigs) := by
  rw [readInAllSigsFromSigFile, if_pos rfl]

lemma readInAllSigsFromSigFile_of_error {message : Text} (hne : lines ≠ [])
    (h : readPathAndSignature lines = .error message) :
    readInAllSigsFromSigFile lines sigs = (false, sigs) := by
  rw [readInAllSigsFromSigFile, if_neg hne]
  split
  · rfl
  · next hok =>
      rw [h] at hok
      cases hok

lemma readInAllSigsFromSigFile_of_ok (h : readPathAndSignature lines = .ok (fileMeta, rest)) :
    readInAllSigsFromSigFile lines sigs =
      readInAllSigsFromSigFile rest (sigs.insert fileMeta.filePath fileMeta) := by
  have hne : lines ≠ [] := fun hnil => by
    have hlength := readPathAndSignature_length h
    rw [hnil] at hlength
    exact Nat.not_lt_zero _ hlength
  rw [readInAllSigsFromSigFile, if_neg hne]
  split
  · next herror =>
      rw [h] at herror
      cases herror
  · next hok =>
      rw [h] at hok
      cases hok
      rfl

/-- A signature ends with the first line that is the end of one. -/
lemma readSignature_append (h : endSigDelimiter ∉ before) :
    readSignature filePath (before ++ endSigDelimiter :: rest) =
      .ok (joinLines (before ++ [endSigDelimiter]), rest) := by
  induction before with
  | nil =>
      rw [List.nil_append, readSignature, if_pos rfl]
      rfl
  | cons line before ih =>
      rw [List.mem_cons, not_or] at h
      rw [List.cons_append, readSignature, if_neg (Ne.symm h.1), ih h.2, List.cons_append,
        joinLines_cons]
      rfl

lemma readPathAndSignature_of_ok {header : Text}
    (h : readPathAndTimestamp header = .ok (filePath, s)) (hbefore : endSigDelimiter ∉ before) :
    readPathAndSignature (header :: (before ++ endSigDelimiter :: rest)) =
      .ok (⟨filePath, joinLines (before ++ [endSigDelimiter]), s⟩, rest) := by
  rw [readPathAndSignature, List.headD_cons, List.tail_cons, h]
  simp only [bind, Except.bind, readSignature_append hbefore, pure, Except.pure]

lemma readPathAndSignature_of_error {header message : Text}
    (h : readPathAndTimestamp header = .error message) :
    readPathAndSignature (header :: rest) = .error message := by
  rw [readPathAndSignature, List.headD_cons, h]
  rfl

/-! ## The line of a path -/

lemma borderless_illegalFilename : Borderless illegalFilenameNotContainingColon := by
  decide +kernel

lemma illegalFilename_ne_nil : illegalFilenameNotContainingColon ≠ [] := by decide +kernel

lemma colon_not_mem_illegalFilename : ':' ∉ illegalFilenameNotContainingColon := by decide +kernel

/-- What is illegal has a newline. -/
lemma recoverable_of_newline_not_mem (h : '\n' ∉ filePath) :
    Recoverable ':' illegalFilenameNotContainingColon filePath :=
  borderless_illegalFilename.recoverable fun hpart => h (hpart.subset (by decide +kernel))

def pathLine (fileMeta : FileMeta) : Text :=
  substitute ':' escapedDelimiter fileMeta.filePath ++ ':' :: number fileMeta.unixTimestampInSeconds

lemma write_eq : write fileMeta = pathLine fileMeta ++ '\n' :: fileMeta.gpgSignature := by
  simp [write, pathLine, replace_singleton]

lemma splitOn_pathLine (hlast : fileMeta.filePath.getLast? ≠ some '\\') :
    (replace escapedDelimiter illegalFilenameNotContainingColon (pathLine fileMeta)).splitOn ':' =
      [substitute ':' illegalFilenameNotContainingColon fileMeta.filePath,
        number fileMeta.unixTimestampInSeconds] := by
  have hnumber : '\\' ∉ ':' :: number fileMeta.unixTimestampInSeconds := by
    rw [List.mem_cons, not_or]
    exact ⟨by decide, not_mem_number (by decide) (by decide)⟩
  rw [pathLine, escapedDelimiter, replace_escape (by decide) fun h => absurd h hlast,
    replace_of_not_mem hnumber,
    List.splitOn_append_cons_self_of_not_mem (not_mem_substitute colon_not_mem_illegalFilename),
    List.splitOn_eq_singleton (not_mem_number (by decide) (by decide))]

lemma readPathAndTimestamp_pathLine (hpath : '\n' ∉ fileMeta.filePath)
    (hlast : fileMeta.filePath.getLast? ≠ some '\\')
    (hs : IsLongLong fileMeta.unixTimestampInSeconds)
    (hpos : 0 ≤ fileMeta.unixTimestampInSeconds) :
    readPathAndTimestamp (pathLine fileMeta) =
      .ok (fileMeta.filePath, fileMeta.unixTimestampInSeconds) := by
  have hback : replace illegalFilenameNotContainingColon [':']
      (substitute ':' illegalFilenameNotContainingColon fileMeta.filePath) = fileMeta.filePath :=
    (replace_substitute_eq_iff illegalFilename_ne_nil).2 (recoverable_of_newline_not_mem hpath)
  rw [readPathAndTimestamp, splitOn_pathLine hlast]
  simp only [toLongLong_number_of_isLongLong hs, if_neg (Int.not_lt.2 hpos), hback]

lemma readPathAndTimestamp_pathLine_of_neg (hlast : fileMeta.filePath.getLast? ≠ some '\\')
    (hneg : fileMeta.unixTimestampInSeconds < 0) :
    ∃ message, readPathAndTimestamp (pathLine fileMeta) = .error message := by
  rw [readPathAndTimestamp, splitOn_pathLine hlast]
  cases hread : toLongLong (number fileMeta.unixTimestampInSeconds) with
  | none =>
      simp only [hread]
      exact ⟨_, rfl⟩
  | some timestamp =>
      obtain rfl := toLongLong_number hread
      simp only [hread, if_pos hneg]
      exact ⟨_, rfl⟩

/-- The colon behind a backslash does not separate. -/
lemma readPathAndTimestamp_pathLine_of_backslash
    (hlast : fileMeta.filePath.getLast? = some '\\') :
    ∃ message, readPathAndTimestamp (pathLine fileMeta) = .error message := by
  obtain ⟨start, hstart⟩ := List.getLast?_eq_some_iff.1 hlast
  have hnumber : '\\' ∉ number fileMeta.unixTimestampInSeconds :=
    not_mem_number (by decide) (by decide)
  have hcolon : ':' ∉ substitute ':' illegalFilenameNotContainingColon start ++
      (illegalFilenameNotContainingColon ++ number fileMeta.unixTimestampInSeconds) := by
    rw [List.mem_append, List.mem_append, not_or, not_or]
    exact ⟨not_mem_substitute colon_not_mem_illegalFilename, colon_not_mem_illegalFilename,
      not_mem_number (by decide) (by decide)⟩
  rw [readPathAndTimestamp, pathLine, hstart, escapedDelimiter, replace_escape_concat (by decide),
    replace_of_not_mem hnumber, List.splitOn_eq_singleton hcolon]
  exact ⟨_, rfl⟩

/-! ## Records of a file -/

/-- The lines in front of the last one are not the end of a signature. -/
def IsArmored (gpgSignature : Text) : Prop :=
  ∃ lines : List Text, (∀ line ∈ lines, '\n' ∉ line) ∧ endSigDelimiter ∉ lines ∧
    gpgSignature = joinLines (lines ++ [endSigDelimiter])

/-- What a signer writes. -/
structure WellFormed (fileMeta : FileMeta) : Prop where
  newline : '\n' ∉ fileMeta.filePath
  armored : IsArmored fileMeta.gpgSignature
  isLongLong : IsLongLong fileMeta.unixTimestampInSeconds

/-- What can be read as well. -/
structure Readable (fileMeta : FileMeta) : Prop where
  backslash : fileMeta.filePath.getLast? ≠ some '\\'
  nonneg : 0 ≤ fileMeta.unixTimestampInSeconds
  carriageReturn : ∀ line ∈ fileMeta.gpgSignature.splitOn '\n', line.getLast? ≠ some '\r'

def recordLines (fileMeta : FileMeta) : List Text :=
  pathLine fileMeta :: linesOf fileMeta.gpgSignature

lemma newline_not_mem_endSigDelimiter : '\n' ∉ endSigDelimiter := by decide +kernel

lemma chomp_endSigDelimiter : chomp endSigDelimiter = endSigDelimiter := by decide +kernel

lemma newline_not_mem_lines (h : ∀ line ∈ lines, '\n' ∉ line) :
    ∀ line ∈ lines ++ [endSigDelimiter], '\n' ∉ line := by
  intro line hline
  rcases List.mem_append.1 hline with hline | hline
  · exact h line hline
  · exact List.mem_singleton.1 hline ▸ newline_not_mem_endSigDelimiter

lemma linesOf_armored {text : Text} (h : ∀ line ∈ lines, '\n' ∉ line) :
    linesOf (joinLines (lines ++ [endSigDelimiter]) ++ text) =
      lines.map chomp ++ endSigDelimiter :: linesOf text := by
  rw [linesOf_joinLines_append (newline_not_mem_lines h), List.map_append, List.map_singleton,
    chomp_endSigDelimiter, List.append_assoc, List.singleton_append]

lemma linesOf_armored_nil (h : ∀ line ∈ lines, '\n' ∉ line) :
    linesOf (joinLines (lines ++ [endSigDelimiter])) = lines.map chomp ++ [endSigDelimiter] := by
  have hself : linesOf (joinLines (lines ++ [endSigDelimiter]) ++ []) =
      lines.map chomp ++ endSigDelimiter :: linesOf [] := linesOf_armored h
  rw [List.append_nil] at hself
  exact hself

lemma newline_not_mem_pathLine (h : '\n' ∉ fileMeta.filePath) : '\n' ∉ pathLine fileMeta := by
  rw [pathLine, List.mem_append, List.mem_cons, not_or, not_or]
  refine ⟨fun hmem => ?_, by decide, not_mem_number (by decide) (by decide)⟩
  rcases mem_of_mem_substitute hmem with hmem | hmem
  · exact absurd hmem (by decide)
  · exact h hmem

lemma chomp_pathLine : chomp (pathLine fileMeta) = pathLine fileMeta := by
  refine chomp_eq_self fun hlast => ?_
  rw [pathLine, List.getLast?_append, List.getLast?_cons] at hlast
  have hmem : '\r' ∈ ':' :: number fileMeta.unixTimestampInSeconds := by
    refine List.mem_of_getLast? ?_
    rw [List.getLast?_cons]
    exact hlast
  rcases List.mem_cons.1 hmem with heq | hmem
  · exact absurd heq (by decide)
  · exact not_mem_number (by decide) (by decide) hmem

lemma linesOf_write_append {text : Text} (h : WellFormed fileMeta) :
    linesOf (write fileMeta ++ text) = recordLines fileMeta ++ linesOf text := by
  obtain ⟨lines, hlines, -, hsignature⟩ := h.armored
  rw [write_eq, List.append_assoc, List.cons_append,
    linesOf_append (newline_not_mem_pathLine h.newline), chomp_pathLine, recordLines, hsignature,
    linesOf_armored hlines, linesOf_armored_nil hlines]
  simp

lemma linesOf_writeAll (h : ∀ fileMeta ∈ metas, WellFormed fileMeta) :
    linesOf (metas.flatMap write) = metas.flatMap recordLines := by
  induction metas with
  | nil => rfl
  | cons fileMeta metas ih =>
      obtain ⟨hmeta, hmetas⟩ := List.forall_mem_cons.1 h
      rw [List.flatMap_cons, List.flatMap_cons, linesOf_write_append hmeta, ih hmetas]

/-! ## A reader in step -/

/-- Lines of which the last one ends a signature. -/
def IsClosed (block : List Text) : Prop :=
  ∀ line, block.getLast? = some line → line = endSigDelimiter

lemma isClosed_concat : IsClosed (lines ++ [endSigDelimiter]) := fun line hline => by
  rw [List.getLast?_concat] at hline
  exact (Option.some_inj.1 hline).symm

lemma IsClosed.of_append (h : IsClosed (before ++ lines)) : IsClosed lines := fun line hline =>
  h line (by rw [List.getLast?_append, hline]; rfl)

lemma IsClosed.mem (h : IsClosed lines) (hne : lines ≠ []) : endSigDelimiter ∈ lines := by
  obtain ⟨start, line, rfl⟩ := (List.eq_nil_or_concat lines).resolve_left hne
  rw [List.concat_eq_append] at h ⊢
  rw [h line List.getLast?_concat]
  exact List.mem_concat_self

lemma readPathAndTimestamp_endSigDelimiter :
    ∃ message, readPathAndTimestamp endSigDelimiter = .error message := by
  have hsplit : (replace escapedDelimiter illegalFilenameNotContainingColon
      endSigDelimiter).splitOn ':' = [endSigDelimiter] := by
    have hmem : '\\' ∉ endSigDelimiter := by decide +kernel
    rw [escapedDelimiter, replace_of_not_mem hmem]
    exact List.splitOn_eq_singleton (by decide +kernel)
  rw [readPathAndTimestamp, hsplit]
  exact ⟨_, rfl⟩

/-- **Whatever the lines are, the reader fails or is in step behind them.**  The signatures it has
read have fewer lines. -/
lemma readInAllSigsFromSigFile_block (hclosed : IsClosed lines)
    (hlines : ∀ line ∈ lines, '\n' ∉ line) (sigs : Sigs) :
    (readInAllSigsFromSigFile (lines ++ rest) sigs).1 = false ∨
      ∃ sigs', readInAllSigsFromSigFile (lines ++ rest) sigs =
          readInAllSigsFromSigFile rest sigs' ∧
        ∀ filePath fileMeta, sigs'.lookup filePath = some fileMeta →
          sigs.lookup filePath = some fileMeta ∨
            ∃ signed : List Text, (∀ line ∈ signed, '\n' ∉ line) ∧ signed.length < lines.length ∧
              fileMeta.gpgSignature = joinLines signed := by
  induction hlength : lines.length using Nat.strongRecOn generalizing lines sigs with
  | ind n ih =>
      cases lines with
      | nil => exact .inr ⟨sigs, rfl, fun _ _ h => .inl h⟩
      | cons header block =>
          have hne : (header :: block) ++ rest ≠ [] := List.cons_ne_nil _ _
          cases hheader : readPathAndTimestamp header with
          | error message =>
              rw [readInAllSigsFromSigFile_of_error hne (readPathAndSignature_of_error hheader)]
              exact .inl rfl
          | ok read =>
              obtain ⟨filePath, s⟩ := read
              have hblock : block ≠ [] := fun hnil => by
                have hend : header = endSigDelimiter := hclosed header (by rw [hnil]; rfl)
                obtain ⟨message, herror⟩ := readPathAndTimestamp_endSigDelimiter
                rw [hend, herror] at hheader
                cases hheader
              have hblockClosed : IsClosed block :=
                have hcons : IsClosed ([header] ++ block) := hclosed
                hcons.of_append
              obtain ⟨signed, left, hsplit, hfirst⟩ :=
                List.eq_append_cons_of_mem (hblockClosed.mem hblock)
              have hread : readPathAndSignature (header :: (signed ++ endSigDelimiter ::
                  (left ++ rest))) = .ok (⟨filePath, joinLines (signed ++ [endSigDelimiter]), s⟩,
                    left ++ rest) := readPathAndSignature_of_ok hheader hfirst
              have happend : (header :: block) ++ rest =
                  header :: (signed ++ endSigDelimiter :: (left ++ rest)) := by
                rw [hsplit]
                simp
              have hsum : n = 1 + signed.length + 1 + left.length := by
                rw [← hlength, hsplit]
                simp
                omega
              have hleftClosed : IsClosed left := by
                rw [hsplit, ← List.singleton_append, ← List.append_assoc] at hblockClosed
                exact hblockClosed.of_append
              have hnewline : ∀ line ∈ signed ++ endSigDelimiter :: left, '\n' ∉ line := by
                rw [← hsplit]
                exact fun line hline => hlines line (List.mem_cons_of_mem _ hline)
              rw [happend, readInAllSigsFromSigFile_of_ok hread]
              have hleft := ih left.length (by omega) hleftClosed
                (fun line hline => hnewline line (List.mem_append_right _
                  (List.mem_cons_of_mem _ hline)))
                (sigs.insert filePath
                  ⟨filePath, joinLines (signed ++ [endSigDelimiter]), s⟩) rfl
              refine hleft.imp id ?_
              rintro ⟨sigs', hin, hlookup⟩
              refine ⟨sigs', hin, fun key fileMeta hkey => ?_⟩
              rcases hlookup key fileMeta hkey with hold | ⟨text, htext, hshorter, hsignature⟩
              · by_cases heq : key = filePath
                · subst heq
                  rw [AList.lookup_insert, Option.some_inj] at hold
                  refine .inr ⟨signed ++ [endSigDelimiter], ?_, ?_, ?_⟩
                  · exact newline_not_mem_lines fun line hline =>
                      hnewline line (List.mem_append_left _ hline)
                  · rw [List.length_append, List.length_singleton]
                    omega
                  · rw [← hold]
                · rw [AList.lookup_insert_ne heq] at hold
                  exact .inl hold
              · exact .inr ⟨text, htext, by omega, hsignature⟩

/-! ## What is read of what was written -/

lemma linesOf_of_readable (hlines : ∀ line ∈ lines, '\n' ∉ line)
    (h : ∀ line ∈ (joinLines (lines ++ [endSigDelimiter])).splitOn '\n',
      line.getLast? ≠ some '\r') :
    linesOf (joinLines (lines ++ [endSigDelimiter])) = lines ++ [endSigDelimiter] := by
  rw [splitOn_joinLines (newline_not_mem_lines hlines)] at h
  have hchomp : lines.map chomp = lines :=
    (List.map_congr_left fun line hline => chomp_eq_self (h line (by simp [hline]))).trans
      (List.map_id lines)
  rw [linesOf_armored_nil hlines, hchomp]

/-- A record that is readable is read. -/
lemma readPathAndSignature_recordLines (hmeta : WellFormed fileMeta)
    (hreadable : Readable fileMeta) :
    readPathAndSignature (recordLines fileMeta ++ rest) = .ok (fileMeta, rest) := by
  obtain ⟨lines, hlines, hfirst, hsignature⟩ := hmeta.armored
  have hcr := hreadable.carriageReturn
  rw [hsignature] at hcr
  have hpath := readPathAndTimestamp_pathLine hmeta.newline hreadable.backslash hmeta.isLongLong
    hreadable.nonneg
  have happend : recordLines fileMeta ++ rest =
      pathLine fileMeta :: (lines ++ endSigDelimiter :: rest) := by
    rw [recordLines, hsignature, linesOf_of_readable hlines hcr]
    simp
  rw [happend, readPathAndSignature_of_ok hpath hfirst, ← hsignature]

lemma readInAllSigsFromSigFile_recordLines (hmeta : WellFormed fileMeta)
    (hreadable : Readable fileMeta) :
    readInAllSigsFromSigFile (recordLines fileMeta ++ rest) sigs =
      readInAllSigsFromSigFile rest (sigs.insert fileMeta.filePath fileMeta) :=
  readInAllSigsFromSigFile_of_ok (readPathAndSignature_recordLines hmeta hreadable)

/-- A record that is not readable is not read: another signature is taken for that of its path. -/
lemma readInAllSigsFromSigFile_of_not_readable (rest : List Text) (sigs : Sigs)
    (hmeta : WellFormed fileMeta) (hreadable : ¬ Readable fileMeta) :
    (readInAllSigsFromSigFile (recordLines fileMeta ++ rest) sigs).1 = false ∨
      ∃ sigs', readInAllSigsFromSigFile (recordLines fileMeta ++ rest) sigs =
          readInAllSigsFromSigFile rest sigs' ∧
        sigs'.lookup fileMeta.filePath ≠ some fileMeta := by
  have hfail : ∀ message, readPathAndTimestamp (pathLine fileMeta) = .error message →
      (readInAllSigsFromSigFile (recordLines fileMeta ++ rest) sigs).1 = false :=
    fun message herror => by
      have hne : recordLines fileMeta ++ rest ≠ [] := List.cons_ne_nil _ _
      rw [readInAllSigsFromSigFile_of_error hne (readPathAndSignature_of_error herror)]
  by_cases hlast : fileMeta.filePath.getLast? = some '\\'
  · obtain ⟨message, herror⟩ := readPathAndTimestamp_pathLine_of_backslash hlast
    exact .inl (hfail message herror)
  by_cases hneg : fileMeta.unixTimestampInSeconds < 0
  · obtain ⟨message, herror⟩ := readPathAndTimestamp_pathLine_of_neg hlast hneg
    exact .inl (hfail message herror)
  -- a line of the signature loses its carriage return, and may end the signature then
  obtain ⟨lines, hlines, hend, hsignature⟩ := hmeta.armored
  have hself : linesOf fileMeta.gpgSignature = lines.map chomp ++ [endSigDelimiter] := by
    rw [hsignature, linesOf_armored_nil hlines]
  have hchomped : ∀ line ∈ lines.map chomp ++ [endSigDelimiter], '\n' ∉ line := by
    refine newline_not_mem_lines fun line hline => ?_
    obtain ⟨original, horiginal, rfl⟩ := List.mem_map.1 hline
    exact not_mem_chomp (hlines original horiginal)
  have hmem : endSigDelimiter ∈ lines.map chomp ++ [endSigDelimiter] := List.mem_concat_self
  obtain ⟨signed, left, hsplit, hfirst⟩ := List.eq_append_cons_of_mem hmem
  have hclosed : IsClosed left := by
    have hall : IsClosed (lines.map chomp ++ [endSigDelimiter]) := isClosed_concat
    rw [hsplit, ← List.singleton_append, ← List.append_assoc] at hall
    exact hall.of_append
  have hsum : lines.length = signed.length + left.length := by
    have hlength := congrArg List.length hsplit
    simp only [List.length_append, List.length_map, List.length_cons, List.length_nil] at hlength
    omega
  rw [hsplit] at hchomped
  have hsigned : ∀ line ∈ signed ++ [endSigDelimiter], '\n' ∉ line := fun line hline =>
    hchomped line (by
      rcases List.mem_append.1 hline with hline | hline
      · exact List.mem_append_left _ hline
      · exact List.mem_append_right _ (List.mem_singleton.1 hline ▸ List.mem_cons_self))
  have hread : readPathAndSignature (pathLine fileMeta :: (signed ++ endSigDelimiter ::
      (left ++ rest))) = .ok (⟨fileMeta.filePath, joinLines (signed ++ [endSigDelimiter]),
        fileMeta.unixTimestampInSeconds⟩, left ++ rest) :=
    readPathAndSignature_of_ok (readPathAndTimestamp_pathLine hmeta.newline hlast hmeta.isLongLong
      (Int.not_lt.1 hneg)) hfirst
  have happend : recordLines fileMeta ++ rest =
      pathLine fileMeta :: (signed ++ endSigDelimiter :: (left ++ rest)) := by
    rw [recordLines, hself, hsplit]
    simp
  have hother : (⟨fileMeta.filePath, joinLines (signed ++ [endSigDelimiter]),
      fileMeta.unixTimestampInSeconds⟩ : FileMeta) ≠ fileMeta := fun heq => by
    have htext : joinLines (signed ++ [endSigDelimiter]) = joinLines (lines ++ [endSigDelimiter]) :=
      (congrArg RecursiveCustomDetachedSignaturesFileMeta.gpgSignature heq).trans hsignature
    have hsame := List.append_cancel_right
      (joinLines_injective hsigned (newline_not_mem_lines hlines) htext)
    have hnil : left = [] := List.eq_nil_of_length_eq_zero (by rw [hsame] at hsum; omega)
    have hchomp : lines.map chomp = lines := by
      rw [hnil, hsame] at hsplit
      exact List.append_cancel_right hsplit
    refine hreadable ⟨hlast, Int.not_lt.1 hneg, ?_⟩
    rw [hsignature, splitOn_joinLines (newline_not_mem_lines hlines)]
    intro line hline
    rcases List.mem_append.1 hline with hline | hline
    · rcases List.mem_append.1 hline with hline | hline
      · have hall := List.map_inj_left.1 (hchomp.trans (List.map_id lines).symm)
        exact chomp_eq_self_iff.1 (hall line hline)
      · exact List.mem_singleton.1 hline ▸ chomp_eq_self_iff.1 chomp_endSigDelimiter
    · rw [List.mem_singleton.1 hline]
      exact (Option.some_ne_none _).symm
  rw [happend, readInAllSigsFromSigFile_of_ok hread]
  refine (readInAllSigsFromSigFile_block hclosed
    (fun line hline => hchomped line (List.mem_append_right _ (List.mem_cons_of_mem _ hline)))
    _).imp id ?_
  rintro ⟨sigs', hin, hlookup⟩
  refine ⟨sigs', hin, fun heq => ?_⟩
  rcases hlookup _ _ heq with hold | ⟨text, htext, hshorter, hsignature'⟩
  · rw [AList.lookup_insert, Option.some_inj] at hold
    exact hother hold
  · -- what was read behind it has fewer lines than the signature
    have hsame := joinLines_injective htext (newline_not_mem_lines hlines)
      (hsignature'.symm.trans hsignature)
    rw [hsame, List.length_append, List.length_singleton] at hshorter
    omega

def insertAll (sigs : Sigs) (metas : List FileMeta) : Sigs :=
  metas.foldl (fun sigs fileMeta => sigs.insert fileMeta.filePath fileMeta) sigs

lemma lookup_insertAll_of_not_mem (h : filePath ∉ metas.map (·.filePath)) :
    (insertAll sigs metas).lookup filePath = sigs.lookup filePath := by
  induction metas generalizing sigs with
  | nil => rfl
  | cons fileMeta metas ih =>
      rw [List.map_cons, List.mem_cons, not_or] at h
      rw [insertAll, List.foldl_cons, ← insertAll, ih h.2, AList.lookup_insert_ne h.1]

lemma lookup_insertAll (hnodup : (metas.map (·.filePath)).Nodup) :
    (insertAll sigs metas).lookup filePath =
      (metas.find? (·.filePath = filePath)).or (sigs.lookup filePath) := by
  induction metas generalizing sigs with
  | nil => rfl
  | cons fileMeta metas ih =>
      rw [List.map_cons, List.nodup_cons] at hnodup
      by_cases heq : fileMeta.filePath = filePath
      · subst heq
        rw [List.find?_cons_of_pos (by simp), insertAll, List.foldl_cons, ← insertAll,
          lookup_insertAll_of_not_mem hnodup.1, AList.lookup_insert]
        rfl
      · rw [List.find?_cons_of_neg (by simpa using heq), insertAll, List.foldl_cons, ← insertAll,
          ih hnodup.2, AList.lookup_insert_ne (Ne.symm heq)]

lemma find?_filePath (hnodup : (metas.map (·.filePath)).Nodup) (hmem : fileMeta ∈ metas) :
    metas.find? (·.filePath = fileMeta.filePath) = some fileMeta := by
  cases hfind : metas.find? (·.filePath = fileMeta.filePath) with
  | none => exact absurd (decide_eq_true rfl) (List.find?_eq_none.1 hfind fileMeta hmem)
  | some found =>
      have heq : found.filePath = fileMeta.filePath := by simpa using List.find?_some hfind
      exact congrArg some
        (List.inj_on_of_nodup_map hnodup (List.mem_of_find?_eq_some hfind) hmem heq)

lemma readInAllSigsFromSigFile_all (hmetas : ∀ fileMeta ∈ metas, WellFormed fileMeta)
    (hreadable : ∀ fileMeta ∈ metas, Readable fileMeta) :
    readInAllSigsFromSigFile (metas.flatMap recordLines) sigs = (true, insertAll sigs metas) := by
  induction metas generalizing sigs with
  | nil => exact readInAllSigsFromSigFile_nil
  | cons fileMeta metas ih =>
      obtain ⟨hmeta, hmetas⟩ := List.forall_mem_cons.1 hmetas
      obtain ⟨hfirst, hrest⟩ := List.forall_mem_cons.1 hreadable
      rw [List.flatMap_cons, readInAllSigsFromSigFile_recordLines hmeta hfirst, ih hmetas hrest]
      rfl

/-- By induction on the records: those behind one that is not readable do not set it right. -/
lemma readable_of_read (hnodup : (metas.map (·.filePath)).Nodup)
    (hmetas : ∀ fileMeta ∈ metas, WellFormed fileMeta)
    (hread : (readInAllSigsFromSigFile (metas.flatMap recordLines) sigs).1 = true)
    (hlookup : ∀ fileMeta ∈ metas, (readInAllSigsFromSigFile (metas.flatMap recordLines)
      sigs).2.lookup fileMeta.filePath = some fileMeta) :
    ∀ fileMeta ∈ metas, Readable fileMeta := by
  induction metas generalizing sigs with
  | nil => exact fun fileMeta hmem => absurd hmem List.not_mem_nil
  | cons fileMeta metas ih =>
      rw [List.map_cons, List.nodup_cons] at hnodup
      obtain ⟨hmeta, hmetas⟩ := List.forall_mem_cons.1 hmetas
      obtain ⟨hfirst, hrest⟩ := List.forall_mem_cons.1 hlookup
      rw [List.flatMap_cons] at hread hfirst hrest
      by_cases hreadable : Readable fileMeta
      · rw [readInAllSigsFromSigFile_recordLines hmeta hreadable] at hread hrest
        exact List.forall_mem_cons.2 ⟨hreadable, ih hnodup.2 hmetas hread hrest⟩
      · exfalso
        rcases readInAllSigsFromSigFile_of_not_readable (metas.flatMap recordLines) sigs hmeta
          hreadable with hfail | ⟨sigs', hin, hother⟩
        · exact Bool.false_ne_true (hfail.symm.trans hread)
        · rw [hin] at hread hfirst hrest
          have hall := ih hnodup.2 hmetas hread hrest
          rw [readInAllSigsFromSigFile_all hmetas hall] at hfirst
          exact hother ((lookup_insertAll_of_not_mem hnodup.1).symm.trans hfirst)

/-- All records are read, each at its path, and no others. -/
def ReadsBack (metas : List FileMeta) : Prop :=
  (readInAllSigsFromSigFile (linesOf (metas.flatMap write)) ∅).1 = true ∧
    ∀ filePath, (readInAllSigsFromSigFile (linesOf (metas.flatMap write)) ∅).2.lookup filePath =
      metas.find? (·.filePath = filePath)

/-- **What is written is read exactly if each record is readable.**

The hypothesis asks what gpg and the file system give: the armored text ends with its own line and
has it nowhere else, and a path is not empty.  A record that is not read back makes the signer sign
again, and the verifier reject what was signed. -/
theorem readsBack_iff (metas : List FileMeta) (hnodup : (metas.map (·.filePath)).Nodup)
    (hmetas : ∀ fileMeta ∈ metas, WellFormed fileMeta) :
    ReadsBack metas ↔ ∀ fileMeta ∈ metas, Readable fileMeta := by
  rw [ReadsBack, linesOf_writeAll hmetas]
  constructor
  · rintro ⟨hread, hlookup⟩
    refine readable_of_read hnodup hmetas hread fun fileMeta hmem => ?_
    rw [hlookup]
    exact find?_filePath hnodup hmem
  · intro hreadable
    rw [readInAllSigsFromSigFile_all hmetas hreadable]
    refine ⟨rfl, fun filePath => ?_⟩
    rw [lookup_insertAll hnodup]
    exact Option.or_none

def shortSignature : Text := joinLines ["-----BEGIN PGP SIGNATURE-----".toList, endSigDelimiter]

lemma isArmored_shortSignature : IsArmored shortSignature :=
  ⟨["-----BEGIN PGP SIGNATURE-----".toList], by decide +kernel, by decide +kernel, rfl⟩

theorem readsBack_iff_notes : ReadsBack [⟨"notes: a\\b.txt".toList, shortSignature, 5⟩] :=
  (readsBack_iff [⟨"notes: a\\b.txt".toList, shortSignature, 5⟩] (List.nodup_singleton _)
    (List.forall_mem_singleton.2
      ⟨by decide +kernel, isArmored_shortSignature, by decide⟩)).2
    (List.forall_mem_singleton.2 ⟨by decide +kernel, by decide, by decide +kernel⟩)

/-- A file whose name ends with a backslash. -/
theorem not_readsBack_backslash : ¬ ReadsBack [⟨"a\\".toList, shortSignature, 5⟩] := by
  have hmeta : WellFormed ⟨"a\\".toList, shortSignature, 5⟩ :=
    ⟨by decide +kernel, isArmored_shortSignature, by decide⟩
  have herror : ∃ message, readPathAndTimestamp (pathLine ⟨"a\\".toList, shortSignature, 5⟩) =
      .error message := readPathAndTimestamp_pathLine_of_backslash (by decide +kernel)
  obtain ⟨message, herror⟩ := herror
  rintro ⟨hread, -⟩
  rw [linesOf_writeAll (List.forall_mem_singleton.2 hmeta), List.flatMap_cons, List.flatMap_nil,
    List.append_nil, recordLines, readInAllSigsFromSigFile_of_error (List.cons_ne_nil _ _)
      (readPathAndSignature_of_error herror)] at hread
  exact Bool.false_ne_true hread

end Autobackup.RecursiveGpgTools
