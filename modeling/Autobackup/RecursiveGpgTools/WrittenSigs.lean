import Autobackup.RecursiveGpgTools.Verifier

/-!
# What is read of a sigs file

The signer and the verifier read the sigs file in text mode, which drops the carriage returns.  What
is left of a record that the signer has written is read if the path has no newline and does not end
with a backslash, and the time is not before 1970 (`writable_of_isReadable`).  Only a carriage
return in the path is lost.
-/

namespace Autobackup.RecursiveGpgTools

open QString

/-- The records of a sigs file, up to one that cannot be read. -/
def recordsOf (sigsText : Text) : List FileMeta := records (linesOf (readAsText sigsText))

/-- All records of a sigs file can be read. -/
def IsReadable (sigsText : Text) : Prop :=
  (readInAllSigsFromSigFile (linesOf (readAsText sigsText)) ∅).1 = true

variable {fileMeta : FileMeta} {metas : List FileMeta} {lines rest : List Text} {sigs : Sigs}
  {filePath signature text : Text}

/-! ## The records -/

/-- The records determine what is read in. -/
lemma readInAllSigsFromSigFile_snd (lines : List Text) (sigs : Sigs) :
    (readInAllSigsFromSigFile lines sigs).2 = insertAll sigs (records lines) := by
  fun_induction readInAllSigsFromSigFile lines sigs with
  | case1 sigs =>
      rw [records, if_pos rfl]
      rfl
  | case2 lines sigs hne message hread =>
      rw [records, if_neg hne]
      split
      · rfl
      · next hok =>
          rw [hread] at hok
          cases hok
  | case3 lines sigs hne fileMeta rest hread ih =>
      rw [records_of_ok hread, ih]
      rfl

lemma readSignature_eq (h : readSignature filePath lines = .ok (signature, rest)) :
    ∃ before, lines = before ++ endSigDelimiter :: rest ∧ endSigDelimiter ∉ before ∧
      signature = joinLines (before ++ [endSigDelimiter]) := by
  induction lines generalizing signature with
  | nil => cases h
  | cons line lines ih =>
      rw [readSignature] at h
      split_ifs at h with hline
      · cases h
        exact ⟨[], by rw [hline]; rfl, List.not_mem_nil, by rw [hline]; simp [joinLines]⟩
      · cases hread : readSignature filePath lines with
        | error message =>
            rw [hread] at h
            cases h
        | ok read =>
            obtain ⟨signature', rest'⟩ := read
            rw [hread] at h
            cases h
            obtain ⟨before, hlines, hnot, hsignature⟩ := ih hread
            refine ⟨line :: before, by rw [hlines]; rfl, ?_, ?_⟩
            · rw [List.mem_cons, not_or]
              exact ⟨fun heq => hline heq.symm, hnot⟩
            · rw [List.cons_append, joinLines_cons, hsignature]

lemma readPathAndTimestamp_eq {header : Text} {s : ℤ}
    (h : readPathAndTimestamp header = .ok (filePath, s)) : IsLongLong s := by
  rw [readPathAndTimestamp] at h
  split at h
  · next timestamp hsplit =>
      cases hread : toLongLong timestamp with
      | none =>
          rw [hread] at h
          cases h
      | some unixTimestamp =>
          simp only [hread] at h
          split_ifs at h
          cases h
          exact toLongLong_range hread
  · cases h

/-- What the signer writes and what is read has such signatures. -/
structure IsMade (fileMeta : FileMeta) : Prop where
  armored : IsArmored fileMeta.gpgSignature
  carriageReturn : '\r' ∉ fileMeta.gpgSignature
  isLongLong : IsLongLong fileMeta.unixTimestampInSeconds

lemma readPathAndSignature_isMade (hlines : ∀ line ∈ lines, '\n' ∉ line ∧ '\r' ∉ line)
    (h : readPathAndSignature lines = .ok (fileMeta, rest)) : IsMade fileMeta ∧ rest ⊆ lines := by
  rw [readPathAndSignature] at h
  cases hpath : readPathAndTimestamp (lines.headD []) with
  | error message =>
      rw [hpath] at h
      cases h
  | ok read =>
      obtain ⟨filePath, unixTimestamp⟩ := read
      cases hsignature : readSignature filePath lines.tail with
      | error message =>
          simp only [hpath, hsignature, bind, Except.bind] at h
          cases h
      | ok read =>
          obtain ⟨signature, rest'⟩ := read
          simp only [hpath, hsignature, bind, Except.bind, pure, Except.pure, Except.ok.injEq,
            Prod.mk.injEq] at h
          obtain ⟨rfl, rfl⟩ := h
          obtain ⟨before, htail, hend, rfl⟩ := readSignature_eq hsignature
          have hbefore : ∀ line ∈ before, '\n' ∉ line ∧ '\r' ∉ line := fun line hline =>
            hlines line (List.mem_of_mem_tail (htail ▸ List.mem_append_left _ hline))
          refine ⟨⟨⟨before, fun line hline => (hbefore line hline).1, hend, rfl⟩, ?_,
            readPathAndTimestamp_eq hpath⟩, fun line hline => List.mem_of_mem_tail (htail ▸
              List.mem_append_right _ (List.mem_cons_of_mem _ hline))⟩
          intro hmem
          obtain ⟨line, hline, hcr⟩ := List.mem_flatMap.1 hmem
          rcases List.mem_append.1 hcr with hcr | hcr
          · rcases List.mem_append.1 hline with hline | hline
            · exact (hbefore line hline).2 hcr
            · rw [List.mem_singleton.1 hline] at hcr
              exact absurd hcr (by decide +kernel)
          · exact absurd hcr (by decide)

lemma isMade_of_mem_records (hlines : ∀ line ∈ lines, '\n' ∉ line ∧ '\r' ∉ line) :
    ∀ fileMeta ∈ records lines, IsMade fileMeta := by
  fun_induction records lines with
  | case1 => exact fun _ h => absurd h List.not_mem_nil
  | case2 lines hne message hread => exact fun _ h => absurd h List.not_mem_nil
  | case3 lines hne fileMeta rest hread ih =>
      obtain ⟨hmade, hsubset⟩ := readPathAndSignature_isMade hlines hread
      exact List.forall_mem_cons.2 ⟨hmade, ih fun line hline => hlines line (hsubset hline)⟩

lemma isMade_of_mem_recordsOf : ∀ fileMeta ∈ recordsOf text, IsMade fileMeta := by
  refine isMade_of_mem_records fun line hline => ⟨fun hmem => ?_, fun hmem => ?_⟩
  · exact (mem_linesOf line hline '\n' hmem).2 rfl
  · exact carriageReturn_not_mem_readAsText (mem_linesOf line hline '\r' hmem).1

/-! ## What was written -/

/-- Behind the path there is something to read, and it is a line of its own. -/
structure IsWritable (filePath : Text) (unixTimestampInSeconds : ℤ) : Prop where
  newline : '\n' ∉ filePath
  backslash : filePath.getLast? ≠ some '\\'
  nonneg : 0 ≤ unixTimestampInSeconds

lemma IsMade.wellFormed (h : IsMade fileMeta) (hnewline : '\n' ∉ fileMeta.filePath) :
    WellFormed fileMeta :=
  ⟨hnewline, h.armored, h.isLongLong⟩

lemma IsMade.readable (h : IsMade fileMeta)
    (hwritable : IsWritable fileMeta.filePath fileMeta.unixTimestampInSeconds) :
    Readable fileMeta where
  backslash := hwritable.backslash
  nonneg := hwritable.nonneg
  carriageReturn := fun line hline hlast =>
    h.carriageReturn (mem_splitOn line hline '\r' (List.mem_of_getLast? hlast)).1

lemma records_recordLines (hmetas : ∀ fileMeta ∈ metas, WellFormed fileMeta)
    (hreadable : ∀ fileMeta ∈ metas, Readable fileMeta) :
    records (metas.flatMap recordLines) = metas := by
  induction metas with
  | nil => rw [List.flatMap_nil, records, if_pos rfl]
  | cons fileMeta metas ih =>
      obtain ⟨hmeta, hmetas⟩ := List.forall_mem_cons.1 hmetas
      obtain ⟨hfirst, hrest⟩ := List.forall_mem_cons.1 hreadable
      rw [List.flatMap_cons, records_of_ok (readPathAndSignature_recordLines hmeta hfirst),
        ih hmetas hrest]

/-- A path with a newline: its first line has no separator. -/
lemma readPathAndTimestamp_of_newline (line : Text) :
    ∃ message, readPathAndTimestamp (substitute ':' escapedDelimiter line) = .error message := by
  have hsplit : (replace escapedDelimiter illegalFilenameNotContainingColon
      (substitute ':' escapedDelimiter line)).splitOn ':' =
        [substitute ':' illegalFilenameNotContainingColon line] := by
    have hescape : replace escapedDelimiter illegalFilenameNotContainingColon
        (substitute ':' escapedDelimiter line ++ []) =
          substitute ':' illegalFilenameNotContainingColon line ++
            replace escapedDelimiter illegalFilenameNotContainingColon [] :=
      replace_escape (by decide) (fun _ => by simp)
    rw [List.append_nil] at hescape
    rw [hescape]
    change (_ ++ []).splitOn ':' = _
    rw [List.append_nil]
    exact List.splitOn_eq_singleton (not_mem_substitute colon_not_mem_illegalFilename)
  rw [readPathAndTimestamp, hsplit]
  exact ⟨_, rfl⟩

/-- The first line of a record whose path has a newline. -/
lemma linesOf_write_of_newline (hnewline : '\n' ∈ fileMeta.filePath)
    (hcr : '\r' ∉ fileMeta.filePath) :
    ∃ line after, linesOf (write fileMeta ++ text) =
      substitute ':' escapedDelimiter line :: after := by
  obtain ⟨line, after, hsplit, hline⟩ := List.eq_append_cons_of_mem hnewline
  have hwrite : write fileMeta ++ text = substitute ':' escapedDelimiter line ++ '\n' ::
      (substitute ':' escapedDelimiter after ++
        (':' :: (number fileMeta.unixTimestampInSeconds ++ '\n' :: fileMeta.gpgSignature) ++
          text)) := by
    rw [write, replace_singleton, hsplit, substitute_append,
      substitute_cons_of_ne (by decide)]
    simp
  have hnot : ∀ c : Char, c ∉ escapedDelimiter → c ∉ line →
      c ∉ substitute ':' escapedDelimiter line := fun c hc hline hmem =>
    (mem_of_mem_substitute hmem).elim hc hline
  have hchomp : chomp (substitute ':' escapedDelimiter line) =
      substitute ':' escapedDelimiter line := chomp_eq_self fun hlast => by
    refine hnot _ (by decide) (fun hmem => hcr ?_) (List.mem_of_getLast? hlast)
    rw [hsplit]
    exact List.mem_append_left _ hmem
  rw [hwrite, linesOf_append (hnot _ (by decide) hline), hchomp]
  exact ⟨line, _, rfl⟩

/-- By induction on the records: the reader stops at one that cannot be read. -/
lemma isWritable_of_read (hmade : ∀ fileMeta ∈ metas, IsMade fileMeta)
    (hcr : ∀ fileMeta ∈ metas, '\r' ∉ fileMeta.filePath)
    (hread : (readInAllSigsFromSigFile (linesOf (metas.flatMap write)) sigs).1 = true) :
    ∀ fileMeta ∈ metas, IsWritable fileMeta.filePath fileMeta.unixTimestampInSeconds := by
  induction metas generalizing sigs with
  | nil => exact fun _ h => absurd h List.not_mem_nil
  | cons fileMeta metas ih =>
      obtain ⟨hfirst, hmade⟩ := List.forall_mem_cons.1 hmade
      obtain ⟨hfirstCr, hcr⟩ := List.forall_mem_cons.1 hcr
      rw [List.flatMap_cons] at hread
      have hfail : ∀ {header message : Text} {after : List Text},
          linesOf (write fileMeta ++ metas.flatMap write) = header :: after →
          readPathAndTimestamp header = .error message → False := fun hlines herror => by
        rw [hlines, readInAllSigsFromSigFile_of_error (List.cons_ne_nil _ _)
          (readPathAndSignature_of_error herror)] at hread
        exact Bool.false_ne_true hread
      have hnewline : '\n' ∉ fileMeta.filePath := fun hmem => by
        obtain ⟨line, after, hlines⟩ := linesOf_write_of_newline hmem hfirstCr
        obtain ⟨message, herror⟩ := readPathAndTimestamp_of_newline line
        exact hfail hlines herror
      have hlines : linesOf (write fileMeta ++ metas.flatMap write) =
          recordLines fileMeta ++ linesOf (metas.flatMap write) :=
        linesOf_write_append (hfirst.wellFormed hnewline)
      have hbackslash : fileMeta.filePath.getLast? ≠ some '\\' := fun hlast => by
        obtain ⟨message, herror⟩ := readPathAndTimestamp_pathLine_of_backslash hlast
        exact hfail hlines herror
      have hnonneg : 0 ≤ fileMeta.unixTimestampInSeconds := by
        by_contra hneg
        obtain ⟨message, herror⟩ :=
          readPathAndTimestamp_pathLine_of_neg hbackslash (Int.not_le.1 hneg)
        exact hfail hlines herror
      have hwritable : IsWritable fileMeta.filePath fileMeta.unixTimestampInSeconds :=
        ⟨hnewline, hbackslash, hnonneg⟩
      rw [hlines, readInAllSigsFromSigFile_recordLines (hfirst.wellFormed hnewline)
        (hfirst.readable hwritable)] at hread
      exact List.forall_mem_cons.2 ⟨hwritable, ih hmade hcr hread⟩

/-- The record without the carriage returns of its path. -/
def withoutCarriageReturns (fileMeta : FileMeta) : FileMeta :=
  { fileMeta with filePath := readAsText fileMeta.filePath }

lemma readAsText_substitute :
    readAsText (substitute ':' escapedDelimiter text) =
      substitute ':' escapedDelimiter (readAsText text) := by
  induction text with
  | nil => rfl
  | cons c text ih =>
      by_cases hc : c = ':'
      · rw [hc, substitute_cons_self, readAsText_append, ih]
        rfl
      · rw [substitute_cons_of_ne hc]
        by_cases hcr : c = '\r'
        · rw [hcr]
          exact ih
        · have hkeep : ∀ text, readAsText (c :: text) = c :: readAsText text := fun text =>
            List.filter_cons_of_pos (decide_eq_true hcr)
          rw [hkeep, hkeep, ih, substitute_cons_of_ne hc]

lemma readAsText_write (h : IsMade fileMeta) :
    readAsText (write fileMeta) = write (withoutCarriageReturns fileMeta) := by
  have hrest : '\r' ∉ ':' :: (number fileMeta.unixTimestampInSeconds ++
      '\n' :: fileMeta.gpgSignature) := by
    simp only [List.mem_cons, List.mem_append, not_or]
    exact ⟨by decide, not_mem_number (by decide) (by decide), by decide, h.carriageReturn⟩
  rw [write, replace_singleton, readAsText_append, readAsText_substitute, readAsText_eq_self hrest,
    write, replace_singleton]
  rfl

lemma readAsText_writeAll (h : ∀ fileMeta ∈ metas, IsMade fileMeta) :
    readAsText (metas.flatMap write) = (metas.map withoutCarriageReturns).flatMap write := by
  induction metas with
  | nil => rfl
  | cons fileMeta metas ih =>
      obtain ⟨hfirst, hrest⟩ := List.forall_mem_cons.1 h
      rw [List.flatMap_cons, readAsText_append, readAsText_write hfirst, ih hrest]
      rfl

lemma isReadable_writeAll (hmade : ∀ fileMeta ∈ metas, IsMade fileMeta)
    (hcr : ∀ fileMeta ∈ metas, '\r' ∉ fileMeta.filePath)
    (hwritable : ∀ fileMeta ∈ metas,
      IsWritable fileMeta.filePath fileMeta.unixTimestampInSeconds) :
    IsReadable (metas.flatMap write) ∧ recordsOf (metas.flatMap write) = metas := by
  have hsame : metas.map withoutCarriageReturns = metas := by
    refine (List.map_congr_left fun fileMeta hmem => ?_).trans (List.map_id metas)
    rw [withoutCarriageReturns, readAsText_eq_self (hcr fileMeta hmem)]
    rfl
  have hwellFormed : ∀ fileMeta ∈ metas, WellFormed fileMeta := fun fileMeta hmem =>
    (hmade fileMeta hmem).wellFormed (hwritable fileMeta hmem).newline
  have hreadable : ∀ fileMeta ∈ metas, Readable fileMeta := fun fileMeta hmem =>
    (hmade fileMeta hmem).readable (hwritable fileMeta hmem)
  have hlines : linesOf (readAsText (metas.flatMap write)) = metas.flatMap recordLines := by
    rw [readAsText_writeAll hmade, hsame, linesOf_writeAll hwellFormed]
  constructor
  · rw [IsReadable, hlines, readInAllSigsFromSigFile_all hwellFormed hreadable]
  · rw [recordsOf, hlines, records_recordLines hwellFormed hreadable]

/-- **What was written is readable only without what the format cannot hold,** and loses the
carriage returns of the paths. -/
theorem isWritable_of_isReadable (hmade : ∀ fileMeta ∈ metas, IsMade fileMeta)
    (h : IsReadable (metas.flatMap write)) :
    recordsOf (metas.flatMap write) = metas.map withoutCarriageReturns ∧
      ∀ fileMeta ∈ metas,
        IsWritable (readAsText fileMeta.filePath) fileMeta.unixTimestampInSeconds := by
  have hmadeWithout : ∀ fileMeta ∈ metas.map withoutCarriageReturns, IsMade fileMeta := by
    intro fileMeta hmem
    obtain ⟨original, horiginal, rfl⟩ := List.mem_map.1 hmem
    exact ⟨(hmade original horiginal).armored, (hmade original horiginal).carriageReturn,
      (hmade original horiginal).isLongLong⟩
  have hcr : ∀ fileMeta ∈ metas.map withoutCarriageReturns, '\r' ∉ fileMeta.filePath := by
    intro fileMeta hmem
    obtain ⟨original, -, rfl⟩ := List.mem_map.1 hmem
    exact carriageReturn_not_mem_readAsText
  rw [IsReadable, readAsText_writeAll hmade] at h
  have hwritable := isWritable_of_read hmadeWithout hcr h
  refine ⟨?_, fun fileMeta hmem => hwritable _ (List.mem_map_of_mem hmem)⟩
  have hread := (isReadable_writeAll hmadeWithout hcr hwritable).2
  rw [recordsOf, ← readAsText_writeAll hmade,
    readAsText_eq_self carriageReturn_not_mem_readAsText] at hread
  exact hread

end Autobackup.RecursiveGpgTools
