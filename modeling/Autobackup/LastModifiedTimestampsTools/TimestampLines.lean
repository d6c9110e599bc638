import Autobackup.LastModifiedTimestampsTools.Hierarchy

/-!
# The lines of a hierarchy

Reading in text mode takes the carriage returns out of every line, and nothing else changes on the
way (`molestHeirarchy_eq`).  No line has the placeholder, so what is read from one is the path that
was written, unless it ends with a backslash (`filePath_of_ofLine`).  The path leads back to the
entry if the directory was given by a clean text (`filePathToMolest_entry`), and otherwise what it
leads to is shorter (`length_filePathToMolest_lt`).
-/

namespace Autobackup.LastModifiedTimestampsTools

open QString AbsolutePath Filesystem Filesystem.SimplifiedLastModifiedTimestamp

namespace Hierarchy

variable {o : Hierarchy} {entry : Path × TimedEntry} {now : Path → ℤ} {dirToMolest : AbsolutePath}
  {tree : Tree}

/-- What the line of an entry is about. -/
def filePathOf (o : Hierarchy) (entry : Path × TimedEntry) : Text :=
  (o.currentEntryLastModifiedTimestamp entry).filePath

/-- The line of an entry, as it is read. -/
def lineRead (o : Hierarchy) (entry : Path × TimedEntry) : Text :=
  readAsText (lineOf (o.filePathOf entry) entry.2.lastModified)

lemma toColonSeparatedLineOfText_entry (o : Hierarchy) (entry : Path × TimedEntry) :
    (o.currentEntryLastModifiedTimestamp entry).toColonSeparatedLineOfText =
      lineOf (o.filePathOf entry) entry.2.lastModified := by
  refine toColonSeparatedLineOfText_eq _ ?_
  rw [currentEntryLastModifiedTimestamp]
  cases entry.2.isDirectory <;> rfl

lemma isName_entry (hentry : entry ∈ o.entries) : ∀ name ∈ entry.1, IsName name :=
  fun name hname => ((o.isName entry hentry).2 name hname).1

/-- The names do not end with a slash. -/
lemma filePathOf_eq (o : Hierarchy) (entry : Path × TimedEntry) :
    o.filePathOf entry = o.relativePathNoLeadingSlash entry.1 ∨
      o.filePathOf entry = o.relativePathNoLeadingSlash entry.1 ++ ['/'] := by
  rw [filePathOf, currentEntryLastModifiedTimestamp]
  cases entry.2.isDirectory
  · exact .inl rfl
  · change Filesystem.appendSlashIfNeeded _ = _ ∨ Filesystem.appendSlashIfNeeded _ = _
    rw [Filesystem.appendSlashIfNeeded]
    split
    · exact .inl rfl
    · exact .inr rfl

/-- By how much the text of the directory is longer than it needs to be. -/
def excess (o : Hierarchy) : ℕ :=
  (Autobackup.appendSlashIfNeeded o.dirToCreateLastModifiedTimestampsFor).length -
    o.root.withSlash.length

lemma relativePathNoLeadingSlash_eq (o : Hierarchy) (path : Path) :
    o.relativePathNoLeadingSlash path = (joinNames path).drop (o.excess + 1) := by
  have hlength : o.root.withSlash.length ≤ _ := length_withSlash_absolute o.isAbsolute
  have hroot : o.root.withSlash.length = (joinNames o.root.names).length + 1 := by
    rw [withSlash, List.length_append]
    rfl
  have hle : (joinNames o.root.names).length ≤
      (Autobackup.appendSlashIfNeeded o.dirToCreateLastModifiedTimestampsFor).length := by omega
  rw [relativePathNoLeadingSlash, joinNames_append, List.drop_append, List.drop_eq_nil_of_le hle,
    List.nil_append, excess]
  congr 1
  omega

lemma excess_eq_zero (h : o.IsRestorable) : o.excess = 0 := Nat.sub_eq_zero_of_le h.clean

/-! ## The lines of the file -/

lemma mem_joinNames {names : List Text} {c : Char} (h : c ∈ joinNames names) :
    c = '/' ∨ ∃ name ∈ names, c ∈ name := by
  obtain ⟨name, hname, hc⟩ := List.mem_flatMap.1 h
  rcases List.mem_cons.1 hc with rfl | hc
  · exact .inl rfl
  · exact .inr ⟨name, hname, hc⟩

lemma mem_filePathOf {c : Char} (h : c ∈ o.filePathOf entry) :
    c = '/' ∨ ∃ name ∈ entry.1, c ∈ name := by
  have hrelative : c ∈ o.relativePathNoLeadingSlash entry.1 →
      c = '/' ∨ ∃ name ∈ entry.1, c ∈ name := by
    rw [relativePathNoLeadingSlash_eq]
    exact fun hmem => mem_joinNames (List.mem_of_mem_drop hmem)
  rcases o.filePathOf_eq entry with heq | heq
  · exact hrelative (heq ▸ h)
  · rw [heq] at h
    rcases List.mem_append.1 h with hmem | hmem
    · exact hrelative hmem
    · exact .inl (List.mem_singleton.1 hmem)

lemma mem_lineOf {filePath : Text} {s : ℤ} {c : Char} (h : c ∈ lineOf filePath s)
    (hdigit : c.isDigit = false) (hminus : c ≠ '-') (hescaped : c ∉ colonEscaped) :
    c ∈ filePath := by
  rcases List.mem_append.1 h with hmem | hmem
  · rcases mem_of_mem_substitute hmem with hmem | hmem
    · exact absurd hmem hescaped
    · exact hmem
  · rcases List.mem_cons.1 hmem with rfl | hmem
    · exact absurd (by decide) hescaped
    · exact absurd hmem (not_mem_number hdigit hminus)

lemma newline_not_mem_lineOf (hentry : entry ∈ o.entries) :
    '\n' ∉ lineOf (o.filePathOf entry) entry.2.lastModified := fun h => by
  have hmem := mem_lineOf h (by decide) (by decide) (by decide)
  rcases mem_filePathOf hmem with heq | ⟨name, hname, hmem⟩
  · exact absurd heq (by decide)
  · exact ((o.isName entry hentry).2 name hname).2 hmem

lemma lineRead_ne_nil : o.lineRead entry ≠ [] := fun h => by
  have hcolon : ':' ∈ o.lineRead entry := by
    rw [lineRead, lineOf, readAsText_append, readAsText_cons (by decide)]
    exact List.mem_append_right _ List.mem_cons_self
  rw [h] at hcolon
  exact absurd hcolon List.not_mem_nil

/-- **Every line is read, without its carriage returns.** -/
theorem molestHeirarchy_eq :
    molestHeirarchy now dirToMolest tree o.generateLastModifiedTimestampsFile =
      (o.entries.map o.lineRead).foldlM (molestEntry now dirToMolest) tree := by
  have hnewline : ∀ line ∈ o.entries.map o.lineRead, '\n' ∉ line := fun line hline => by
    obtain ⟨entry, hentry, rfl⟩ := List.mem_map.1 hline
    exact fun h => newline_not_mem_lineOf hentry (mem_of_mem_readAsText h)
  have hchomp : (o.entries.map o.lineRead).map chomp = o.entries.map o.lineRead := by
    refine (List.map_congr_left fun line hline => ?_).trans (List.map_id _)
    obtain ⟨entry, hentry, rfl⟩ := List.mem_map.1 hline
    refine chomp_eq_self fun hlast => ?_
    exact carriageReturn_not_mem_readAsText (List.mem_of_getLast? hlast)
  have hread : linesOf (readAsText o.generateLastModifiedTimestampsFile) =
      o.entries.map o.lineRead := by
    rw [generateLastModifiedTimestampsFile, readAsText_joinLines, List.map_map]
    have hlines : o.entries.map (readAsText ∘ fun entry =>
        (o.currentEntryLastModifiedTimestamp entry).toColonSeparatedLineOfText) =
          o.entries.map o.lineRead :=
      List.map_congr_left fun entry _ =>
        congrArg readAsText (o.toColonSeparatedLineOfText_entry entry)
    rw [hlines, ← List.append_nil (joinLines _), linesOf_joinLines_append hnewline, hchomp]
    exact List.append_nil _
  have hfilter : (o.entries.map o.lineRead).filter (· ≠ []) = o.entries.map o.lineRead := by
    refine List.filter_eq_self.2 fun line hline => decide_eq_true ?_
    obtain ⟨entry, -, rfl⟩ := List.mem_map.1 hline
    exact lineRead_ne_nil
  rw [molestHeirarchy, hread, hfilter]

/-! ## What is read from them -/

lemma not_illegal_relativePath (hentry : entry ∈ o.entries) :
    ¬ illegalFilePath <:+: o.relativePathNoLeadingSlash entry.1 := fun h => by
  have hslashes : ['/', '/'] <:+: illegalFilePath := by decide
  rw [relativePathNoLeadingSlash_eq] at h
  exact not_slashes_infix (isName_entry hentry)
    (hslashes.trans (h.trans (List.drop_suffix _ _).isInfix))

/-- No carriage return is read. -/
lemma carriageReturn_not_mem_filePath {line : Text} {t : SimplifiedLastModifiedTimestamp}
    (h : ofLine line = some t) (hline : '\r' ∉ line) : '\r' ∉ t.filePath := by
  rw [ofLine] at h
  split at h
  · rename_i filePath timestamp hsplit
    obtain ⟨s, -, rfl⟩ := Option.map_eq_some_iff.1 h
    intro hmem
    have hfield : filePath ∈ splitSkippingEmptyParts ':'
        (replace colonEscaped illegalFilePath line) := by
      rw [hsplit]
      exact List.mem_cons_self
    rcases mem_of_mem_replace hmem with hcolon | hmem
    · exact absurd hcolon (by decide)
    · have hin := (mem_splitOn _ (List.mem_of_mem_filter hfield) _ hmem).1
      rcases mem_of_mem_replace hin with hillegal | hin
      · exact absurd hillegal (by decide)
      · exact hline hin
  · exact absurd h.symm (Option.some_ne_none _)

/-- What is read is what was written. -/
lemma filePath_of_ofLine {t : SimplifiedLastModifiedTimestamp} (hentry : entry ∈ o.entries)
    (h : ofLine (lineOf (o.filePathOf entry) entry.2.lastModified) = some t) :
    t.filePath = o.filePathOf entry := by
  have hs := o.isLongLong entry hentry
  have hillegal := not_illegal_relativePath hentry
  rcases o.filePathOf_eq entry with heq | heq
  · rw [heq] at h ⊢
    by_cases hlast : (o.relativePathNoLeadingSlash entry.1).getLast? = some '\\'
    · rw [ofLine_lineOf_eq_none hlast] at h
      exact absurd h.symm (Option.some_ne_none _)
    · by_cases hnil : o.relativePathNoLeadingSlash entry.1 = []
      · rw [hnil, ofLine_lineOf_nil] at h
        exact absurd h.symm (Option.some_ne_none _)
      · rw [ofLine_lineOf hnil hillegal hs hlast] at h
        exact (congrArg filePath (Option.some.inj h)).symm
  · rw [heq] at h ⊢
    rw [ofLine_lineOf_slash hillegal hs] at h
    exact (congrArg filePath (Option.some.inj h)).symm

/-! ## What a line leads to -/

lemma filePathToMolest_filePathOf :
    filePathToMolest dirToMolest (o.filePathOf entry) =
      filePathToMolest dirToMolest (o.relativePathNoLeadingSlash entry.1) := by
  rcases o.filePathOf_eq entry with heq | heq
  · rw [heq]
  · rw [heq, filePathToMolest, split_concat, filePathToMolest]

lemma split_tail {names : List Text} (hnames : ∀ name ∈ names, IsName name) :
    splitSkippingEmptyParts '/' ((joinNames names).drop 1) = names := by
  cases names with
  | nil => rfl
  | cons name names =>
      have hsplit := split_joinNames hnames
      rw [joinNames_cons, splitSkippingEmptyParts_cons_self] at hsplit
      exact hsplit

/-- **The line of an entry leads to it**, if the directory was given by a clean text. -/
theorem filePathToMolest_entry (h : o.excess = 0) (hentry : entry ∈ o.entries) :
    filePathToMolest dirToMolest (o.filePathOf entry) = dirToMolest.names ++ entry.1 := by
  have hnames := isName_entry hentry
  rw [filePathToMolest_filePathOf, relativePathNoLeadingSlash_eq, h, filePathToMolest,
    split_tail hnames, foldl_enter hnames]

lemma two_le_length_joinNames {names : List Text} (hnames : ∀ name ∈ names, IsName name)
    (hne : names ≠ []) : 2 ≤ (joinNames names).length := by
  obtain ⟨name, names, rfl⟩ := List.exists_cons_of_ne_nil hne
  have hname := List.length_pos_of_ne_nil (hnames name List.mem_cons_self).1
  rw [joinNames_cons, List.length_cons, List.length_append]
  omega

/-- Otherwise it leads to something shorter. -/
theorem length_filePathToMolest_lt (h : o.excess ≠ 0) (hentry : entry ∈ o.entries) :
    (joinNames (filePathToMolest fileSystemRoot (o.filePathOf entry))).length <
      (joinNames entry.1).length := by
  have hentry2 := two_le_length_joinNames (isName_entry hentry) (o.isName entry hentry).1
  have hfold := length_joinNames_foldl_enter []
    (splitSkippingEmptyParts '/' (o.relativePathNoLeadingSlash entry.1))
  have hsplit := length_joinNames_split (o.relativePathNoLeadingSlash entry.1)
  have hlength : (o.relativePathNoLeadingSlash entry.1).length =
      (joinNames entry.1).length - (o.excess + 1) := by
    rw [relativePathNoLeadingSlash_eq, List.length_drop]
  have hnil : (joinNames []).length = 0 := rfl
  rw [filePathToMolest_filePathOf]
  change (joinNames (List.foldl enter [] _)).length < _
  omega

lemma getLast?_joinNames_ne {names : List Text} (hnames : ∀ name ∈ names, IsName name) :
    (joinNames names).getLast? ≠ some '/' := by
  cases names using List.reverseRecOn with
  | nil => exact (Option.some_ne_none _).symm
  | append_singleton front name =>
      obtain ⟨hne, hslash, -⟩ := hnames name (List.mem_append_right _ List.mem_cons_self)
      intro h
      obtain ⟨start, c, rfl⟩ := (List.eq_nil_or_concat' name).resolve_left hne
      have hjoin : joinNames (front ++ [start ++ [c]]) =
          joinNames front ++ '/' :: start ++ [c] := by
        simp [joinNames]
      rw [hjoin, List.getLast?_concat] at h
      exact hslash (Option.some.inj h ▸ List.mem_append_right _ List.mem_cons_self)

lemma getLast?_relativePath (h : o.excess = 0) (hentry : entry ∈ o.entries) :
    (o.relativePathNoLeadingSlash entry.1).getLast? = (joinNames entry.1).getLast? := by
  have hlength := two_le_length_joinNames (isName_entry hentry) (o.isName entry hentry).1
  rw [relativePathNoLeadingSlash_eq, h, List.getLast?_drop, if_neg (by omega)]

lemma lineRead_eq (hreturn : ∀ name ∈ entry.1, '\r' ∉ name) :
    o.lineRead entry = lineOf (o.filePathOf entry) entry.2.lastModified := by
  refine readAsText_eq_self fun hmem => ?_
  rcases mem_filePathOf (mem_lineOf hmem (by decide) (by decide) (by decide)) with
    heq | ⟨name, hname, hmem⟩
  · exact absurd heq (by decide)
  · exact hreturn name hname hmem

/-- **A line is read as it was written**, if it is not that of a file with a backslash at the end of
its name. -/
theorem ofLine_lineRead (h : o.excess = 0) (hentry : entry ∈ o.entries)
    (hreturn : ∀ name ∈ entry.1, '\r' ∉ name)
    (hbackslash : entry.2.isDirectory = false → (joinNames entry.1).getLast? ≠ some '\\') :
    ofLine (o.lineRead entry) =
      some ⟨o.filePathOf entry, entry.2.isDirectory, entry.2.lastModified * 1000⟩ := by
  have hillegal := not_illegal_relativePath hentry
  have hlast := getLast?_relativePath h hentry
  have hslash : (o.relativePathNoLeadingSlash entry.1).getLast? ≠ some '/' := by
    rw [hlast]
    exact getLast?_joinNames_ne (isName_entry hentry)
  have hs := o.isLongLong entry hentry
  rw [lineRead_eq hreturn]
  cases hdirectory : entry.2.isDirectory with
  | true =>
      have hpath : o.filePathOf entry = o.relativePathNoLeadingSlash entry.1 ++ ['/'] := by
        rw [filePathOf, currentEntryLastModifiedTimestamp, hdirectory]
        exact if_neg hslash
      rw [hpath, ofLine_lineOf_slash hillegal hs]
  | false =>
      have hpath : o.filePathOf entry = o.relativePathNoLeadingSlash entry.1 := by
        rw [filePathOf, currentEntryLastModifiedTimestamp, hdirectory]
        rfl
      have hne : o.relativePathNoLeadingSlash entry.1 ≠ [] := fun hnil => by
        have hlength := two_le_length_joinNames (isName_entry hentry) (o.isName entry hentry).1
        rw [relativePathNoLeadingSlash_eq, h, List.drop_eq_nil_iff] at hnil
        omega
      have hdetect : detectIfFilePathIsDirectory (o.relativePathNoLeadingSlash entry.1) = false :=
        decide_eq_false hslash
      rw [hpath, ofLine_lineOf hne hillegal hs (hlast ▸ hbackslash hdirectory), hdetect]

end Hierarchy

end Autobackup.LastModifiedTimestampsTools
