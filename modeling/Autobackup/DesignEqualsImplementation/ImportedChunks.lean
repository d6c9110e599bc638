import Autobackup.DesignEqualsImplementation.CppEditMode
import Mathlib.Data.List.Nodup

/-!
# Imported chunks

Outside of the delimiting comments nothing is read.  A gap is read from its comments, and what was
written in it is inserted as many places further back as there are chunks in front of it in its slot
already (`importLines_pair`).  So the statements that were read are followed by the chunks, slot by
slot and source by source (`CppEdit.lands_of_isPlain`).

The project is imported in the form in which it was generated: the sources are those of this
project, with text put into the gaps and nowhere else.  That the editor kept the comments and the
generated lines is taken for granted; what the user writes may be any lines, as long as none of them
looks like a delimiting comment.
-/

namespace Autobackup.DesignEqualsImplementation

open QString ImportState

namespace ImportState

/-- The fold over the lines of some texts. -/
def importLines (st : ImportState) (texts : List Text) : Option ImportState :=
  (texts.flatMap readLines).foldlM importLine st

variable {st st' : ImportState} {texts texts' : List Text} {text line : Text}

lemma importLines_append : importLines st (texts ++ texts') =
    (importLines st texts).bind fun st => importLines st texts' := by
  rw [importLines, List.flatMap_append, List.foldlM_append]
  rfl

lemma importLines_cons : importLines st (text :: texts) =
    ((readLines text).foldlM importLine st).bind fun st => importLines st texts := by
  rw [importLines, List.flatMap_cons, List.foldlM_append]
  rfl

lemma importLines_nil : importLines st [] = some st := rfl

lemma importLines_cons_line (h : readLines line = [line]) :
    importLines st (line :: texts) = (importLine st line).bind fun st => importLines st texts := by
  have hone : [line].foldlM importLine st = importLine st line := by
    rw [List.foldlM_cons]
    exact bind_pure (st.importLine line)
  rw [importLines_cons, h, hone]

/-! ## Outside of the comments -/

/-- No comment is being read. -/
structure IsOutside (st : ImportState) : Prop where
  comment : st.inBeginChunkOfRawCppStatementsComment = false
  chunk : st.inChunkOfRawCppStatements = false
  lines : st.chunkOfRawCppStatements = []

lemma importLine_of_isOutside (hst : st.IsOutside)
    (h : contains line ('[' :: beginChunkOfRawCppStatements) = false) :
    importLine st line = some st := by
  rw [importLine, hst.comment, hst.chunk, h]
  split <;> rfl

lemma importLines_of_isOutside (hst : st.IsOutside)
    (h : ∀ text ∈ texts, contains text ('[' :: beginChunkOfRawCppStatements) = false) :
    importLines st texts = some st := by
  have hlines : ∀ line ∈ texts.flatMap readLines,
      contains line ('[' :: beginChunkOfRawCppStatements) = false := fun line hline => by
    obtain ⟨text, htext, hline⟩ := List.mem_flatMap.1 hline
    refine Bool.eq_false_iff.2 fun hcontains => Bool.eq_false_iff.1 (h text htext) ?_
    exact contains_iff.2 ((contains_iff.1 hcontains).trans (isInfix_of_mem_readLines hline))
  rw [importLines]
  generalize texts.flatMap readLines = lines at hlines
  induction lines with
  | nil => rfl
  | cons line lines ih =>
      obtain ⟨hline, hrest⟩ := List.forall_mem_cons.1 hlines
      rw [List.foldlM_cons, importLine_of_isOutside hst hline]
      exact ih hrest

/-! ## The comments of a gap -/

/-- A line of the opening comments that says nothing. -/
lemma importLine_comment (hcomment : st.inBeginChunkOfRawCppStatementsComment = true)
    (hchunk : st.inChunkOfRawCppStatements = false)
    (h : IsSkipped line ∨ contains line classPrefix = false ∧
      contains line slotIndexPrefix = false ∧ contains line statementInsertIndexPrefix = false ∧
      contains line ("[/".toList ++ beginChunkOfRawCppStatements) = false) :
    importLine st line = some st := by
  rw [importLine, hcomment, hchunk]
  split
  · rfl
  · next hskipped =>
      obtain ⟨hclass, hslot, hstatement, hbegin⟩ := h.resolve_left hskipped
      rw [hclass, hslot, hstatement, hbegin]
      rfl

lemma not_isSkipped {c : Char} (h : c ∈ line) (hspace : isSpace c = false)
    (hslashes : c ∉ "//".toList) (hhelper : c ∉ chunkOfRawCppGoesHereHelperComment) :
    ¬ IsSkipped line := by
  have hmem := mem_trimmed h hspace
  rintro (heq | heq | heq)
  · rw [heq] at hmem
    exact List.not_mem_nil hmem
  · rw [heq] at hmem
    exact hslashes hmem
  · rw [heq] at hmem
    exact hhelper hmem

variable {className : Text} {slotIndex i : ℕ}

lemma readLines_concat {front rest : Text} (hfront : '\n' ∉ front) (hrest : '\n' ∉ rest)
    (hlast : rest.getLast? ≠ some '\r') (hne : rest ≠ []) :
    readLines (front ++ rest) = [front ++ rest] := by
  have hmem : '\n' ∉ front ++ rest := fun h => (List.mem_append.1 h).elim hfront hrest
  have hend : (front ++ rest).getLast? ≠ some '\r' := by
    rw [List.getLast?_append_of_ne_nil _ hne]
    exact hlast
  rw [readLines_of_not_mem hmem, chomp_eq_self hend]

lemma IsIdentifierChar_ne {c d : Char} (h : c.isAlphanum = true ∨ c = '_')
    (hd : d.isAlphanum = false) (hd' : d ≠ '_') : c ≠ d := by
  rintro rfl
  rcases h with h | h
  · rw [hd] at h
    exact Bool.false_ne_true h
  · exact hd' h

lemma not_mem_of_isIdentifier {c : Char} (h : IsIdentifier className) (hc : c.isAlphanum = false)
    (hc' : c ≠ '_') : c ∉ className := fun hmem => IsIdentifierChar_ne (h.2 c hmem) hc hc' rfl

/-- A comment with a value. -/
lemma split_lineOf {c : Char} {comment front separator value : Text}
    (hcomment : comment = front ++ c :: separator) (hfront : c ∉ front)
    (hvalue : ¬ c :: separator <:+: value) :
    split (c :: separator) (comment ++ value) = [front, value] := by
  rw [hcomment, List.append_assoc]
  exact split_append hfront hvalue

lemma importLine_className (hcomment : st.inBeginChunkOfRawCppStatementsComment = true)
    (hchunk : st.inChunkOfRawCppStatements = false) (h : IsIdentifier className) :
    importLine st (tab ++ "//Class: ".toList ++ className) =
      some { st with
        className
        rollingStatementOffset :=
          if className ≠ st.lastSeenClass then 0 else st.rollingStatementOffset
        lastSeenClass := className } := by
  have hskipped : ¬ IsSkipped (tab ++ "//Class: ".toList ++ className) :=
    not_isSkipped (c := 'l') (List.mem_append_left _ (by decide)) (by decide) (by decide)
      (by decide)
  have hcontains : contains (tab ++ "//Class: ".toList ++ className) classPrefix = true :=
    contains_iff.2 ⟨tab ++ "//".toList, className, rfl⟩
  have hname : ¬ classPrefix <:+: className := fun hpart =>
    not_mem_of_isIdentifier h (c := ' ') (by decide) (by decide) (hpart.subset (by decide))
  have hsplit : split classPrefix (tab ++ "//Class: ".toList ++ className) =
      [tab ++ "//".toList, className] := split_lineOf rfl (by decide) hname
  rw [importLine, if_neg hskipped, hcomment, hchunk, hcontains, hsplit]
  rfl

lemma importLine_slotIndex (hcomment : st.inBeginChunkOfRawCppStatementsComment = true)
    (hchunk : st.inChunkOfRawCppStatements = false) (h : IsInt slotIndex) :
    importLine st (tab ++ "//SlotIndex: ".toList ++ number slotIndex) =
      some { st with
        slotIndex
        rollingStatementOffset :=
          if (slotIndex : ℤ) ≠ st.lastSeenSlotIndex then 0 else st.rollingStatementOffset
        lastSeenSlotIndex := slotIndex } := by
  have hskipped : ¬ IsSkipped (tab ++ "//SlotIndex: ".toList ++ number slotIndex) :=
    not_isSkipped (c := 'l') (List.mem_append_left _ (by decide)) (by decide) (by decide)
      (by decide)
  have hclass : contains (tab ++ "//SlotIndex: ".toList ++ number slotIndex) classPrefix = false :=
    contains_eq_false (c := 'C') (by decide) fun hmem =>
      (List.mem_append.1 hmem).elim (by decide) (not_mem_number (by decide) (by decide))
  have hcontains :
      contains (tab ++ "//SlotIndex: ".toList ++ number slotIndex) slotIndexPrefix = true :=
    contains_iff.2 ⟨tab ++ "//".toList, number slotIndex, rfl⟩
  have hnumber : ¬ slotIndexPrefix <:+: number slotIndex := fun hpart =>
    not_mem_number (c := ' ') (by decide) (by decide) (hpart.subset (by decide))
  have hsplit : split slotIndexPrefix (tab ++ "//SlotIndex: ".toList ++ number slotIndex) =
      [tab ++ "//".toList, number slotIndex] := split_lineOf rfl (by decide) hnumber
  rw [importLine, if_neg hskipped, hcomment, hchunk, hclass, hcontains, hsplit]
  simp only [toInt_number h]
  rfl

lemma importLine_statementInsertIndex (hcomment : st.inBeginChunkOfRawCppStatementsComment = true)
    (hchunk : st.inChunkOfRawCppStatements = false) (h : IsInt i) :
    importLine st (tab ++ "//StatementInsertIndex: ".toList ++ number i) =
      some { st with statementInsertIndex := i } := by
  have hskipped : ¬ IsSkipped (tab ++ "//StatementInsertIndex: ".toList ++ number i) :=
    not_isSkipped (c := 't') (List.mem_append_left _ (by decide)) (by decide) (by decide)
      (by decide)
  have hclass :
      contains (tab ++ "//StatementInsertIndex: ".toList ++ number i) classPrefix = false :=
    contains_eq_false (c := 'C') (by decide) fun hmem =>
      (List.mem_append.1 hmem).elim (by decide) (not_mem_number (by decide) (by decide))
  have hslot :
      contains (tab ++ "//StatementInsertIndex: ".toList ++ number i) slotIndexPrefix = false :=
    contains_eq_false (c := 'l') (by decide) fun hmem =>
      (List.mem_append.1 hmem).elim (by decide) (not_mem_number (by decide) (by decide))
  have hcontains : contains (tab ++ "//StatementInsertIndex: ".toList ++ number i)
      statementInsertIndexPrefix = true :=
    contains_iff.2 ⟨tab ++ "//".toList, number i, rfl⟩
  have hnumber : ¬ statementInsertIndexPrefix <:+: number i := fun hpart =>
    not_mem_number (c := ' ') (by decide) (by decide) (hpart.subset (by decide))
  have hsplit : split statementInsertIndexPrefix
      (tab ++ "//StatementInsertIndex: ".toList ++ number i) = [tab ++ "//".toList, number i] :=
    split_lineOf rfl (by decide) hnumber
  rw [importLine, if_neg hskipped, hcomment, hchunk, hclass, hslot, hcontains, hsplit]
  simp only [toInt_number h]
  rfl

/-- The places that the gaps of a slot have been moved. -/
def offsetIn (st : ImportState) (className : Text) (slotIndex : ℕ) : ℕ :=
  if className = st.lastSeenClass ∧ slotIndex = st.lastSeenSlotIndex then st.rollingStatementOffset
  else 0

/-- A gap is being read. -/
def inside (st : ImportState) (className : Text) (slotIndex i : ℕ) (lines : List Text) :
    ImportState where
  classes := st.classes
  inBeginChunkOfRawCppStatementsComment := true
  className
  slotIndex
  statementInsertIndex := i
  inChunkOfRawCppStatements := true
  chunkOfRawCppStatements := lines
  rollingStatementOffset := st.offsetIn className slotIndex
  lastSeenClass := className
  lastSeenSlotIndex := slotIndex

lemma readLines_lineOf {front value : Text} (hfront : '\n' ∉ front)
    (hvalue : '\n' ∉ value) (hlast : '\r' ∉ value) (hne : value ≠ []) :
    readLines (front ++ value) = [front ++ value] :=
  readLines_concat hfront hvalue (fun h => hlast (List.mem_of_getLast? h)) hne

lemma importLines_cons_comment {line : Text} (hread : readLines line = [line])
    (h : importLine st line = some st') :
    importLines st (line :: texts) = importLines st' texts := by
  rw [importLines_cons_line hread, h]
  rfl

lemma natCast_ne_neg_one (n : ℕ) : (n : ℤ) ≠ -1 := by omega

lemma importLine_endOfOpeningComments (hcomment : st.inBeginChunkOfRawCppStatementsComment = true)
    (hchunk : st.inChunkOfRawCppStatements = false) (hclass : st.className ≠ [])
    (hslot : st.slotIndex ≠ -1) (hstatement : st.statementInsertIndex ≠ -1) :
    importLine st (tab ++ "//[/".toList ++ beginChunkOfRawCppStatements) =
      some { st with inChunkOfRawCppStatements := true } := by
  have hskipped : ¬ IsSkipped (tab ++ "//[/".toList ++ beginChunkOfRawCppStatements) := by
    decide +kernel
  have hprefixes :
      contains (tab ++ "//[/".toList ++ beginChunkOfRawCppStatements) classPrefix = false ∧
      contains (tab ++ "//[/".toList ++ beginChunkOfRawCppStatements) slotIndexPrefix = false ∧
      contains (tab ++ "//[/".toList ++ beginChunkOfRawCppStatements)
        statementInsertIndexPrefix = false := by
    decide +kernel
  have hcontains : contains (tab ++ "//[/".toList ++ beginChunkOfRawCppStatements)
      ("[/".toList ++ beginChunkOfRawCppStatements) = true := by decide +kernel
  rw [importLine, if_neg hskipped, hcomment, hchunk, hprefixes.1, hprefixes.2.1, hprefixes.2.2,
    hcontains]
  exact if_neg (not_or.2 ⟨hclass, not_or.2 ⟨hslot, hstatement⟩⟩)

/-- **The opening comments say which gap follows.** -/
theorem importLines_openingComments (hst : st.IsOutside) (hname : IsIdentifier className)
    (hslot : IsInt slotIndex) (hi : IsInt i) :
    importLines st (openingComments className slotIndex i) =
      some (st.inside className slotIndex i []) := by
  have hbegin : importLine st (tab ++ "//[".toList ++ beginChunkOfRawCppStatements) =
      some { st with inBeginChunkOfRawCppStatementsComment := true } := by
    have hskipped : ¬ IsSkipped (tab ++ "//[".toList ++ beginChunkOfRawCppStatements) := by
      decide +kernel
    have hcontains : contains (tab ++ "//[".toList ++ beginChunkOfRawCppStatements)
        ('[' :: beginChunkOfRawCppStatements) = true := by decide +kernel
    rw [importLine, if_neg hskipped, hst.comment, hst.chunk, hcontains]
    rfl
  have hnewline : '\n' ∉ className := not_mem_of_isIdentifier hname (by decide) (by decide)
  have hreturn : '\r' ∉ className := not_mem_of_isIdentifier hname (by decide) (by decide)
  have hnumber (n : ℕ) : '\n' ∉ number n ∧ '\r' ∉ number n :=
    ⟨not_mem_number (by decide) (by decide), not_mem_number (by decide) (by decide)⟩
  rw [openingComments]
  refine Eq.trans (importLines_cons_comment (by decide +kernel) hbegin) ?_
  refine Eq.trans (importLines_cons_comment (by decide +kernel)
    (importLine_comment rfl hst.chunk (by decide +kernel))) ?_
  refine Eq.trans (importLines_cons_comment (by decide +kernel)
    (importLine_comment rfl hst.chunk (by decide +kernel))) ?_
  refine Eq.trans (importLines_cons_comment
    (readLines_lineOf (by decide) hnewline hreturn hname.1)
    (importLine_className rfl hst.chunk hname)) ?_
  refine Eq.trans (importLines_cons_comment
    (readLines_lineOf (by decide) (hnumber slotIndex).1 (hnumber slotIndex).2 number_ne_nil)
    (importLine_slotIndex rfl hst.chunk hslot)) ?_
  refine Eq.trans (importLines_cons_comment
    (readLines_lineOf (by decide) (hnumber i).1 (hnumber i).2 number_ne_nil)
    (importLine_statementInsertIndex rfl hst.chunk hi)) ?_
  refine Eq.trans (importLines_cons_comment (by decide +kernel)
    (importLine_comment rfl hst.chunk (by decide +kernel))) ?_
  refine Eq.trans (importLines_cons_comment (by decide +kernel)
    (importLine_comment rfl hst.chunk (by decide +kernel))) ?_
  refine Eq.trans (importLines_cons_comment (by decide +kernel)
    (importLine_endOfOpeningComments rfl hst.chunk hname.1 (natCast_ne_neg_one _)
      (natCast_ne_neg_one _))) ?_
  have hoffset : (if (slotIndex : ℤ) ≠ st.lastSeenSlotIndex then 0
      else if className ≠ st.lastSeenClass then 0 else st.rollingStatementOffset) =
      st.offsetIn className slotIndex := by
    unfold offsetIn
    split_ifs <;> first | rfl | tauto
  rw [importLines_nil, inside, ← hoffset, hst.lines]

/-! ## A gap -/

/-- A line that a gap can have. -/
structure IsLineOfGap (line : Text) : Prop where
  newline : '\n' ∉ line
  carriageReturn : line.getLast? ≠ some '\r'
  delimiter : contains line ('[' :: endChunkOfRawCppStatements) = false

lemma importLine_inside {lines : List Text} (h : IsLineOfGap line) :
    importLine (st.inside className slotIndex i lines) line =
      some (st.inside className slotIndex i
        (lines ++ [line].filter fun line => ¬ IsSkipped line)) := by
  rw [importLine]
  by_cases hskipped : IsSkipped line
  · rw [if_pos hskipped, List.filter_cons_of_neg (by simpa using hskipped), List.filter_nil,
      List.append_nil]
  · rw [if_neg hskipped, List.filter_cons_of_pos (by simpa using hskipped), List.filter_nil,
      h.delimiter]
    rfl

/-- The lines that are not skipped are collected. -/
lemma importLines_inside {lines : List Text} (h : ∀ line ∈ texts, IsLineOfGap line) :
    importLines (st.inside className slotIndex i lines) texts =
      some (st.inside className slotIndex i
        (lines ++ texts.filter fun line => ¬ IsSkipped line)) := by
  induction texts generalizing lines with
  | nil => rw [List.filter_nil, List.append_nil, importLines_nil]
  | cons line texts ih =>
      obtain ⟨hline, htexts⟩ := List.forall_mem_cons.1 h
      have hread : readLines line = [line] := by
        rw [readLines_of_not_mem hline.newline, chomp_eq_self hline.carriageReturn]
      have hfilter : ((line :: texts).filter fun line => ¬ IsSkipped line) =
          ([line].filter fun line => ¬ IsSkipped line) ++
            texts.filter fun line => ¬ IsSkipped line :=
        List.filter_append [line] texts
      rw [importLines_cons_comment hread (importLine_inside hline), ih htexts, hfilter,
        List.append_assoc]

/-- The gap was read, and its chunks were inserted. -/
def behind (st : ImportState) (className : Text) (slotIndex i : ℕ) (classes : List DesignClass)
    (chunks : ℕ) : ImportState :=
  { st.inside className slotIndex i [] with
    classes
    inBeginChunkOfRawCppStatementsComment := false
    inChunkOfRawCppStatements := false
    rollingStatementOffset := st.offsetIn className slotIndex + chunks }

variable {classes : List DesignClass} {chunks : ℕ}

lemma isOutside_behind : (st.behind className slotIndex i classes chunks).IsOutside :=
  ⟨rfl, rfl, rfl⟩

lemma offsetIn_behind : (st.behind className slotIndex i classes chunks).offsetIn className
    slotIndex = st.offsetIn className slotIndex + chunks :=
  if_pos ⟨rfl, rfl⟩

lemma importLines_closingComments {lines : List Text}
    (hinserted : lines = [] ∧ classes = st.classes ∧ chunks = 0 ∨
      lines ≠ [] ∧ chunks = 1 ∧ insertChunk st.classes className slotIndex
        (i + st.offsetIn className slotIndex) lines = some classes) :
    importLines (st.inside className slotIndex i lines) closingComments =
      some (st.behind className slotIndex i classes chunks) := by
  have hskipped : ¬ IsSkipped (tab ++ "//[".toList ++ endChunkOfRawCppStatements) := by
    decide +kernel
  have hcontains : contains (tab ++ "//[".toList ++ endChunkOfRawCppStatements)
      ('[' :: endChunkOfRawCppStatements) = true := by decide +kernel
  have hend : importLine (st.inside className slotIndex i lines)
      (tab ++ "//[".toList ++ endChunkOfRawCppStatements) =
        some (st.behind className slotIndex i classes chunks) := by
    rw [importLine, if_neg hskipped, hcontains]
    rcases hinserted with ⟨rfl, rfl, rfl⟩ | ⟨hlines, rfl, hinsert⟩
    · rfl
    · simp only [inside, if_neg hlines, hinsert]
      rfl
  rw [closingComments, importLines_cons_comment (by decide +kernel) hend]
  exact importLines_of_isOutside isOutside_behind (by decide +kernel)

end ImportState

/-! ## A slot -/

/-- A slot, and what is around it. -/
structure Place where
  before : List DesignClass
  designClass : DesignClass
  after : List DesignClass
  front : List ClassSlot
  slot : ClassSlot
  rear : List ClassSlot
  /-- `classFromClassName` finds the class. -/
  found : ∀ c ∈ before, c.name ≠ designClass.name

namespace Place

variable (p : Place)

def slotIndex : ℕ := p.front.length

/-- The class, when the slot has some statements. -/
def classWith (statements : List SlotStatement) : DesignClass :=
  { p.designClass with
    mySlots := p.front ++ { p.slot with orderedListOfStatements := statements } :: p.rear }

def classes (statements : List SlotStatement) : List DesignClass :=
  p.before ++ p.classWith statements :: p.after

end Place

namespace ImportState

variable {st : ImportState} {p : Place} {i : ℕ} {done rest statements : List SlotStatement}

lemma modifyClass_append {f : DesignClass → Option DesignClass} {c : DesignClass}
    {before after : List DesignClass} (h : ∀ c' ∈ before, c'.name ≠ c.name) :
    modifyClass f c.name (before ++ c :: after) = (f c).map fun c => before ++ c :: after := by
  induction before with
  | nil => exact if_pos rfl
  | cons c' before ih =>
      obtain ⟨hc', hbefore⟩ := List.forall_mem_cons.1 h
      rw [List.cons_append, modifyClass, if_neg hc', ih hbefore, Option.map_map]
      rfl

lemma modifySlot_append {f : ClassSlot → ClassSlot} {slot : ClassSlot}
    {front rear : List ClassSlot} :
    modifySlot f (front ++ slot :: rear) front.length = some (front ++ f slot :: rear) := by
  have hlength : (front.length : ℤ) < (front ++ slot :: rear).length := by
    rw [List.length_append, List.length_cons]
    omega
  rw [modifySlot, if_pos ⟨Int.natCast_nonneg _, hlength⟩, Int.toNat_natCast,
    List.modify_eq_take_drop, List.take_left, List.drop_left, List.modifyHead_cons]

/-- A chunk is inserted behind the statements that were read. -/
lemma insertChunk_classes {lines : List Text} {index : ℤ} (h : index = done.length) :
    insertChunk (p.classes (done ++ rest)) p.designClass.name p.slotIndex index lines =
      some (p.classes (done ++ .chunkOfRawCppStatements lines :: rest)) := by
  have hinsert : QList.insert (done ++ rest) done.length (.chunkOfRawCppStatements lines) =
      done ++ .chunkOfRawCppStatements lines :: rest := by
    rw [QList.insert, List.take_left, List.drop_left]
  have hslots : modifySlot
      (insertIntoSlot (done.length : ℤ).toNat (.chunkOfRawCppStatements lines))
      (p.classWith (done ++ rest)).mySlots p.slotIndex =
        some (p.classWith (done ++ .chunkOfRawCppStatements lines :: rest)).mySlots := by
    rw [Place.classWith, Place.slotIndex, modifySlot_append, Int.toNat_natCast, insertIntoSlot,
      hinsert]
    rfl
  have hname : p.designClass.name = (p.classWith (done ++ rest)).name := rfl
  have hfound : ∀ c ∈ p.before, c.name ≠ (p.classWith (done ++ rest)).name := p.found
  rw [h, insertChunk, Place.classes, hname, modifyClass_append hfound, hslots]
  rfl

/-- The statements up to an index were read, and the chunks in front of them were inserted. -/
structure IsAt (st : ImportState) (p : Place) (i : ℕ) (done rest : List SlotStatement) : Prop where
  outside : st.IsOutside
  classes : st.classes = p.classes (done ++ rest)
  length : done.length = i + st.offsetIn p.designClass.name p.slotIndex

/-- **What was written in a gap is inserted at the gap.** -/
theorem IsAt.importLines_pair {gap : List Text} (hst : st.IsAt p i done rest)
    (hname : IsIdentifier p.designClass.name) (hslot : IsInt p.slotIndex) (hi : IsInt i)
    (hgap : ∀ line ∈ gap, IsLineOfGap line) :
    ∃ st' : ImportState,
      importLines st (pairOfDelimitedComments p.designClass.name p.slotIndex i gap) = some st' ∧
      st'.IsAt p i (done ++ CppEdit.chunk gap) rest ∧ st'.lastSeenSlotIndex = p.slotIndex := by
  have hread (classes : List DesignClass) (chunks : ℕ)
      (hinserted : (gap.filter fun line => ¬ IsSkipped line) = [] ∧ classes = st.classes ∧
          chunks = 0 ∨
        (gap.filter fun line => ¬ IsSkipped line) ≠ [] ∧ chunks = 1 ∧
          insertChunk st.classes p.designClass.name p.slotIndex
            (i + st.offsetIn p.designClass.name p.slotIndex)
            (gap.filter fun line => ¬ IsSkipped line) = some classes) :
      importLines st (pairOfDelimitedComments p.designClass.name p.slotIndex i gap) =
        some (st.behind p.designClass.name p.slotIndex i classes chunks) := by
    rw [pairOfDelimitedComments, importLines_append, importLines_append,
      importLines_openingComments hst.outside hname hslot hi]
    simp only [Option.bind_some]
    rw [importLines_inside hgap, List.nil_append]
    exact importLines_closingComments hinserted
  cases hlines : gap.filter fun line => ¬ IsSkipped line with
  | nil =>
      have hchunk : CppEdit.chunk gap = [] := by rw [CppEdit.chunk, hlines]
      refine ⟨_, hread st.classes 0 (.inl ⟨hlines, rfl, rfl⟩), ⟨isOutside_behind, ?_, ?_⟩, rfl⟩
      · rw [hchunk, List.append_nil]
        exact hst.classes
      · rw [hchunk, List.append_nil, offsetIn_behind]
        exact hst.length
  | cons line lines =>
      have hchunk : CppEdit.chunk gap = [.chunkOfRawCppStatements (line :: lines)] := by
        rw [CppEdit.chunk, hlines]
      have hinsert : insertChunk st.classes p.designClass.name p.slotIndex
          (i + st.offsetIn p.designClass.name p.slotIndex) (line :: lines) =
            some (p.classes (done ++ .chunkOfRawCppStatements (line :: lines) :: rest)) := by
        have hlength := hst.length
        rw [hst.classes, insertChunk_classes (by omega)]
      rw [← hlines] at hinsert
      refine ⟨_, hread _ 1 (.inr ⟨by rw [hlines]; exact List.cons_ne_nil _ _, rfl, hinsert⟩),
        ⟨isOutside_behind, ?_, ?_⟩, rfl⟩
      · rw [hchunk, List.append_assoc, hlines]
        rfl
      · rw [hchunk, List.length_append, offsetIn_behind, hst.length]
        exact Nat.add_assoc _ _ _

lemma not_contains_append (front : Text) {rest : Text} (hfront : '[' ∉ front)
    (h : ¬ HasDelimiter rest) :
    contains (front ++ rest) ('[' :: beginChunkOfRawCppStatements) = false := by
  refine Bool.eq_false_iff.2 fun hcontains => h (.inl ?_)
  exact contains_iff.2 ((infix_append_iff hfront).1 (contains_iff.1 hcontains))

/-- A statement is passed by. -/
lemma IsAt.importLines_statement {statement : SlotStatement}
    (hst : st.IsAt p i done (statement :: rest)) (h : ¬ HasDelimiter statement.toRawCpp) :
    importLines st [[], tab ++ statement.toRawCpp, []] = some st ∧
      st.IsAt p (i + 1) (done ++ [statement]) rest := by
  have hraw := not_contains_append tab (by decide) h
  refine ⟨importLines_of_isOutside hst.outside fun text htext => ?_, hst.outside, ?_, ?_⟩
  · have hcases : text = [] ∨ text = tab ++ statement.toRawCpp ∨ text = [] := by
      simpa only [List.mem_cons, List.not_mem_nil, or_false] using htext
    rcases hcases with rfl | rfl | rfl
    · decide
    · exact hraw
    · decide
  · rw [List.append_assoc]
    exact hst.classes
  · have hlength := hst.length
    rw [List.length_append, List.length_singleton]
    omega

/-- **A slot gets its chunks.** -/
theorem IsAt.importLines_linesOfStatements {gaps : ℕ → List Text}
    (hst : st.IsAt p i done statements) (hname : IsIdentifier p.designClass.name)
    (hslot : IsInt p.slotIndex) (hlength : IsInt (i + statements.length))
    (hstatements : ∀ statement ∈ statements, ¬ HasDelimiter statement.toRawCpp)
    (hgaps : ∀ i, ∀ line ∈ gaps i, IsLineOfGap line) :
    ∃ st' : ImportState,
      importLines st (linesOfStatements p.designClass.name p.slotIndex gaps i statements) =
        some st' ∧
      st'.IsOutside ∧ st'.classes = p.classes (done ++ CppEdit.withChunks gaps i statements) ∧
      st'.lastSeenSlotIndex = p.slotIndex := by
  induction statements generalizing st i done with
  | nil =>
      obtain ⟨st', hread, hst', hseen⟩ :=
        hst.importLines_pair hname hslot (by simpa using hlength) (hgaps i)
      refine ⟨st', hread, hst'.outside, ?_, hseen⟩
      rw [hst'.classes, List.append_nil]
      rfl
  | cons statement statements ih =>
      obtain ⟨hstatement, hrest⟩ := List.forall_mem_cons.1 hstatements
      rw [List.length_cons] at hlength
      have hi : IsInt i := by
        unfold IsInt at hlength ⊢
        omega
      have hlength' : IsInt ((i + 1 : ℕ) + statements.length) := by
        unfold IsInt at hlength ⊢
        omega
      obtain ⟨gapRead, hread, hgapRead, -⟩ := hst.importLines_pair hname hslot hi (hgaps i)
      obtain ⟨hpassed, hnext⟩ := hgapRead.importLines_statement hstatement
      obtain ⟨st', hreadRest, hst', hclasses, hseen⟩ := ih hnext hlength' hrest
      refine ⟨st', ?_, hst', ?_, hseen⟩
      · rw [linesOfStatements, importLines_append, importLines_append, hread]
        simp only [Option.bind_some]
        rw [hpassed]
        exact hreadRest
      · rw [hclasses, CppEdit.withChunks, List.append_assoc, List.append_assoc]
        rfl

/-- Nothing else that is generated for the slot has a delimiter. -/
structure IsPlainSlot (slot : ClassSlot) : Prop where
  signature : ¬ HasDelimiter slot.methodSignatureWithoutReturnType
  exitSignal : ∀ rawCpp ∈ slot.finishedOrExitSignal, ¬ HasDelimiter rawCpp
  statements : ∀ statement ∈ slot.orderedListOfStatements, ¬ HasDelimiter statement.toRawCpp
  length : IsInt slot.orderedListOfStatements.length

/-- A slot that no gap was read of. -/
lemma isAt_zero (hst : st.IsOutside) (hclasses : st.classes = p.classes statements)
    (hseen : st.lastSeenSlotIndex < (p.slotIndex : ℤ)) : st.IsAt p 0 [] statements := by
  have hoffset : st.offsetIn p.designClass.name p.slotIndex = 0 := if_neg fun h => by omega
  refine ⟨hst, hclasses, ?_⟩
  rw [hoffset]
  rfl

theorem importLines_linesOfSlot {gaps : ℕ → List Text} (hst : st.IsOutside)
    (hclasses : st.classes = p.classes p.slot.orderedListOfStatements)
    (hseen : st.lastSeenSlotIndex < (p.slotIndex : ℤ)) (hname : IsIdentifier p.designClass.name)
    (hindex : IsInt p.slotIndex) (hslot : IsPlainSlot p.slot)
    (hgaps : ∀ i, ∀ line ∈ gaps i, IsLineOfGap line) :
    ∃ st' : ImportState,
      importLines st (linesOfSlot p.designClass.name p.slotIndex gaps p.slot) = some st' ∧
      st'.IsOutside ∧
      st'.classes = p.classes (CppEdit.withChunks gaps 0 p.slot.orderedListOfStatements) ∧
      st'.lastSeenSlotIndex = p.slotIndex := by
  have hlength : IsInt ((0 : ℕ) + p.slot.orderedListOfStatements.length) := by
    have hint := hslot.length
    unfold IsInt at hint ⊢
    omega
  obtain ⟨st', hread, hst', hclasses', hseen'⟩ :=
    (isAt_zero hst hclasses hseen).importLines_linesOfStatements hname hindex hlength
      hslot.statements hgaps
  refine ⟨st', ?_, hst', hclasses', hseen'⟩
  have hbracket : '[' ∉ "void ".toList ++ p.designClass.name ++ "::".toList := fun hmem => by
    rcases List.mem_append.1 hmem with hmem | hmem
    · exact (List.mem_append.1 hmem).elim (by decide)
        (not_mem_of_isIdentifier hname (by decide) (by decide))
    · exact absurd hmem (by decide)
  have hopening : importLines st ["void ".toList ++ p.designClass.name ++ "::".toList ++
      p.slot.methodSignatureWithoutReturnType, ['{']] = some st :=
    importLines_of_isOutside hst (List.forall_mem_cons.2
      ⟨not_contains_append _ hbracket hslot.signature, by decide⟩)
  have hclosing : importLines st' [['}']] = some st' :=
    importLines_of_isOutside hst' (by decide)
  rw [linesOfSlot, importLines_append, importLines_append, importLines_append, hopening]
  simp only [Option.bind_some]
  rw [hread]
  simp only [Option.bind_some]
  cases hexit : p.slot.finishedOrExitSignal with
  | none => exact hclosing
  | some rawCpp =>
      have hraw := not_contains_append tab (by decide) (hslot.exitSignal rawCpp hexit)
      have hpassed : importLines st' [[], tab ++ rawCpp] = some st' :=
        importLines_of_isOutside hst'
          (List.forall_mem_cons.2 ⟨by decide, List.forall_mem_singleton.2 hraw⟩)
      exact (congrArg (fun read => Option.bind read _) hpassed).trans hclosing

/-! ## A source -/

def slotWithChunks (gaps : ℕ → List Text) (slot : ClassSlot) : ClassSlot :=
  { slot with
    orderedListOfStatements := CppEdit.withChunks gaps 0 slot.orderedListOfStatements }

/-- The classes around a class. -/
def around (before after : List DesignClass) (c : DesignClass) (slots : List ClassSlot) :
    List DesignClass :=
  before ++ { c with mySlots := slots } :: after

/-- **The slots get their chunks**, one after the other. -/
theorem importLines_linesOfSlots {before after : List DesignClass} {c : DesignClass}
    {front slots : List ClassSlot} {gaps : ℕ → ℕ → List Text} (hst : st.IsOutside)
    (hfound : ∀ c' ∈ before, c'.name ≠ c.name)
    (hclasses : st.classes = around before after c (front ++ slots))
    (hseen : st.lastSeenSlotIndex < (front.length : ℤ)) (hname : IsIdentifier c.name)
    (hlength : IsInt (front.length + slots.length)) (hslots : ∀ slot ∈ slots, IsPlainSlot slot)
    (hgaps : ∀ slotIndex i, ∀ line ∈ gaps slotIndex i, IsLineOfGap line) :
    ∃ st' : ImportState,
      importLines st (linesOfSlots c.name gaps front.length slots) = some st' ∧
      st'.classes =
        around before after c (front ++ CppEdit.slotsWithChunks gaps front.length slots) := by
  induction slots generalizing st front with
  | nil => exact ⟨st, rfl, hclasses⟩
  | cons slot slots ih =>
      obtain ⟨hslot, hrest⟩ := List.forall_mem_cons.1 hslots
      rw [List.length_cons] at hlength
      have hindex : IsInt front.length := by
        unfold IsInt at hlength ⊢
        omega
      obtain ⟨slotRead, hread, hslotRead, hclassesRead, hseenRead⟩ :=
        importLines_linesOfSlot (p := ⟨before, c, after, front, slot, slots, hfound⟩)
          hst hclasses hseen hname hindex hslot (hgaps front.length)
      have hclassesNext : slotRead.classes =
          around before after c (front ++ slotWithChunks (gaps front.length) slot :: slots) :=
        hclassesRead
      have hmore : (front ++ [slotWithChunks (gaps front.length) slot]).length =
          front.length + 1 := List.length_append
      have hseenNext : slotRead.lastSeenSlotIndex < ((front.length + 1 : ℕ) : ℤ) := by
        have hindexRead : slotRead.lastSeenSlotIndex = front.length := hseenRead
        omega
      have hlengthNext : IsInt ((front.length + 1 : ℕ) + slots.length) := by
        unfold IsInt at hlength ⊢
        omega
      rw [List.append_cons] at hclassesNext
      rw [← hmore] at hseenNext hlengthNext
      obtain ⟨st', hreadRest, hclasses'⟩ :=
        ih hslotRead hclassesNext hseenNext hlengthNext hrest
      rw [hmore] at hreadRest hclasses'
      refine ⟨st', ?_, ?_⟩
      · rw [linesOfSlots, importLines_append]
        exact (congrArg (fun read => Option.bind read _) hread).trans hreadRest
      · rw [hclasses', List.append_assoc]
        rfl

/-- **The import of a source changes the slots of its class, and nothing else.** -/
theorem importSource_sourceOf {before after : List DesignClass} {c : DesignClass}
    {gaps : ℕ → ℕ → List Text} (hfound : ∀ c' ∈ before, c'.name ≠ c.name)
    (hname : IsIdentifier c.name) (hlength : IsInt c.mySlots.length)
    (hfront : ∀ line ∈ c.linesInFrontOfSlots, ¬ HasDelimiter line)
    (hslots : ∀ slot ∈ c.mySlots, IsPlainSlot slot)
    (hgaps : ∀ slotIndex i, ∀ line ∈ gaps slotIndex i, IsLineOfGap line) :
    importSource (before ++ c :: after) (sourceOf gaps c) =
      some (around before after c (CppEdit.slotsWithChunks gaps 0 c.mySlots)) := by
  have hstart : (start (before ++ c :: after)).IsOutside := ⟨rfl, rfl, rfl⟩
  have hpassed : importLines (start (before ++ c :: after)) c.linesInFrontOfSlots =
      some (start (before ++ c :: after)) :=
    importLines_of_isOutside hstart fun line hline =>
      not_contains_append [] List.not_mem_nil (hfront line hline)
  have hint : IsInt ((0 : ℕ) + c.mySlots.length) := by
    unfold IsInt at hlength ⊢
    omega
  have hseen : (start (before ++ c :: after)).lastSeenSlotIndex < ([] : List ClassSlot).length :=
    Int.negSucc_lt_zero 0
  obtain ⟨st', hread, hclasses⟩ :=
    importLines_linesOfSlots hstart hfound rfl hseen hname hint hslots hgaps
  have hlines : importLines (start (before ++ c :: after))
      (c.linesInFrontOfSlots ++ linesOfSlots c.name gaps 0 c.mySlots) = some st' := by
    rw [importLines_append, hpassed]
    exact hread
  rw [importLines] at hlines
  rw [importSource, sourceOf, linesOf_joinLines, hlines, Option.map_some, hclasses]
  rfl

end ImportState

/-! ## The project -/

namespace CppEdit

variable {e : CppEdit} {c : DesignClass} {className : Text} {slotIndex i : ℕ}

lemma chunk_gap :
    chunk (e.gap className slotIndex i) = chunk (e.written className slotIndex i) := by
  have hgenerated : ∀ line ∈ generatedGap, IsSkipped line := by decide +kernel
  have hnone {lines : List Text} (h : lines ⊆ generatedGap) :
      (lines.filter fun line => ¬ IsSkipped line) = [] :=
    List.filter_eq_nil_iff.2 fun line hline => by simpa using hgenerated line (h hline)
  have hfilter : ((e.gap className slotIndex i).filter fun line => ¬ IsSkipped line) =
      (e.written className slotIndex i).filter fun line => ¬ IsSkipped line := by
    rw [gap, List.filter_append, List.filter_append, hnone (List.take_subset _ _),
      hnone (List.drop_subset _ _), List.nil_append, List.append_nil]
  rw [chunk, chunk, hfilter]

lemma withChunks_congr {written written' : ℕ → List Text}
    (h : ∀ i, chunk (written i) = chunk (written' i)) {statements : List SlotStatement} :
    withChunks written i statements = withChunks written' i statements := by
  induction statements generalizing i with
  | nil => exact h i
  | cons statement statements ih => rw [withChunks, withChunks, h i, ih]

lemma slotsWithChunks_gap {slots : List ClassSlot} :
    slotsWithChunks (e.gap className) slotIndex slots =
      slotsWithChunks (e.written className) slotIndex slots := by
  induction slots generalizing slotIndex with
  | nil => rfl
  | cons slot slots ih =>
      rw [slotsWithChunks, slotsWithChunks, ih, withChunks_congr fun i => chunk_gap]

lemma isLineOfGap_of_mem_gap (h : e.IsPlain) :
    ∀ line ∈ e.gap className slotIndex i, ImportState.IsLineOfGap line := by
  have hgenerated : ∀ line ∈ generatedGap, '\n' ∉ line ∧ line.getLast? ≠ some '\r' ∧
      contains line ('[' :: endChunkOfRawCppStatements) = false := by decide +kernel
  have hof {lines : List Text} (hlines : lines ⊆ generatedGap) :
      ∀ line ∈ lines, ImportState.IsLineOfGap line := fun line hline =>
    have hline := hgenerated line (hlines hline)
    ⟨hline.1, hline.2.1, hline.2.2⟩
  intro line hline
  rcases List.mem_append.1 hline with hline | hline
  · rcases List.mem_append.1 hline with hline | hline
    · exact hof (List.take_subset _ _) line hline
    · obtain ⟨hnewline, hdelimiter⟩ := e.lines className slotIndex i line hline
      refine ⟨hnewline, h.lines className slotIndex i line hline, ?_⟩
      exact Bool.eq_false_iff.2 fun hcontains => hdelimiter (.inr (.inr (.inl hcontains)))
  · exact hof (List.drop_subset _ _) line hline

/-- Every class has a source of its own. -/
lemma sources_sourceFilenameOnly (hc : c ∈ e.classes) :
    e.sources c.sourceFilenameOnly = some (sourceOf (e.gap c.name) c) := by
  cases hfind : e.classes.reverse.find? fun c' => c'.sourceFilenameOnly = c.sourceFilenameOnly with
  | none =>
      exact absurd (List.find?_eq_none.1 hfind c (List.mem_reverse.2 hc)) (by simp)
  | some c' =>
      have hfile : c'.sourceFilenameOnly = c.sourceFilenameOnly := by
        simpa using List.find?_some hfind
      have hmem : c' ∈ e.classes := List.mem_reverse.1 (List.mem_of_find?_eq_some hfind)
      have heq : c' = c :=
        List.inj_on_of_nodup_map e.nodup hmem hc (List.append_cancel_right hfile)
      rw [sources, hfind, heq]
      rfl

/-- The class with its chunks. -/
def classWithChunks (e : CppEdit) (c : DesignClass) : DesignClass :=
  { c with mySlots := slotsWithChunks (e.written c.name) 0 c.mySlots }

lemma isPlainSlot (h : e.IsPlain) (hc : c ∈ e.classes) :
    ∀ slot ∈ c.mySlots, ImportState.IsPlainSlot slot := fun slot hslot =>
  ⟨(h.slots c hc slot hslot).1, (h.slots c hc slot hslot).2, e.statements c hc slot hslot,
    (e.isInt c hc).2 slot hslot⟩

/-- One source after the other. -/
lemma importSources_rest (h : e.IsPlain) {done rest : List DesignClass}
    (hclasses : e.classes = done ++ rest) :
    rest.foldlM (fun now c => (e.sources c.sourceFilenameOnly).bind fun source =>
      importSource now source) (done.map e.classWithChunks ++ rest) =
        some (e.classes.map e.classWithChunks) := by
  induction rest generalizing done with
  | nil => rw [hclasses, List.append_nil, List.append_nil]; rfl
  | cons c rest ih =>
      have hc : c ∈ e.classes := by
        rw [hclasses]
        exact List.mem_append_right _ List.mem_cons_self
      have hfound : ∀ c' ∈ done.map e.classWithChunks, c'.name ≠ c.name := fun c' hc' heq => by
        obtain ⟨c', hdone, rfl⟩ := List.mem_map.1 hc'
        have hnodup := e.nodup
        rw [hclasses, List.map_append, List.nodup_append] at hnodup
        exact hnodup.2.2 _ (List.mem_map_of_mem hdone) _ (List.mem_map_of_mem List.mem_cons_self)
          (congrArg (List.map Char.toLower) heq)
      have hgaps : ∀ slotIndex i, ∀ line ∈ e.gap c.name slotIndex i, IsLineOfGap line :=
        fun slotIndex i => isLineOfGap_of_mem_gap h
      have hsource : importSource (done.map e.classWithChunks ++ c :: rest)
          (sourceOf (e.gap c.name) c) = some (around (done.map e.classWithChunks) rest c
            (slotsWithChunks (e.written c.name) 0 c.mySlots)) := by
        rw [← slotsWithChunks_gap]
        exact importSource_sourceOf hfound (e.isIdentifier c hc) (e.isInt c hc).1
          (h.inFrontOfSlots c hc) (isPlainSlot h hc) hgaps
      have hnext : around (done.map e.classWithChunks) rest c
          (slotsWithChunks (e.written c.name) 0 c.mySlots) =
            (done ++ [c]).map e.classWithChunks ++ rest := by
        rw [List.map_append, List.append_assoc]
        rfl
      rw [List.foldlM_cons, sources_sourceFilenameOnly hc]
      simp only [Option.bind_some]
      rw [hsource, hnext]
      exact ih (by rw [hclasses, List.append_cons])

/-- **What was written lands where it was written**, when no line loses a carriage return and
nothing that is generated looks like a delimiting comment.

Landing means the order of the statements: a chunk has to come between the statements between which
it was written, or generating the source again would move it.  Two exceptions are excluded by
`IsPlain` and lie in how text is read back.  A carriage return at the end of a line is dropped
there, and a statement whose own text is a delimiting comment is taken for one. -/
theorem lands_of_isPlain (e : CppEdit) (h : e.IsPlain) : e.Lands :=
  importSources_rest h (List.nil_append _).symm

/-! ## Edits of one class -/

/-- A class with one slot, which has no statements. -/
def classWithSlot (linesInFrontOfSlots : List Text) : DesignClass :=
  ⟨"Sender".toList, linesInFrontOfSlots, [⟨"send()".toList, [], none⟩]⟩

lemma isIdentifier_sender : IsIdentifier "Sender".toList := by decide

lemma isInt_zero : IsInt (0 : ℕ) := by decide

lemma isInt_one : IsInt (1 : ℕ) := by decide

/-- One line is written behind the helper comment of every gap. -/
def editOf (linesInFrontOfSlots : List Text) (line : Text)
    (hline : '\n' ∉ line ∧ ¬ HasDelimiter line) : CppEdit where
  classes := [classWithSlot linesInFrontOfSlots]
  written := fun _ _ _ => [line]
  position := fun _ _ _ => 4
  isIdentifier := List.forall_mem_singleton.2 isIdentifier_sender
  nodup := List.nodup_singleton _
  isInt := List.forall_mem_singleton.2 ⟨isInt_one, List.forall_mem_singleton.2 isInt_zero⟩
  statements := List.forall_mem_singleton.2 (List.forall_mem_singleton.2 fun _ hstatement =>
    absurd hstatement List.not_mem_nil)
  lines := fun _ _ _ => List.forall_mem_singleton.2 hline

def lineWithCarriageReturn : Text := "count();\r".toList

def delimitersInFrontOfSlots : List Text :=
  ["//[".toList ++ beginChunkOfRawCppStatements, "//[/".toList ++ beginChunkOfRawCppStatements]

lemma isLine_lineWithCarriageReturn :
    '\n' ∉ lineWithCarriageReturn ∧ ¬ HasDelimiter lineWithCarriageReturn := by decide +kernel

lemma isLine_count : '\n' ∉ "count();".toList ∧ ¬ HasDelimiter "count();".toList := by
  decide +kernel

instance (e : CppEdit) : Decidable e.Lands := inferInstanceAs (Decidable (_ = _))

/-- A carriage return at the end of a line is lost, and delimiters in front of the slots end the
import. -/
theorem not_lands :
    ¬ (editOf [] lineWithCarriageReturn isLine_lineWithCarriageReturn).Lands ∧
      ¬ (editOf delimitersInFrontOfSlots "count();".toList isLine_count).Lands := by
  decide +kernel

theorem lands_editOf_count : (editOf [] "count();".toList isLine_count).Lands :=
  lands_of_isPlain _
    { lines := fun _ _ _ => List.forall_mem_singleton.2 (by decide)
      inFrontOfSlots := List.forall_mem_singleton.2 fun _ hline => absurd hline List.not_mem_nil
      slots := List.forall_mem_singleton.2 (List.forall_mem_singleton.2
        ⟨by decide +kernel, fun _ hrawCpp => absurd hrawCpp (Option.not_mem_none _)⟩) }

end CppEdit

end Autobackup.DesignEqualsImplementation
