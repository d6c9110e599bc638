import Autobackup.Foundation.TextLines
import Autobackup.Foundation.TextParts

/-!
# The filters in `.gitignore`

`pushToGitIgnore` of `QuickDirtyAutoBackupHalperBusiness`: the block of an earlier push is cut out,
a new one is appended, and then all lines are trimmed and the empty ones dropped.  The begin of the
block is appended to whatever the last line is.

The directory filter `.git` is left out, as git ignores its own folder.

The file is a list of characters here, with lines as a `QTextStream` reads them.  A write that fails
leaves the file as it is; opening, flushing and the codec are left out.
-/

namespace Autobackup.AutoBackupHalper

open QString

structure FilterLists where
  filenamesIgnoreList : List Text
  filenamesEndsWithIgnoreList : List Text
  dirnamesIgnoreList : List Text
  dirnamesEndsWithIgnoreList : List Text

def FilterLists.isEmpty (l : FilterLists) : Bool :=
  l.filenamesIgnoreList.isEmpty && l.filenamesEndsWithIgnoreList.isEmpty &&
    l.dirnamesIgnoreList.isEmpty && l.dirnamesEndsWithIgnoreList.isEmpty

def specialDetectingTextBeginInIgnoreFile : Text :=
  "#%%QuickDirtyAutoBackupHalperDefines_Begin%%".toList

def specialDetectingTextEndInIgnoreFile : Text :=
  "#%%QuickDirtyAutoBackupHalperDefines_End%%".toList

def newLine : Text := ['\n']

def starString : Text := ['*']

def slashString : Text := ['/']

/-- A file that is opened as text is read without carriage returns. -/
def readAll (file : Option Text) : Text := readAsText (file.getD [])

/-- The earlier block is cut out. -/
def stripOut (gitIgnoreContents : Text) : Text :=
  if contains gitIgnoreContents specialDetectingTextBeginInIgnoreFile &&
      contains gitIgnoreContents specialDetectingTextEndInIgnoreFile then
    -- the first of each marker, wherever they stand
    let zeroIndexAtFrontOfBegin := indexOf specialDetectingTextBeginInIgnoreFile gitIgnoreContents
    let indexAfterEndOfEnd := indexOf specialDetectingTextEndInIgnoreFile gitIgnoreContents +
      specialDetectingTextEndInIgnoreFile.length
    remove gitIgnoreContents zeroIndexAtFrontOfBegin (indexAfterEndOfEnd - zeroIndexAtFrontOfBegin)
  else gitIgnoreContents

/-- The loop over one of the lists. -/
def appendFilters (front back : Text) (isLeftOut : Text → Bool) (filters : List Text)
    (gitIgnoreContents : Text) : Text :=
  filters.foldl (fun contents filter =>
    let currentFilter := trimmed filter
    if currentFilter.isEmpty || isLeftOut currentFilter then contents
    else contents ++ (front ++ currentFilter ++ back ++ newLine)) gitIgnoreContents

/-- The directory filter that git needs no line for. -/
def isGitFolder (currentFilter : Text) : Bool := currentFilter = ['.', 'g', 'i', 't']

def appendDefines (l : FilterLists) (gitIgnoreContents : Text) : Text :=
  let contents := gitIgnoreContents ++ (specialDetectingTextBeginInIgnoreFile ++ newLine)
  let contents := appendFilters [] [] (fun _ => false) l.filenamesIgnoreList contents
  let contents := appendFilters starString [] (fun _ => false)
    l.filenamesEndsWithIgnoreList contents
  let contents := appendFilters [] slashString isGitFolder l.dirnamesIgnoreList contents
  let contents := appendFilters starString slashString (fun _ => false)
    l.dirnamesEndsWithIgnoreList contents
  contents ++ (specialDetectingTextEndInIgnoreFile ++ newLine)

/-- The lines are trimmed, and the empty ones dropped. -/
def squashEmptyLines (gitIgnoreContents : Text) : Text :=
  (splitSkippingEmptyParts '\n' gitIgnoreContents).foldl (fun contents line =>
    let currentFilter := trimmed line
    if currentFilter.isEmpty then contents else contents ++ (currentFilter ++ newLine)) []

/-- What the file contains before, if it exists, and afterwards.  `none` is a file that does not
exist, which is only made if there is something to write. -/
def pushToGitIgnore (file : Option Text) (l : FilterLists) : Option Text :=
  -- no file is made for nothing
  if file.isNone && l.isEmpty then file
  else
    let gitIgnoreContents := stripOut (readAll file)
    let gitIgnoreContents :=
      if l.isEmpty then gitIgnoreContents else appendDefines l gitIgnoreContents
    some (squashEmptyLines gitIgnoreContents)

/-! ## What it is for -/

/-- The lines of the user that are kept. -/
def trimmedLines (lines : List Text) : List Text := (lines.map trimmed).filter (· ≠ [])

/-- The lines for the filters of a list. -/
def linesOfFilters (front back : Text) (filters : List Text) : List Text :=
  (trimmedLines filters).map fun filter => front ++ filter ++ back

/-- The lines of the four lists, some directory filters left out. -/
def FilterLists.lines (l : FilterLists) (isLeftOut : Text → Bool) : List Text :=
  linesOfFilters [] [] l.filenamesIgnoreList ++
    (linesOfFilters starString [] l.filenamesEndsWithIgnoreList ++
      (((trimmedLines l.dirnamesIgnoreList).filter (!isLeftOut ·)).map
          (fun filter => filter ++ slashString) ++
        linesOfFilters starString slashString l.dirnamesEndsWithIgnoreList))

/-- The block of these lists. -/
def FilterLists.block (l : FilterLists) (isLeftOut : Text → Bool) : List Text :=
  if l.isEmpty then []
  else
    specialDetectingTextBeginInIgnoreFile :: (l.lines isLeftOut ++
      [specialDetectingTextEndInIgnoreFile])

/-- The text has no marker. -/
def HasNoMarker (text : Text) : Prop :=
  ¬ specialDetectingTextBeginInIgnoreFile <:+: text ∧
    ¬ specialDetectingTextEndInIgnoreFile <:+: text

/-- The filters contain neither newlines nor markers. -/
structure FilterLists.Plain (l : FilterLists) : Prop where
  plain : ∀ filter ∈ l.filenamesIgnoreList ++ l.filenamesEndsWithIgnoreList ++
    l.dirnamesIgnoreList ++ l.dirnamesEndsWithIgnoreList,
      '\n' ∉ filter ∧ '\r' ∉ filter ∧ HasNoMarker filter

/-- A text with these lines outside of the block, of which there is at most one.  It is what earlier
pushes leave, and what a file without a block is as well. -/
inductive AtMostOneBlock (content : Text) : List Text → Prop
  | none (h : HasNoMarker content) : AtMostOneBlock content (content.splitOn '\n')
  | one {before inside after : List Text} {beginLine endLine : Text}
      (lines : content.splitOn '\n' = before ++ beginLine :: (inside ++ endLine :: after))
      (trimmed_begin : trimmed beginLine = specialDetectingTextBeginInIgnoreFile)
      (trimmed_end : trimmed endLine = specialDetectingTextEndInIgnoreFile)
      (plain : ∀ line ∈ before ++ inside ++ after, HasNoMarker line) :
      AtMostOneBlock content (before ++ after)

/-- What the user wrote ends with a newline, spaces apart, or the block ends the text. -/
def EndsWithNewline (content : Text) : Prop :=
  ∀ line ∈ (content.splitOn '\n').getLast?,
    trimmed line = [] ∨ trimmed line = specialDetectingTextEndInIgnoreFile

/-! ## What is written -/

variable {file : Option Text} {content line text : Text} {lines outside : List Text}
  {l : FilterLists}

lemma trimmedLines_append {before after : List Text} :
    trimmedLines (before ++ after) = trimmedLines before ++ trimmedLines after := by
  unfold trimmedLines
  rw [List.map_append, List.filter_append]

lemma trimmedLines_cons_of_empty (h : trimmed line = []) :
    trimmedLines (line :: lines) = trimmedLines lines := by
  unfold trimmedLines
  rw [List.map_cons, List.filter_cons_of_neg]
  rw [h]
  decide

lemma trimmedLines_cons_of_ne (h : trimmed line ≠ []) :
    trimmedLines (line :: lines) = trimmed line :: trimmedLines lines := by
  unfold trimmedLines
  rw [List.map_cons]
  exact List.filter_cons_of_pos (decide_eq_true_iff.2 h)

lemma trimmedLines_concat_of_empty (h : trimmed line = []) :
    trimmedLines (lines ++ [line]) = trimmedLines lines := by
  rw [trimmedLines_append, trimmedLines_cons_of_empty h]
  exact List.append_nil _

lemma trimmedLines_eq_self (h : ∀ line ∈ lines, trimmed line = line ∧ line ≠ []) :
    trimmedLines lines = lines := by
  induction lines with
  | nil => rfl
  | cons line lines ih =>
      obtain ⟨⟨htrimmed, hne⟩, hlines⟩ := List.forall_mem_cons.1 h
      rw [trimmedLines_cons_of_ne (by rwa [htrimmed]), htrimmed, ih hlines]

/-- Empty lines are dropped anyway. -/
lemma trimmedLines_filter : trimmedLines (lines.filter (· ≠ [])) = trimmedLines lines := by
  induction lines with
  | nil => rfl
  | cons line lines ih =>
      by_cases hline : line = []
      · subst hline
        rw [List.filter_cons_of_neg (by decide), ih, trimmedLines_cons_of_empty rfl]
      · have hkeep : (line :: lines).filter (· ≠ []) = line :: lines.filter (· ≠ []) :=
          List.filter_cons_of_pos (decide_eq_true_iff.2 hline)
        rw [hkeep]
        by_cases hempty : trimmed line = []
        · rw [trimmedLines_cons_of_empty hempty, trimmedLines_cons_of_empty hempty, ih]
        · rw [trimmedLines_cons_of_ne hempty, trimmedLines_cons_of_ne hempty, ih]

lemma appendFilters_eq (front back : Text) (isLeftOut : Text → Bool) (filters : List Text)
    (content : Text) : appendFilters front back isLeftOut filters content = content ++
      joinLines (((trimmedLines filters).filter (!isLeftOut ·)).map
        fun filter => front ++ filter ++ back) := by
  induction filters generalizing content with
  | nil => exact (List.append_nil content).symm
  | cons filter filters ih =>
      unfold appendFilters at ih ⊢
      rw [List.foldl_cons, ih]
      by_cases hempty : trimmed filter = []
      · rw [trimmedLines_cons_of_empty hempty]
        simp only [hempty, List.isEmpty_nil, Bool.true_or, if_true]
      · have hnotEmpty : (trimmed filter).isEmpty = false := List.isEmpty_eq_false_iff.2 hempty
        rw [trimmedLines_cons_of_ne hempty]
        cases hleft : isLeftOut (trimmed filter) with
        | true =>
            rw [List.filter_cons_of_neg (by rw [hleft]; decide)]
            simp only [hleft, Bool.or_true, if_true]
        | false =>
            rw [List.filter_cons_of_pos (by rw [hleft]; decide), List.map_cons, joinLines_cons]
            simp only [hleft, hnotEmpty, Bool.or_false, Bool.false_eq_true, if_false, newLine,
              List.append_assoc, List.cons_append, List.nil_append]

lemma filter_not_false (filters : List Text) : filters.filter (fun _ => !false) = filters :=
  List.filter_eq_self.2 fun _ _ => rfl

lemma appendDefines_eq : appendDefines l content = content ++
    joinLines (specialDetectingTextBeginInIgnoreFile :: (l.lines isGitFolder ++
      [specialDetectingTextEndInIgnoreFile])) := by
  unfold appendDefines FilterLists.lines linesOfFilters
  simp only [appendFilters_eq, filter_not_false, joinLines_cons, joinLines_append, joinLines_nil,
    newLine, List.append_assoc, List.cons_append, List.nil_append, List.append_nil]

lemma squashEmptyLines_eq :
    squashEmptyLines text = joinLines (trimmedLines (text.splitOn '\n')) := by
  have hfold : squashEmptyLines text =
      appendFilters [] [] (fun _ => false) (splitSkippingEmptyParts '\n' text) [] := by
    simp only [squashEmptyLines, appendFilters, Bool.or_false, List.nil_append, List.append_nil]
  rw [hfold, appendFilters_eq, filter_not_false, splitSkippingEmptyParts, trimmedLines_filter]
  simp only [List.nil_append, List.append_nil, List.map_id']

/-! ## What is left when the block is cut out -/

/-- A text as lines, of which the last one has no newline. -/
lemma exists_splitOn_eq (text : Text) : ∃ front last, text = joinLines front ++ last ∧
    text.splitOn '\n' = front ++ [last] ∧ (∀ line ∈ front, '\n' ∉ line) ∧ '\n' ∉ last := by
  obtain ⟨heq, hlast⟩ := exists_eq_joinLines text
  exact ⟨completeLines text, unfinishedLine text, heq, splitOn_newline text,
    newline_not_mem_completeLines, hlast⟩

lemma isInfix_of_mem_splitOn (h : line ∈ text.splitOn '\n') : line <:+: text := by
  obtain ⟨front, last, rfl, hsplit, -, -⟩ := exists_splitOn_eq text
  rw [hsplit] at h
  rcases List.mem_append.1 h with hfront | hlast
  · obtain ⟨before, after, rfl⟩ := List.append_of_mem hfront
    refine ⟨joinLines before, '\n' :: (joinLines after ++ last), ?_⟩
    simp only [joinLines_append, joinLines_cons, List.append_assoc, List.cons_append]
  · rw [List.mem_singleton.1 hlast]
    exact (List.suffix_append _ _).isInfix

lemma splitOn_joinLines_append (h : ∀ line ∈ lines, '\n' ∉ line) (hline : '\n' ∉ line) :
    (joinLines lines ++ line).splitOn '\n' = lines ++ [line] := by
  induction lines with
  | nil => exact List.splitOn_eq_singleton hline
  | cons first lines ih =>
      obtain ⟨hfirst, hlines⟩ := List.forall_mem_cons.1 h
      rw [joinLines_cons, List.append_assoc, List.cons_append,
        List.splitOn_append_cons_self_of_not_mem hfirst, ih hlines, List.cons_append]

/-- A part that is in none of these lines, and has no newline, is found behind them. -/
lemma indexOf_joinLines_append {part : Text} (hpart : '\n' ∉ part)
    (h : ∀ line ∈ lines, ¬ part <:+: line) :
    indexOf part (joinLines lines ++ text) = (joinLines lines).length + indexOf part text := by
  induction lines with
  | nil => exact (Nat.zero_add _).symm
  | cons line lines ih =>
      obtain ⟨hline, hlines⟩ := List.forall_mem_cons.1 h
      rw [joinLines_cons, List.append_assoc, List.cons_append, indexOf_append_cons hpart hline,
        ih hlines, List.length_append, List.length_cons]
      omega

lemma begin_ne_nil : specialDetectingTextBeginInIgnoreFile ≠ [] := by decide

lemma end_ne_nil : specialDetectingTextEndInIgnoreFile ≠ [] := by decide

lemma isSpace_begin : ∀ c ∈ specialDetectingTextBeginInIgnoreFile, isSpace c = false := by
  have hall : specialDetectingTextBeginInIgnoreFile.all (!isSpace ·) = true := by decide +kernel
  intro c hc
  exact Bool.not_eq_eq_eq_not.1 (List.all_eq_true.1 hall c hc)

lemma isSpace_end : ∀ c ∈ specialDetectingTextEndInIgnoreFile, isSpace c = false := by
  have hall : specialDetectingTextEndInIgnoreFile.all (!isSpace ·) = true := by decide +kernel
  intro c hc
  exact Bool.not_eq_eq_eq_not.1 (List.all_eq_true.1 hall c hc)

lemma newline_not_mem_begin : '\n' ∉ specialDetectingTextBeginInIgnoreFile := by decide +kernel

lemma newline_not_mem_end : '\n' ∉ specialDetectingTextEndInIgnoreFile := by decide +kernel

lemma not_end_infix_begin :
    ¬ specialDetectingTextEndInIgnoreFile <:+: specialDetectingTextBeginInIgnoreFile := by
  decide +kernel

/-- A marker behind spaces is found there. -/
lemma indexOf_indented {part front : Text} (hne : part ≠ [])
    (hpart : ∀ c ∈ part, isSpace c = false) (hfront : ∀ c ∈ front, isSpace c = true) :
    indexOf part (front ++ (part ++ text)) = front.length := by
  obtain ⟨c, rest, rfl⟩ := List.exists_cons_of_ne_nil hne
  apply indexOf_append
  intro hc
  exact Bool.false_ne_true ((hpart c List.mem_cons_self).symm.trans (hfront c hc))

/-- **A block is cut out**, up to the spaces around its markers. -/
lemma stripOut_block {before inside : List Text} {beginLine endLine : Text} (back : Text)
    (hbegin : trimmed beginLine = specialDetectingTextBeginInIgnoreFile)
    (hend : trimmed endLine = specialDetectingTextEndInIgnoreFile)
    (hbefore : ∀ line ∈ before, HasNoMarker line) (hinside : ∀ line ∈ inside, HasNoMarker line)
    (hbeginLine : '\n' ∉ beginLine) (hendLine : '\n' ∉ endLine) :
    ∃ blank, trimmed blank = [] ∧ '\n' ∉ blank ∧
      stripOut (joinLines (before ++ beginLine :: inside) ++ (endLine ++ back)) =
        joinLines before ++ (blank ++ back) := by
  obtain ⟨front, between, heqBegin, hfront, -⟩ := exists_eq_trimmed beginLine
  obtain ⟨between', rear, heqEnd, hbetween', hrear⟩ := exists_eq_trimmed endLine
  rw [hbegin] at heqBegin
  rw [hend] at heqEnd
  -- what is cut out, with the indices at which it begins and ends
  let block := specialDetectingTextBeginInIgnoreFile ++ (between ++ '\n' :: (joinLines inside ++
    (between' ++ specialDetectingTextEndInIgnoreFile)))
  have hcontent : joinLines (before ++ beginLine :: inside) ++ (endLine ++ back) =
      (joinLines before ++ front) ++ block ++ (rear ++ back) := by
    rw [heqBegin, heqEnd]
    simp only [block, joinLines_append, joinLines_cons, List.append_assoc, List.cons_append]
  have hindexBegin : indexOf specialDetectingTextBeginInIgnoreFile
      ((joinLines before ++ front) ++ block ++ (rear ++ back)) =
        (joinLines before ++ front).length := by
    rw [List.append_assoc, List.append_assoc,
      indexOf_joinLines_append newline_not_mem_begin fun line hline => (hbefore line hline).1,
      List.append_assoc, indexOf_indented begin_ne_nil isSpace_begin hfront, List.length_append]
  have hindexEnd : indexOf specialDetectingTextEndInIgnoreFile
      (joinLines (before ++ beginLine :: inside) ++ (endLine ++ back)) =
        (joinLines (before ++ beginLine :: inside)).length + between'.length := by
    rw [indexOf_joinLines_append newline_not_mem_end, heqEnd, List.append_assoc, List.append_assoc,
      indexOf_indented end_ne_nil isSpace_end hbetween']
    intro line hline
    rcases List.mem_append.1 hline with hline | hline
    · exact (hbefore line hline).2
    · rcases List.mem_cons.1 hline with rfl | hline
      · intro hcontained
        have hmarker := infix_trimmed end_ne_nil isSpace_end hcontained
        rw [hbegin] at hmarker
        exact not_end_infix_begin hmarker
      · exact (hinside line hline).2
  have hlength : (joinLines (before ++ beginLine :: inside)).length + between'.length +
      specialDetectingTextEndInIgnoreFile.length - (joinLines before ++ front).length =
        block.length := by
    rw [heqBegin]
    simp only [block, joinLines_append, joinLines_cons, List.length_append, List.length_cons]
    omega
  have hcontainsBegin : contains ((joinLines before ++ front) ++ block ++ (rear ++ back))
      specialDetectingTextBeginInIgnoreFile = true := by
    apply contains_iff.2
    have hblock : specialDetectingTextBeginInIgnoreFile <:+: block :=
      (List.prefix_append _ _).isInfix
    exact hblock.trans ⟨joinLines before ++ front, rear ++ back, rfl⟩
  have hcontainsEnd : contains (joinLines (before ++ beginLine :: inside) ++ (endLine ++ back))
      specialDetectingTextEndInIgnoreFile = true := by
    apply contains_iff.2
    rw [heqEnd]
    exact ⟨joinLines (before ++ beginLine :: inside) ++ between', rear ++ back, by
      simp only [List.append_assoc]⟩
  refine ⟨front ++ rear, ?_, ?_, ?_⟩
  · rw [trimmed_append hfront]
    exact trimmed_eq_nil_iff.2 hrear
  · rw [List.mem_append]
    rintro (hmem | hmem)
    · apply hbeginLine
      rw [heqBegin]
      exact List.mem_append_left _ (List.mem_append_left _ hmem)
    · apply hendLine
      rw [heqEnd]
      exact List.mem_append_right _ hmem
  · unfold stripOut
    rw [hcontainsEnd, hindexEnd, hcontent, hcontainsBegin, hindexBegin, Bool.and_self, if_pos rfl]
    dsimp only
    rw [hlength, remove_append]
    simp only [List.append_assoc]

/-- What is left of a content with at most one block. -/
lemma AtMostOneBlock.exists_stripOut (h : AtMostOneBlock content outside) : ∃ front last,
    stripOut content = joinLines front ++ last ∧ (∀ line ∈ front, '\n' ∉ line) ∧ '\n' ∉ last ∧
      trimmedLines (front ++ [last]) = trimmedLines outside ∧
        (EndsWithNewline content → trimmed last = []) := by
  obtain ⟨front, last, hcontent, hsplit, hfront, hlast⟩ := exists_splitOn_eq content
  cases h with
  | none hnone =>
      have hcontains : contains content specialDetectingTextBeginInIgnoreFile = false :=
        Bool.eq_false_iff.2 fun hcontains => hnone.1 (contains_iff.1 hcontains)
      refine ⟨front, last, ?_, hfront, hlast, by rw [hsplit], fun hends => ?_⟩
      · rw [stripOut, hcontains, Bool.false_and, if_neg Bool.false_ne_true, hcontent]
      · rcases hends last (by rw [hsplit, List.getLast?_concat]; rfl) with hblank | hend
        · exact hblank
        · have hcontained : specialDetectingTextEndInIgnoreFile <:+: content := by
            rw [hcontent, ← hend]
            exact trimmed_isInfix.trans (List.suffix_append _ _).isInfix
          exact absurd hcontained hnone.2
  | @one before inside after beginLine endLine hlines hbegin hend hplain =>
      have hnoNewline : ∀ line ∈ before ++ beginLine :: (inside ++ endLine :: after),
          '\n' ∉ line := by
        rw [← hlines]
        exact fun line hline hmem => (mem_splitOn line hline '\n' hmem).2 rfl
      have hbefore : ∀ line ∈ before, HasNoMarker line := fun line hline =>
        hplain line (List.mem_append_left _ (List.mem_append_left _ hline))
      have hinside : ∀ line ∈ inside, HasNoMarker line := fun line hline =>
        hplain line (List.mem_append_left _ (List.mem_append_right _ hline))
      have hbeginLine : '\n' ∉ beginLine :=
        hnoNewline _ (List.mem_append_right _ List.mem_cons_self)
      have hendLine : '\n' ∉ endLine := hnoNewline _ (List.mem_append_right _
        (List.mem_cons_of_mem _ (List.mem_append_right _ List.mem_cons_self)))
      rw [hsplit] at hlines
      rcases List.eq_nil_or_concat' after with rfl | ⟨later, final, rfl⟩
      · have hends : front ++ [last] = (before ++ beginLine :: inside) ++ [endLine] := by
          rw [hlines, List.append_assoc, List.cons_append]
        obtain ⟨rfl, hfinal⟩ := List.append_inj' hends rfl
        obtain rfl := List.singleton_inj.1 hfinal
        obtain ⟨blank, hblank, hnewline, hstrip⟩ :=
          stripOut_block [] hbegin hend hbefore hinside hbeginLine hendLine
        rw [List.append_nil, List.append_nil, ← hcontent] at hstrip
        refine ⟨before, blank, hstrip, fun line hline => ?_, hnewline, ?_, fun _ => hblank⟩
        · exact hnoNewline line (List.mem_append_left _ hline)
        · rw [trimmedLines_append, trimmedLines_append, trimmedLines_cons_of_empty hblank]
      · have hends : front ++ [last] =
            (before ++ beginLine :: (inside ++ endLine :: later)) ++ [final] := by
          rw [hlines, List.append_assoc, List.cons_append, List.append_assoc, List.cons_append]
        obtain ⟨rfl, hfinal⟩ := List.append_inj' hends rfl
        obtain rfl := List.singleton_inj.1 hfinal
        obtain ⟨blank, hblank, hnewline, hstrip⟩ :=
          stripOut_block ('\n' :: (joinLines later ++ last)) hbegin hend hbefore hinside
            hbeginLine hendLine
        have hwhole : joinLines (before ++ beginLine :: inside) ++
            (endLine ++ '\n' :: (joinLines later ++ last)) = content := by
          rw [hcontent]
          simp only [joinLines_append, joinLines_cons, List.append_assoc, List.cons_append]
        rw [hwhole] at hstrip
        refine ⟨before ++ blank :: later, last, ?_, fun line hline => ?_, hlast, ?_, ?_⟩
        · rw [hstrip]
          simp only [joinLines_append, joinLines_cons, List.append_assoc, List.cons_append]
        · rcases List.mem_append.1 hline with hline | hline
          · exact hnoNewline line (List.mem_append_left _ hline)
          · rcases List.mem_cons.1 hline with rfl | hline
            · exact hnewline
            · apply hfront
              exact List.mem_append_right _ (List.mem_cons_of_mem _
                (List.mem_append_right _ (List.mem_cons_of_mem _ hline)))
        · rw [List.append_assoc, List.cons_append, trimmedLines_append, trimmedLines_append,
            trimmedLines_cons_of_empty hblank]
        · intro hends
          rcases hends last (by rw [hsplit, List.getLast?_concat]; rfl) with hblank | hmarker
          · exact hblank
          · have hcontained : specialDetectingTextEndInIgnoreFile <:+: last := by
              rw [← hmarker]
              exact trimmed_isInfix
            refine absurd hcontained (hplain last ?_).2
            exact List.mem_append_right _ (List.mem_append_right _ (List.mem_singleton_self last))

/-! ## What is read again -/

/-- A part without newlines is in one of the lines. -/
lemma infix_joinLines {part : Text} (hpart : '\n' ∉ part) (hne : part ≠ [])
    (h : part <:+: joinLines lines) : ∃ line ∈ lines, part <:+: line := by
  induction lines with
  | nil => exact absurd (List.infix_nil.1 h) hne
  | cons line lines ih =>
      rw [joinLines_cons] at h
      rcases infix_append_cons hpart h with hline | hlater
      · exact ⟨line, List.mem_cons_self, hline⟩
      · obtain ⟨found, hfound, hcontained⟩ := ih hlater
        exact ⟨found, List.mem_cons_of_mem line hfound, hcontained⟩

/-- A line that is written, and comes back. -/
structure IsKept (line : Text) : Prop where
  trimmed_eq : trimmed line = line
  ne_nil : line ≠ []
  newline : '\n' ∉ line
  carriageReturn : '\r' ∉ line
  noMarker : HasNoMarker line

lemma HasNoMarker.of_isInfix (h : HasNoMarker text) (hcontained : line <:+: text) :
    HasNoMarker line :=
  ⟨fun hbegin => h.1 (hbegin.trans hcontained), fun hend => h.2 (hend.trans hcontained)⟩

lemma mem_trimmed_subset {c : Char} (h : c ∈ trimmed text) : c ∈ text := trimmed_isInfix.subset h

/-- A star and a slash around a filter. -/
lemma isKept_around {filter front back : Text} (hne : trimmed filter ≠ [])
    (hfilter : '\n' ∉ filter ∧ '\r' ∉ filter ∧ HasNoMarker filter)
    (hfront : front = [] ∨ front = starString) (hback : back = [] ∨ back = slashString) :
    IsKept (front ++ trimmed filter ++ back) := by
  have hends : ∀ c ∈ front ++ back, c = '*' ∨ c = '/' := by
    intro c hc
    rcases List.mem_append.1 hc with hc | hc
    · rcases hfront with rfl | rfl
      · exact absurd hc List.not_mem_nil
      · exact Or.inl (List.mem_singleton.1 hc)
    · rcases hback with rfl | rfl
      · exact absurd hc List.not_mem_nil
      · exact Or.inr (List.mem_singleton.1 hc)
  have hother : ∀ {c : Char}, c ≠ '*' → c ≠ '/' → c ∉ front ∧ c ∉ back := by
    intro c hstar hslash
    constructor
    · intro hc
      exact (hends c (List.mem_append_left _ hc)).elim hstar hslash
    · intro hc
      exact (hends c (List.mem_append_right _ hc)).elim hstar hslash
  have hbegin : ∀ c ∈ specialDetectingTextBeginInIgnoreFile, c ≠ '*' ∧ c ≠ '/' := by
    have hends : '*' ∉ specialDetectingTextBeginInIgnoreFile ∧
        '/' ∉ specialDetectingTextBeginInIgnoreFile := by decide +kernel
    exact fun c hc => ⟨fun h => hends.1 (h ▸ hc), fun h => hends.2 (h ▸ hc)⟩
  have hend : ∀ c ∈ specialDetectingTextEndInIgnoreFile, c ≠ '*' ∧ c ≠ '/' := by
    have hends : '*' ∉ specialDetectingTextEndInIgnoreFile ∧
        '/' ∉ specialDetectingTextEndInIgnoreFile := by decide +kernel
    exact fun c hc => ⟨fun h => hends.1 (h ▸ hc), fun h => hends.2 (h ▸ hc)⟩
  have hmem : ∀ {c : Char}, c ≠ '*' → c ≠ '/' → c ∉ filter →
      c ∉ front ++ trimmed filter ++ back := by
    intro c hstar hslash hc h
    rcases List.mem_append.1 h with h | h
    · rcases List.mem_append.1 h with h | h
      · exact (hother hstar hslash).1 h
      · exact hc (mem_trimmed_subset h)
    · exact (hother hstar hslash).2 h
  constructor
  · apply trimmed_eq_self
    · intro c hc
      rcases hfront with rfl | rfl
      · rw [List.nil_append, List.head?_append_of_ne_nil _ hne] at hc
        exact isSpace_head_trimmed hc
      · obtain rfl : '*' = c := Option.some.inj hc
        decide
    · intro c hc
      rcases hback with rfl | rfl
      · rw [List.append_nil, List.getLast?_append_of_ne_nil _ hne] at hc
        exact isSpace_getLast_trimmed hc
      · rw [slashString, List.getLast?_concat] at hc
        obtain rfl : '/' = c := Option.some.inj hc
        decide
  · exact List.append_ne_nil_of_left_ne_nil (List.append_ne_nil_of_right_ne_nil _ hne) _
  · exact hmem (by decide) (by decide) hfilter.1
  · exact hmem (by decide) (by decide) hfilter.2.1
  · have hnoMarker := hfilter.2.2.of_isInfix trimmed_isInfix
    constructor
    · intro hcontained
      apply hnoMarker.1
      apply infix_middle begin_ne_nil _ _ hcontained
      · exact fun c hc => (hother (hbegin c hc).1 (hbegin c hc).2).1
      · exact fun c hc => (hother (hbegin c hc).1 (hbegin c hc).2).2
    · intro hcontained
      apply hnoMarker.2
      apply infix_middle end_ne_nil _ _ hcontained
      · exact fun c hc => (hother (hend c hc).1 (hend c hc).2).1
      · exact fun c hc => (hother (hend c hc).1 (hend c hc).2).2

lemma mem_trimmedLines : line ∈ trimmedLines lines ↔ ∃ line' ∈ lines, trimmed line' = line ∧
    line ≠ [] := by
  unfold trimmedLines
  rw [List.mem_filter, List.mem_map, decide_eq_true_iff]
  constructor
  · rintro ⟨⟨line', hline', heq⟩, hne⟩
    exact ⟨line', hline', heq, hne⟩
  · rintro ⟨line', hline', heq, hne⟩
    exact ⟨⟨line', hline', heq⟩, hne⟩

lemma isKept_linesOfFilters {filters : List Text} {front back : Text}
    (h : ∀ filter ∈ filters, '\n' ∉ filter ∧ '\r' ∉ filter ∧ HasNoMarker filter)
    (hfront : front = [] ∨ front = starString) (hback : back = [] ∨ back = slashString) :
    ∀ line ∈ linesOfFilters front back filters, IsKept line := by
  intro line hline
  obtain ⟨kept, hkept, rfl⟩ := List.mem_map.1 hline
  obtain ⟨filter, hfilter, rfl, hne⟩ := mem_trimmedLines.1 hkept
  exact isKept_around hne (h filter hfilter) hfront hback

lemma FilterLists.Plain.isKept (h : l.Plain) : ∀ line ∈ l.lines isGitFolder, IsKept line := by
  have hplain := h.plain
  simp only [List.forall_mem_append] at hplain
  obtain ⟨⟨⟨hfilenames, hfilenamesEnds⟩, hdirnames⟩, hdirnamesEnds⟩ := hplain
  unfold FilterLists.lines
  simp only [List.forall_mem_append]
  refine ⟨?_, ?_, fun line hline => ?_, ?_⟩
  · exact isKept_linesOfFilters hfilenames (Or.inl rfl) (Or.inl rfl)
  · exact isKept_linesOfFilters hfilenamesEnds (Or.inr rfl) (Or.inl rfl)
  · obtain ⟨filter, hfilter, rfl⟩ := List.mem_map.1 hline
    apply isKept_linesOfFilters hdirnames (Or.inl rfl) (Or.inr rfl)
    exact List.mem_map.2 ⟨filter, (List.mem_filter.1 hfilter).1, rfl⟩
  · exact isKept_linesOfFilters hdirnamesEnds (Or.inr rfl) (Or.inr rfl)

/-- The lines of the user are written as they are. -/
lemma AtMostOneBlock.isKept (h : AtMostOneBlock content outside) (hreturn : '\r' ∉ content) :
    ∀ line ∈ trimmedLines outside, IsKept line := by
  have hchars : ∀ line ∈ content.splitOn '\n', '\n' ∉ line ∧ '\r' ∉ line := fun line hline =>
    ⟨fun hmem => (mem_splitOn line hline '\n' hmem).2 rfl,
      fun hmem => hreturn (mem_splitOn line hline '\r' hmem).1⟩
  have houtside : ∀ line ∈ outside, '\n' ∉ line ∧ '\r' ∉ line ∧ HasNoMarker line := by
    cases h with
    | none hnone =>
        intro line hline
        exact ⟨(hchars line hline).1, (hchars line hline).2,
          hnone.of_isInfix (isInfix_of_mem_splitOn hline)⟩
    | one hlines _ _ hplain =>
        rw [hlines] at hchars
        intro line hline
        rcases List.mem_append.1 hline with hline | hline
        · have hchar := hchars line (List.mem_append_left _ hline)
          exact ⟨hchar.1, hchar.2,
            hplain line (List.mem_append_left _ (List.mem_append_left _ hline))⟩
        · have hchar := hchars line (List.mem_append_right _ (List.mem_cons_of_mem _
            (List.mem_append_right _ (List.mem_cons_of_mem _ hline))))
          exact ⟨hchar.1, hchar.2, hplain line (List.mem_append_right _ hline)⟩
  intro line hline
  obtain ⟨line', hline', rfl, hne⟩ := mem_trimmedLines.1 hline
  have hkept := isKept_around hne (houtside line' hline') (Or.inl rfl) (Or.inl rfl)
  rw [List.append_nil] at hkept
  exact hkept

lemma trimmed_begin : trimmed specialDetectingTextBeginInIgnoreFile =
    specialDetectingTextBeginInIgnoreFile := by decide +kernel

lemma trimmed_end : trimmed specialDetectingTextEndInIgnoreFile =
    specialDetectingTextEndInIgnoreFile := by decide +kernel

/-! ## Pushing -/

lemma trimmedLines_block (hl : l.Plain) :
    trimmedLines (l.block isGitFolder) = l.block isGitFolder := by
  apply trimmedLines_eq_self
  intro line hline
  unfold FilterLists.block at hline
  split at hline
  · exact absurd hline List.not_mem_nil
  · rcases List.mem_cons.1 hline with rfl | hline
    · exact ⟨trimmed_begin, begin_ne_nil⟩
    · rcases List.mem_append.1 hline with hline | hline
      · have hkept := hl.isKept line hline
        exact ⟨hkept.trimmed_eq, hkept.ne_nil⟩
      · rw [List.mem_singleton.1 hline]
        exact ⟨trimmed_end, end_ne_nil⟩

/-- **What a push writes.** -/
lemma pushToGitIgnore_eq (h : AtMostOneBlock (readAll file) outside) (hl : l.Plain)
    (hlast : l.isEmpty = true ∨ EndsWithNewline (readAll file))
    (hwrites : (file.isNone && l.isEmpty) = false) :
    pushToGitIgnore file l = some (joinLines (trimmedLines outside ++ l.block isGitFolder)) := by
  obtain ⟨front, last, hstrip, hfront, hnewline, htrimmed, hblank⟩ := h.exists_stripOut
  unfold pushToGitIgnore
  rw [hwrites, if_neg Bool.false_ne_true]
  dsimp only
  rw [hstrip, squashEmptyLines_eq]
  cases hempty : l.isEmpty with
  | true =>
      rw [if_pos rfl, splitOn_joinLines_append hfront hnewline, htrimmed, FilterLists.block,
        hempty, if_pos rfl, List.append_nil]
  | false =>
      have hlast := hblank (hlast.resolve_left (by rw [hempty]; exact Bool.false_ne_true))
      have hbeginLine : trimmed (last ++ specialDetectingTextBeginInIgnoreFile) =
          specialDetectingTextBeginInIgnoreFile := by
        rw [trimmed_append (trimmed_eq_nil_iff.1 hlast), trimmed_begin]
      have hcontents : appendDefines l (joinLines front ++ last) = joinLines (front ++
          (last ++ specialDetectingTextBeginInIgnoreFile) :: (l.lines isGitFolder ++
            [specialDetectingTextEndInIgnoreFile])) := by
        rw [appendDefines_eq]
        simp only [joinLines_append, joinLines_cons, List.append_assoc]
      have hblock : l.block isGitFolder = specialDetectingTextBeginInIgnoreFile ::
          (l.lines isGitFolder ++ [specialDetectingTextEndInIgnoreFile]) := by
        rw [FilterLists.block, hempty, if_neg Bool.false_ne_true]
      have hwritten := trimmedLines_block hl
      rw [hblock, trimmedLines_cons_of_ne (by rw [trimmed_begin]; exact begin_ne_nil),
        trimmed_begin] at hwritten
      rw [if_neg Bool.false_ne_true, hcontents, splitOn_joinLines,
        trimmedLines_concat_of_empty rfl, trimmedLines_append,
        trimmedLines_cons_of_ne (by rw [hbeginLine]; exact begin_ne_nil), hbeginLine, hwritten,
        ← htrimmed, trimmedLines_concat_of_empty hlast, hblock]
      · intro line hline
        rcases List.mem_append.1 hline with hline | hline
        · exact hfront line hline
        · rcases List.mem_cons.1 hline with rfl | hline
          · exact mt List.mem_append.1 (not_or.2 ⟨hnewline, newline_not_mem_begin⟩)
          · rcases List.mem_append.1 hline with hline | hline
            · exact (hl.isKept line hline).newline
            · rw [List.mem_singleton.1 hline]
              exact newline_not_mem_end

lemma not_mem_block (hl : l.Plain) :
    ∀ line ∈ l.block isGitFolder, '\n' ∉ line ∧ '\r' ∉ line := by
  intro line hline
  unfold FilterLists.block at hline
  split at hline
  · exact absurd hline List.not_mem_nil
  · rcases List.mem_cons.1 hline with rfl | hline
    · decide +kernel
    · rcases List.mem_append.1 hline with hline | hline
      · exact ⟨(hl.isKept line hline).newline, (hl.isKept line hline).carriageReturn⟩
      · rw [List.mem_singleton.1 hline]
        decide +kernel

/-- **A written file has the lines of the user again**, outside of its only block. -/
lemma exists_atMostOneBlock_written {kept : List Text} (hkept : ∀ line ∈ kept, IsKept line)
    (hl : l.Plain) : ∃ outside,
      AtMostOneBlock (readAll (some (joinLines (kept ++ l.block isGitFolder)))) outside ∧
        trimmedLines outside = kept ∧
          EndsWithNewline (readAll (some (joinLines (kept ++ l.block isGitFolder)))) := by
  have hnewline : ∀ line ∈ kept ++ l.block isGitFolder, '\n' ∉ line ∧ '\r' ∉ line := by
    intro line hline
    rcases List.mem_append.1 hline with hline | hline
    · exact ⟨(hkept line hline).newline, (hkept line hline).carriageReturn⟩
    · exact not_mem_block hl line hline
  have hread : readAll (some (joinLines (kept ++ l.block isGitFolder))) =
      joinLines (kept ++ l.block isGitFolder) := by
    apply readAsText_eq_self
    intro hmem
    obtain ⟨line, hline, hc⟩ := List.mem_flatMap.1 hmem
    rcases List.mem_append.1 hc with hc | hc
    · exact (hnewline line hline).2 hc
    · exact absurd (List.mem_singleton.1 hc) (by decide)
  have hsplit := splitOn_joinLines fun line hline => (hnewline line hline).1
  have hkeptLines : trimmedLines kept = kept := trimmedLines_eq_self fun line hline =>
    ⟨(hkept line hline).trimmed_eq, (hkept line hline).ne_nil⟩
  have houtside : trimmedLines (kept ++ [[]]) = kept := by
    rw [trimmedLines_concat_of_empty rfl, hkeptLines]
  rw [hread]
  have hends : EndsWithNewline (joinLines (kept ++ l.block isGitFolder)) := by
    intro line hline
    rw [hsplit, List.getLast?_concat] at hline
    obtain rfl : [] = line := Option.some.inj hline
    exact Or.inl rfl
  cases hempty : l.isEmpty with
  | true =>
      have hblock : l.block isGitFolder = [] := by
        rw [FilterLists.block, hempty, if_pos rfl]
      rw [hblock, List.append_nil] at hsplit hends ⊢
      have hnoMarker : HasNoMarker (joinLines kept) := by
        constructor
        · intro hcontained
          obtain ⟨line, hline, hmarker⟩ :=
            infix_joinLines newline_not_mem_begin begin_ne_nil hcontained
          exact (hkept line hline).noMarker.1 hmarker
        · intro hcontained
          obtain ⟨line, hline, hmarker⟩ := infix_joinLines newline_not_mem_end end_ne_nil hcontained
          exact (hkept line hline).noMarker.2 hmarker
      refine ⟨_, AtMostOneBlock.none hnoMarker, ?_, hends⟩
      rw [hsplit, houtside]
  | false =>
      have hblock : l.block isGitFolder = specialDetectingTextBeginInIgnoreFile ::
          (l.lines isGitFolder ++ [specialDetectingTextEndInIgnoreFile]) := by
        rw [FilterLists.block, hempty, if_neg Bool.false_ne_true]
      refine ⟨kept ++ [[]], ?_, houtside, hends⟩
      have hwritten : (joinLines (kept ++ l.block isGitFolder)).splitOn '\n' = kept ++
          specialDetectingTextBeginInIgnoreFile :: (l.lines isGitFolder ++
            specialDetectingTextEndInIgnoreFile :: [[]]) := by
        rw [hsplit, hblock]
        simp only [List.append_assoc, List.cons_append, List.nil_append]
      apply AtMostOneBlock.one hwritten trimmed_begin trimmed_end
      · intro line hline
        rcases List.mem_append.1 hline with hline | hline
        · rcases List.mem_append.1 hline with hline | hline
          · exact (hkept line hline).noMarker
          · exact (hl.isKept line hline).noMarker
        · rw [List.mem_singleton.1 hline]
          exact ⟨mt List.infix_nil.1 begin_ne_nil, mt List.infix_nil.1 end_ne_nil⟩

/-- A push after a push, with the same filters or others. -/
lemma pushToGitIgnore_again {l' : FilterLists} {kept : List Text}
    (hkept : ∀ line ∈ kept, IsKept line) (hl : l.Plain) (hl' : l'.Plain) :
    pushToGitIgnore (some (joinLines (kept ++ l.block isGitFolder))) l' =
      some (joinLines (kept ++ l'.block isGitFolder)) := by
  obtain ⟨outside, hblock, houtside, hends⟩ := exists_atMostOneBlock_written hkept hl
  rw [pushToGitIgnore_eq hblock hl' (Or.inr hends) rfl, houtside]

lemma FilterLists.plain_of_isEmpty (h : l.isEmpty = true) : l.Plain := by
  unfold FilterLists.isEmpty at h
  simp only [Bool.and_eq_true, List.isEmpty_iff] at h
  obtain ⟨⟨⟨hfilenames, hfilenamesEnds⟩, hdirnames⟩, hdirnamesEnds⟩ := h
  constructor
  rw [hfilenames, hfilenamesEnds, hdirnames, hdirnamesEnds]
  exact fun filter hfilter => absurd hfilter List.not_mem_nil

/-- **The user's lines stay, followed by the block of the filters**, and neither another push nor
one without filters changes anything about them.

The lines of the user are the trimmed ones that are not empty: trimming is what the source does to
all lines, and git ignores blanks at the end of a pattern.  Where there is something to push, the
file has to end with a newline, or the mark that begins the block is appended to the user's last
line. -/
theorem pushToGitIgnore_keepsLines (h : AtMostOneBlock (readAll file) outside) (hl : l.Plain)
    (hlast : l.isEmpty = true ∨ EndsWithNewline (readAll file)) :
    (pushToGitIgnore file l).getD [] = joinLines (trimmedLines outside ++ l.block isGitFolder) ∧
      pushToGitIgnore (pushToGitIgnore file l) l = pushToGitIgnore file l ∧
      ∀ l', l'.isEmpty = true → (pushToGitIgnore (pushToGitIgnore file l) l').getD [] =
        joinLines (trimmedLines outside) := by
  have hkept := h.isKept carriageReturn_not_mem_readAsText
  cases hwrites : file.isNone && l.isEmpty with
  | true =>
      obtain ⟨hnone, hempty⟩ := Bool.and_eq_true_iff.1 hwrites
      obtain rfl := Option.isNone_iff_eq_none.1 hnone
      have hblock : l.block isGitFolder = [] := by rw [FilterLists.block, hempty, if_pos rfl]
      have hpush : ∀ l' : FilterLists, l'.isEmpty = true → pushToGitIgnore none l' = none := by
        intro l' hl'
        rw [pushToGitIgnore, hl']
        rfl
      have hnothing : trimmedLines outside = [] := by
        obtain ⟨front, last, hstrip, -, -, htrimmed, -⟩ := h.exists_stripOut
        have hnil : joinLines front ++ last = [] := hstrip.symm.trans (by decide +kernel)
        obtain ⟨hfront, rfl⟩ := List.append_eq_nil_iff.1 hnil
        cases front with
        | nil => exact htrimmed.symm.trans rfl
        | cons line front =>
            rw [joinLines_cons] at hfront
            exact absurd hfront (List.append_ne_nil_of_right_ne_nil _ (List.cons_ne_nil _ _))
      rw [hpush l hempty, hblock, hnothing]
      exact ⟨rfl, hpush l hempty, fun l' hl' => by rw [hpush l' hl']; rfl⟩
  | false =>
      rw [pushToGitIgnore_eq h hl hlast hwrites]
      refine ⟨rfl, pushToGitIgnore_again hkept hl hl, fun l' hl' => ?_⟩
      rw [pushToGitIgnore_again hkept hl (FilterLists.plain_of_isEmpty hl'), FilterLists.block, hl',
        if_pos rfl, List.append_nil]
      rfl

/-- A block between two lines of the user. -/
def pushedBefore : Text := "*.o\n#%%QuickDirtyAutoBackupHalperDefines_Begin%%\nold/\n".toList ++
  "#%%QuickDirtyAutoBackupHalperDefines_End%%\n  notes\n".toList

def buildFolder : FilterLists := ⟨[], [], [".git".toList, "build".toList], []⟩

lemma plain_buildFolder : buildFolder.Plain := by
  constructor
  unfold HasNoMarker
  decide +kernel

theorem pushToGitIgnore_keepsLines_pushedBefore :
    (pushToGitIgnore (some pushedBefore) buildFolder).getD [] =
        joinLines (trimmedLines (["*.o".toList] ++ ["  notes".toList, []]) ++
          buildFolder.block isGitFolder) ∧
      pushToGitIgnore (pushToGitIgnore (some pushedBefore) buildFolder) buildFolder =
        pushToGitIgnore (some pushedBefore) buildFolder ∧
      ∀ l' : FilterLists, l'.isEmpty = true →
        (pushToGitIgnore (pushToGitIgnore (some pushedBefore) buildFolder) l').getD [] =
          joinLines (trimmedLines (["*.o".toList] ++ ["  notes".toList, []])) := by
  have hlines : (readAll (some pushedBefore)).splitOn '\n' = ["*.o".toList] ++
      specialDetectingTextBeginInIgnoreFile :: (["old/".toList] ++
        specialDetectingTextEndInIgnoreFile :: ["  notes".toList, []]) := by decide +kernel
  apply pushToGitIgnore_keepsLines
  · apply AtMostOneBlock.one hlines trimmed_begin trimmed_end
    unfold HasNoMarker
    decide +kernel
  · exact plain_buildFolder
  · right
    intro line hline
    rw [hlines] at hline
    obtain rfl : [] = line := Option.some.inj hline
    exact Or.inl rfl

/-- The folder of git gets no line. -/
theorem not_pushToGitIgnore_gitFolder : ¬ ∀ file l outside,
    AtMostOneBlock (readAll file) outside → FilterLists.Plain l →
      (pushToGitIgnore file l).getD [] =
        joinLines (trimmedLines outside ++ l.block fun _ => false) := by
  intro h
  have hnoMarker : HasNoMarker (readAll none) := by
    unfold HasNoMarker
    decide +kernel
  have hlines := h none buildFolder _ (AtMostOneBlock.none hnoMarker) plain_buildFolder
  exact absurd hlines (by decide +kernel)

end Autobackup.AutoBackupHalper
