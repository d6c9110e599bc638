import Autobackup.Foundation.QString

/-!
# Lines of a text

`QTextStream::readLine` gives the text up to the next newline, without it and without a carriage
return in front of it.  Lines that were written one after the other are read one after the other
(`linesOf_joinLines_append`), without their carriage returns.
-/

namespace Autobackup.QString

variable {line rest text : Text} {lines lines' : List Text}

/-- A carriage return belongs to the end of the line. -/
def chomp (line : Text) : Text := if line.getLast? = some '\r' then line.dropLast else line

/-- The lines that `readLine` gives until `atEnd`. -/
def linesOf (text : Text) : List Text :=
  let parts := text.splitOn '\n'
  (if parts.getLast? = some [] then parts.dropLast else parts).map chomp

/-- Lines, each with a newline. -/
def joinLines (lines : List Text) : Text := lines.flatMap fun line => line ++ ['\n']

@[simp] lemma joinLines_nil : joinLines [] = [] := rfl

@[simp] lemma joinLines_cons : joinLines (line :: lines) = line ++ '\n' :: joinLines lines := by
  simp [joinLines]

@[simp] lemma joinLines_append :
    joinLines (lines ++ lines') = joinLines lines ++ joinLines lines' :=
  List.flatMap_append

lemma chomp_eq_self (h : line.getLast? ≠ some '\r') : chomp line = line := if_neg h

lemma chomp_eq_self_iff : chomp line = line ↔ line.getLast? ≠ some '\r' := by
  refine ⟨fun h hlast => ?_, chomp_eq_self⟩
  rw [chomp, if_pos hlast] at h
  have hne : line ≠ [] := fun hnil => by
    rw [hnil] at hlast
    exact Option.some_ne_none _ hlast.symm
  have hlength := congrArg List.length h
  have hpos := List.length_pos_of_ne_nil hne
  rw [List.length_dropLast] at hlength
  omega

lemma not_mem_chomp (h : '\n' ∉ line) : '\n' ∉ chomp line := by
  rw [chomp]
  split
  · exact fun hmem => h (List.dropLast_subset _ hmem)
  · exact h

/-- A line has characters of the text, other than the newline. -/
lemma mem_linesOf {text : Text} : ∀ line ∈ linesOf text, ∀ c ∈ line, c ∈ text ∧ c ≠ '\n' := by
  intro line hline c hc
  obtain ⟨part, hpart, rfl⟩ := List.mem_map.1 hline
  have hpart : part ∈ text.splitOn '\n' := by
    split_ifs at hpart
    · exact List.dropLast_subset _ hpart
    · exact hpart
  have hc : c ∈ part := by
    rw [chomp] at hc
    split_ifs at hc
    · exact List.dropLast_subset _ hc
    · exact hc
  exact mem_splitOn part hpart c hc

@[simp] lemma linesOf_nil : linesOf [] = [] := rfl

lemma linesOf_append (h : '\n' ∉ line) :
    linesOf (line ++ '\n' :: rest) = chomp line :: linesOf rest := by
  have hsplit : (line ++ '\n' :: rest).splitOn '\n' = line :: rest.splitOn '\n' :=
    List.splitOn_append_cons_self_of_not_mem h rest
  obtain ⟨part, parts, hparts⟩ := List.exists_cons_of_ne_nil (List.splitOn_ne_nil '\n' rest)
  simp only [linesOf, hsplit, hparts, List.getLast?_cons_cons, List.dropLast_cons_cons]
  split <;> rfl

/-- **Written lines are read, without their carriage returns.** -/
theorem linesOf_joinLines_append (h : ∀ line ∈ lines, '\n' ∉ line) :
    linesOf (joinLines lines ++ rest) = lines.map chomp ++ linesOf rest := by
  induction lines with
  | nil => rfl
  | cons line lines ih =>
      obtain ⟨hline, hlines⟩ := List.forall_mem_cons.1 h
      rw [joinLines_cons, List.append_assoc, List.cons_append, linesOf_append hline, ih hlines,
        List.map_cons, List.cons_append]

lemma splitOn_joinLines (h : ∀ line ∈ lines, '\n' ∉ line) :
    (joinLines lines).splitOn '\n' = lines ++ [[]] := by
  induction lines with
  | nil => rfl
  | cons line lines ih =>
      obtain ⟨hline, hlines⟩ := List.forall_mem_cons.1 h
      rw [joinLines_cons, List.splitOn_append_cons_self_of_not_mem hline, ih hlines,
        List.cons_append]

lemma joinLines_injective (h : ∀ line ∈ lines, '\n' ∉ line) (h' : ∀ line ∈ lines', '\n' ∉ line)
    (heq : joinLines lines = joinLines lines') : lines = lines' := by
  have hsplit := splitOn_joinLines h
  rw [heq, splitOn_joinLines h'] at hsplit
  exact (List.append_cancel_right hsplit).symm

/-! ## Texts of several lines -/

/-- The lines that are read of a text, when a newline follows. -/
def readLines (text : Text) : List Text := (text.splitOn '\n').map chomp

lemma readLines_append (h : '\n' ∉ line) :
    readLines (line ++ '\n' :: rest) = chomp line :: readLines rest := by
  rw [readLines, List.splitOn_append_cons_self_of_not_mem h, List.map_cons, readLines]

lemma readLines_of_not_mem (h : '\n' ∉ line) : readLines line = [chomp line] := by
  rw [readLines, List.splitOn_eq_singleton h, List.map_singleton]

lemma linesOf_append_readLines (text rest : Text) :
    linesOf (text ++ '\n' :: rest) = readLines text ++ linesOf rest := by
  by_cases h : '\n' ∈ text
  · obtain ⟨line, more, rfl, hline⟩ := List.eq_append_cons_of_mem h
    have hlength : more.length < (line ++ '\n' :: more).length := by simp; omega
    rw [List.append_assoc, List.cons_append, linesOf_append hline, readLines_append hline,
      linesOf_append_readLines more rest, List.cons_append]
  · rw [linesOf_append h, readLines_of_not_mem h, List.singleton_append]
termination_by text.length

lemma linesOf_joinLines (texts : List Text) :
    linesOf (joinLines texts) = texts.flatMap readLines := by
  induction texts with
  | nil => rfl
  | cons text texts ih => rw [joinLines_cons, linesOf_append_readLines, ih, List.flatMap_cons]

lemma chomp_isInfix : chomp line <:+: line := by
  rw [chomp]
  split
  · exact (List.dropLast_prefix line).isInfix
  · exact List.infix_rfl

/-- A line is a part of the text. -/
lemma isInfix_of_mem_readLines {text line : Text} (h : line ∈ readLines text) : line <:+: text := by
  by_cases hmem : '\n' ∈ text
  · obtain ⟨first, more, rfl, hfirst⟩ := List.eq_append_cons_of_mem hmem
    have hlength : more.length < (first ++ '\n' :: more).length := by simp; omega
    rw [readLines_append hfirst] at h
    rcases List.mem_cons.1 h with rfl | h
    · exact chomp_isInfix.trans (List.prefix_append _ _).isInfix
    · exact (isInfix_of_mem_readLines h).trans ⟨first ++ ['\n'], [], by simp⟩
  · rw [readLines_of_not_mem hmem, List.mem_singleton] at h
    rw [h]
    exact chomp_isInfix
termination_by text.length

/-! ## One line after the other -/

/-- `QTextStream::readLine`: the line, and what is left. -/
def readLine (text : Text) : Text × Text :=
  (chomp (text.takeWhile (· ≠ '\n')), (text.dropWhile (· ≠ '\n')).drop 1)

lemma readLine_append (h : '\n' ∉ line) : readLine (line ++ '\n' :: rest) = (chomp line, rest) := by
  have hne : ∀ c ∈ line, decide (c ≠ '\n') = true := fun c hc => by
    apply decide_eq_true
    intro heq
    rw [heq] at hc
    exact h hc
  rw [readLine, List.takeWhile_append_of_pos hne, List.dropWhile_append_of_pos hne,
    List.takeWhile_cons_of_neg (by simp), List.dropWhile_cons_of_neg (by simp), List.append_nil,
    List.drop_one, List.tail_cons]

lemma readLine_of_not_mem (h : '\n' ∉ line) : readLine line = (chomp line, []) := by
  have hne : ∀ c ∈ line, decide (c ≠ '\n') = true := fun c hc => by
    apply decide_eq_true
    intro heq
    rw [heq] at hc
    exact h hc
  rw [readLine, List.takeWhile_eq_self_iff.2 hne, List.dropWhile_eq_nil_iff.2 hne, List.drop_nil]

lemma length_readLine_le (text : Text) : (readLine text).2.length ≤ text.length - 1 := by
  have hle : (text.dropWhile (· ≠ '\n')).length ≤ text.length :=
    (List.dropWhile_suffix _).length_le
  rw [readLine, List.length_drop]
  omega

/-- Something is read, even where the line is empty. -/
lemma length_readLine_lt (h : text ≠ []) : (readLine text).2.length < text.length := by
  have hle := length_readLine_le text
  have hpos := List.length_pos_of_ne_nil h
  omega

/-! ## Text mode -/

/-- What `QIODevice::Text` leaves on reading: no carriage returns. -/
def readAsText (text : Text) : Text := text.filter (· ≠ '\r')

lemma carriageReturn_not_mem_readAsText : '\r' ∉ readAsText text := fun h => by
  have hne := (List.mem_filter.1 h).2
  simp at hne

lemma readAsText_eq_self (h : '\r' ∉ text) : readAsText text = text := by
  refine List.filter_eq_self.2 fun c hc => decide_eq_true fun heq => h ?_
  rw [← heq]
  exact hc

lemma readAsText_append : readAsText (text ++ rest) = readAsText text ++ readAsText rest :=
  List.filter_append _ _

lemma readAsText_cons {c : Char} (h : c ≠ '\r') : readAsText (c :: text) = c :: readAsText text :=
  List.filter_cons_of_pos (decide_eq_true h)

lemma mem_of_mem_readAsText {c : Char} (h : c ∈ readAsText text) : c ∈ text :=
  List.mem_of_mem_filter h

/-! ## Lines that are complete -/

/-- The lines of a text that have their newline. -/
def completeLines (text : Text) : List Text := (text.splitOn '\n').dropLast

/-- What follows them. -/
def unfinishedLine (text : Text) : Text := (text.splitOn '\n').getLastD []

lemma splitOn_newline (text : Text) :
    text.splitOn '\n' = completeLines text ++ [unfinishedLine text] := by
  rw [completeLines, unfinishedLine,
    List.getLastD_eq_getLast?, List.getLast?_eq_getLast_of_ne_nil (List.splitOn_ne_nil '\n' text),
    Option.getD_some, List.dropLast_append_getLast]

lemma completeLines_append (h : '\n' ∉ line) :
    completeLines (line ++ '\n' :: rest) = line :: completeLines rest := by
  rw [completeLines, List.splitOn_append_cons_self_of_not_mem h]
  exact List.dropLast_cons_of_ne_nil (List.splitOn_ne_nil '\n' rest)

lemma completeLines_of_not_mem (h : '\n' ∉ text) : completeLines text = [] := by
  rw [completeLines, List.splitOn_eq_singleton h]
  rfl

lemma unfinishedLine_append (h : '\n' ∉ line) :
    unfinishedLine (line ++ '\n' :: rest) = unfinishedLine rest := by
  obtain ⟨part, parts, hparts⟩ := List.exists_cons_of_ne_nil (List.splitOn_ne_nil '\n' rest)
  rw [unfinishedLine, unfinishedLine, List.splitOn_append_cons_self_of_not_mem h, hparts]
  rfl

lemma unfinishedLine_of_not_mem (h : '\n' ∉ text) : unfinishedLine text = text := by
  rw [unfinishedLine, List.splitOn_eq_singleton h]
  rfl

lemma completeLines_joinLines_append (h : ∀ line ∈ lines, '\n' ∉ line) :
    completeLines (joinLines lines ++ rest) = lines ++ completeLines rest := by
  induction lines with
  | nil => rfl
  | cons line lines ih =>
      obtain ⟨hline, hlines⟩ := List.forall_mem_cons.1 h
      rw [joinLines_cons, List.append_assoc, List.cons_append, completeLines_append hline,
        ih hlines, List.cons_append]

lemma newline_not_mem_completeLines : ∀ line ∈ completeLines text, '\n' ∉ line :=
  fun line hline hmem =>
    (mem_splitOn line (List.dropLast_subset _ hline) '\n' hmem).2 rfl

/-- A text is its complete lines, and the beginning of one more. -/
lemma exists_eq_joinLines (text : Text) :
    text = joinLines (completeLines text) ++ unfinishedLine text ∧
      '\n' ∉ unfinishedLine text := by
  by_cases h : '\n' ∈ text
  · obtain ⟨line, rest, rfl, hline⟩ := List.eq_append_cons_of_mem h
    have hlength : rest.length < (line ++ '\n' :: rest).length := by simp; omega
    obtain ⟨heq, hnot⟩ := exists_eq_joinLines rest
    rw [completeLines_append hline, unfinishedLine_append hline, joinLines_cons]
    refine ⟨?_, hnot⟩
    rw [List.append_assoc, List.cons_append, ← heq]
  · rw [completeLines_of_not_mem h, unfinishedLine_of_not_mem h]
    exact ⟨rfl, h⟩
termination_by text.length

lemma completeLines_append_text (text rest : Text) :
    completeLines (text ++ rest) =
      completeLines text ++ completeLines (unfinishedLine text ++ rest) := by
  rw [← completeLines_joinLines_append newline_not_mem_completeLines, ← List.append_assoc,
    ← (exists_eq_joinLines text).1]

lemma newline_not_mem_of_completeLines_eq_nil (h : completeLines text = []) : '\n' ∉ text := by
  obtain ⟨heq, hnot⟩ := exists_eq_joinLines text
  rw [h, joinLines_nil, List.nil_append] at heq
  rwa [heq]

lemma readAsText_joinLines :
    readAsText (joinLines lines) = joinLines (lines.map readAsText) := by
  induction lines with
  | nil => rfl
  | cons line lines ih =>
      rw [joinLines_cons, readAsText_append, readAsText_cons (by decide), ih, List.map_cons,
        joinLines_cons]

lemma completeLines_readAsText :
    completeLines (readAsText text) = (completeLines text).map readAsText := by
  obtain ⟨heq, hnot⟩ := exists_eq_joinLines text
  have hlines : ∀ line ∈ (completeLines text).map readAsText, '\n' ∉ line := fun line hline => by
    obtain ⟨written, hwritten, rfl⟩ := List.mem_map.1 hline
    exact fun hmem => newline_not_mem_completeLines written hwritten (mem_of_mem_readAsText hmem)
  have hunfinished : completeLines (readAsText (unfinishedLine text)) = [] :=
    completeLines_of_not_mem fun hmem => hnot (mem_of_mem_readAsText hmem)
  calc completeLines (readAsText text)
      = completeLines (joinLines ((completeLines text).map readAsText) ++
          readAsText (unfinishedLine text)) := by
        rw [← readAsText_joinLines, ← readAsText_append, ← heq]
    _ = (completeLines text).map readAsText := by
        rw [completeLines_joinLines_append hlines, hunfinished, List.append_nil]

end Autobackup.QString
