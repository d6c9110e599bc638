import Autobackup.Foundation.TextLines
import Autobackup.Foundation.TextParts

/-!
# The log that git writes

`git log --format=format:%H%n%ai%n%s` writes three lines for a commit: its id, its date and its
subject.  `GitHelper` reads them again.  Blank lines are skipped where an id is expected, and an
empty line anywhere else is an error, so that the first commit without a subject ends the reading
(`GitLog.read_log`).

A log is the list of its commits with the texts that git puts in the place of the three formats.  A
subject has no newline and a date is not empty, as git guarantees both.  Left out are starting git
and its exit code.
-/

namespace Autobackup.Filesystem

open QString

structure GitCommitIdTimestampAndMessage where
  commitId : Text
  commitDate : Text
  commitMessage : Text
  deriving DecidableEq

/-! ## Reading -/

/-- The loop over the lines: whether it ends without an error, and the list it has filled. -/
def readCommits (text : Text) (commits : List GitCommitIdTimestampAndMessage) :
    Bool × List GitCommitIdTimestampAndMessage :=
  if text = [] then (true, commits)
  else
    let currentLine := readLine text
    if trimmed currentLine.1 = [] then readCommits currentLine.2 commits
    else if currentLine.1.length ≠ 40 then (false, commits)
    else
      let dateLine := readLine currentLine.2
      if dateLine.1 = [] then (false, commits)
      else
        let messageLine := readLine dateLine.2
        if messageLine.1 = [] then (false, commits)
        else
          readCommits messageLine.2 (commits ++ [⟨currentLine.1, dateLine.1, messageLine.1⟩])
termination_by text.length
decreasing_by
  · exact length_readLine_lt ‹_›
  · have hid := length_readLine_lt ‹text ≠ []›
    have hdate := length_readLine_le (readLine text).2
    have hmessage := length_readLine_le (readLine (readLine text).2).2
    omega

/-- `gitLogReturningCommitIdsAuthorDateAndCommitMessage`, of what git has written. -/
def gitLogReturningCommitIdsAuthorDateAndCommitMessage (gitLogResultString : Text) :
    Bool × List GitCommitIdTimestampAndMessage :=
  if trimmed gitLogResultString = [] then (false, [])
  else
    let read := readCommits gitLogResultString []
    (read.1 && decide (1 ≤ read.2.length), read.2)

/-! ## Writing -/

/-- A commit, as far as the format shows it. -/
structure Commit where
  id : Text
  date : Text
  subject : Text
  length_id : id.length = 40
  isSpace_id : ∀ c ∈ id, isSpace c = false
  date_ne_nil : date ≠ []
  newline_not_mem_date : '\n' ∉ date
  carriageReturn_not_mem_date : '\r' ∉ date
  newline_not_mem_subject : '\n' ∉ subject
  /-- It may be empty. -/
  trimmed_subject : trimmed subject = subject

def Commit.noted (commit : Commit) : GitCommitIdTimestampAndMessage :=
  ⟨commit.id, commit.date, commit.subject⟩

/-- `%H%n%ai%n%s` -/
def Commit.formatted (commit : Commit) : Text :=
  commit.id ++ '\n' :: (commit.date ++ '\n' :: commit.subject)

/-- `format:` puts newlines between the commits. -/
def formatCommits : List Commit → Text
  | [] => []
  | [commit] => commit.formatted
  | commit :: next :: rest => commit.formatted ++ '\n' :: formatCommits (next :: rest)

/-- The commits that are logged, the latest first. -/
structure GitLog where
  commits : List Commit
  commits_ne_nil : commits ≠ []

def GitLog.text (log : GitLog) : Text := formatCommits log.commits

/-! ## Reading what was written -/

variable {commit : Commit} {rest : Text} {commits : List Commit}
  {filled : List GitCommitIdTimestampAndMessage}

namespace Commit

lemma id_ne_nil (commit : Commit) : commit.id ≠ [] := by
  intro hnil
  have hlength := commit.length_id
  rw [hnil] at hlength
  exact absurd hlength (by decide)

lemma newline_not_mem_id (commit : Commit) : '\n' ∉ commit.id := fun hmem =>
  absurd (commit.isSpace_id _ hmem) (by decide)

lemma chomp_id (commit : Commit) : chomp commit.id = commit.id := by
  apply chomp_eq_self
  intro hlast
  exact absurd (commit.isSpace_id _ (List.mem_of_getLast? hlast)) (by decide)

lemma trimmed_id_ne_nil (commit : Commit) : trimmed commit.id ≠ [] := by
  obtain ⟨c, hc⟩ := List.exists_mem_of_ne_nil _ commit.id_ne_nil
  exact List.ne_nil_of_mem (mem_trimmed hc (commit.isSpace_id c hc))

lemma chomp_date (commit : Commit) : chomp commit.date = commit.date := by
  apply chomp_eq_self
  intro hlast
  exact commit.carriageReturn_not_mem_date (List.mem_of_getLast? hlast)

lemma chomp_subject (commit : Commit) : chomp commit.subject = commit.subject := by
  apply chomp_eq_self
  intro hlast
  rw [← commit.trimmed_subject] at hlast
  exact absurd (isSpace_getLast_trimmed hlast) (by decide)

/-- What follows the subject of a commit. -/
def IsTail (rest : Text) : Prop := rest = [] ∨ ∃ more, rest = '\n' :: more

lemma readLine_subject (commit : Commit) (h : IsTail rest) :
    readLine (commit.subject ++ rest) = (commit.subject, rest.drop 1) := by
  obtain rfl | ⟨more, rfl⟩ := h
  · rw [List.append_nil, readLine_of_not_mem commit.newline_not_mem_subject, chomp_subject]
    rfl
  · rw [readLine_append commit.newline_not_mem_subject, chomp_subject]
    rfl

/-- **One commit.** -/
lemma readCommits_formatted (commit : Commit) (filled : List GitCommitIdTimestampAndMessage)
    (h : IsTail rest) :
    readCommits (commit.formatted ++ rest) filled =
      if commit.subject = [] then (false, filled)
      else readCommits (rest.drop 1) (filled ++ [commit.noted]) := by
  have hid : readLine (commit.formatted ++ rest) =
      (commit.id, commit.date ++ '\n' :: (commit.subject ++ rest)) := by
    rw [formatted, List.append_assoc, List.cons_append, List.append_assoc, List.cons_append,
      readLine_append commit.newline_not_mem_id, commit.chomp_id]
  have hdate : readLine (commit.date ++ '\n' :: (commit.subject ++ rest)) =
      (commit.date, commit.subject ++ rest) := by
    rw [readLine_append commit.newline_not_mem_date, commit.chomp_date]
  have hne : commit.formatted ++ rest ≠ [] := by
    apply List.append_ne_nil_of_left_ne_nil
    exact List.append_ne_nil_of_left_ne_nil commit.id_ne_nil _
  rw [readCommits, if_neg hne]
  simp only [hid, hdate, readLine_subject commit h]
  rw [if_neg commit.trimmed_id_ne_nil, if_neg (not_not.2 commit.length_id),
    if_neg commit.date_ne_nil]
  rfl

end Commit

lemma readCommits_nil : readCommits [] filled = (true, filled) := by
  rw [readCommits, if_pos rfl]

/-- **The commits in front of the first one without a subject are read.** -/
lemma readCommits_formatCommits : readCommits (formatCommits commits) filled =
    (commits.all fun commit => commit.subject ≠ [],
      filled ++ (commits.takeWhile fun commit => commit.subject ≠ []).map Commit.noted) := by
  induction commits generalizing filled with
  | nil => rw [formatCommits, readCommits_nil, List.takeWhile_nil, List.map_nil, List.append_nil,
      List.all_nil]
  | cons commit commits ih =>
      have hread : readCommits (formatCommits (commit :: commits)) filled =
          if commit.subject = [] then (false, filled)
          else readCommits (formatCommits commits) (filled ++ [commit.noted]) := by
        cases commits with
        | nil =>
            have h := commit.readCommits_formatted filled (.inl rfl : Commit.IsTail [])
            rw [List.append_nil] at h
            exact h
        | cons next commits => exact commit.readCommits_formatted filled (.inr ⟨_, rfl⟩)
      rw [hread]
      by_cases hsubject : commit.subject = []
      · rw [if_pos hsubject, List.all_cons, List.takeWhile_cons_of_neg (by simpa using hsubject)]
        simp [hsubject]
      · rw [if_neg hsubject, ih, List.all_cons,
          List.takeWhile_cons_of_pos (by simpa using hsubject), List.map_cons, List.append_assoc]
        simp [hsubject]

namespace GitLog

lemma trimmed_text_ne_nil (log : GitLog) : trimmed log.text ≠ [] := by
  obtain ⟨commit, rest, hcommits⟩ := List.exists_cons_of_ne_nil log.commits_ne_nil
  obtain ⟨c, hc⟩ := List.exists_mem_of_ne_nil _ commit.id_ne_nil
  have hmem : c ∈ log.text := by
    rw [text, hcommits]
    cases rest with
    | nil => exact List.mem_append_left _ hc
    | cons next rest => exact List.mem_append_left _ (List.mem_append_left _ hc)
  exact List.ne_nil_of_mem (mem_trimmed hmem (commit.isSpace_id c hc))

/-- **The whole log is read if every commit has a subject.**  Otherwise it is an error, and the
commits in front of the first one without a subject are in the list.

Git accepts commits without a subject with `--allow-empty-message`, and imports have them.  What was
read up to there is in the list all the same, so a caller that ignores the error goes on with the
beginning of the history. -/
theorem read_log (log : GitLog) :
    gitLogReturningCommitIdsAuthorDateAndCommitMessage log.text =
      (decide (∀ commit ∈ log.commits, commit.subject ≠ []),
        (log.commits.takeWhile fun commit => commit.subject ≠ []).map Commit.noted) := by
  rw [gitLogReturningCommitIdsAuthorDateAndCommitMessage, if_neg log.trimmed_text_ne_nil]
  simp only [text, readCommits_formatCommits, List.nil_append, List.length_map]
  have hall : (log.commits.all fun commit => commit.subject ≠ []) =
      decide (∀ commit ∈ log.commits, commit.subject ≠ []) := by
    rw [Bool.eq_iff_iff, List.all_eq_true, decide_eq_true_iff]
    simp only [decide_eq_true_iff]
  rw [hall, Prod.mk.injEq]
  refine ⟨?_, rfl⟩
  by_cases hsubjects : ∀ commit ∈ log.commits, commit.subject ≠ []
  · have hwhole : (log.commits.takeWhile fun commit => commit.subject ≠ []) = log.commits := by
      apply List.takeWhile_eq_self_iff.2
      intro commit hcommit
      exact decide_eq_true (hsubjects commit hcommit)
    have hpos := List.length_pos_of_ne_nil log.commits_ne_nil
    rw [hwhole, decide_eq_true hsubjects, decide_eq_true (show 1 ≤ log.commits.length from hpos)]
    rfl
  · rw [decide_eq_false hsubjects, Bool.false_and]

/-! A commit without a subject. -/

def idOfZeros : Text := List.replicate 40 '0'

lemma isSpace_idOfZeros : ∀ c ∈ idOfZeros, isSpace c = false := by
  intro c hc
  rw [List.eq_of_mem_replicate hc]
  decide

def epoch : Text := "1970-01-01 00:00:00 +0000".toList

lemma epoch_ne_nil : epoch ≠ [] := by decide

lemma newline_not_mem_epoch : '\n' ∉ epoch := by decide

lemma carriageReturn_not_mem_epoch : '\r' ∉ epoch := by decide

def commitWithoutSubject : Commit where
  id := idOfZeros
  date := epoch
  subject := []
  length_id := List.length_replicate
  isSpace_id := isSpace_idOfZeros
  date_ne_nil := epoch_ne_nil
  newline_not_mem_date := newline_not_mem_epoch
  carriageReturn_not_mem_date := carriageReturn_not_mem_epoch
  newline_not_mem_subject := List.not_mem_nil
  trimmed_subject := rfl

theorem not_read_commitWithoutSubject :
    gitLogReturningCommitIdsAuthorDateAndCommitMessage
        (text ⟨[commitWithoutSubject], List.cons_ne_nil _ _⟩) ≠
      (true, [commitWithoutSubject.noted]) := by
  intro h
  have hread : readCommits (formatCommits [commitWithoutSubject]) [] = (false, []) :=
    readCommits_formatCommits
  rw [gitLogReturningCommitIdsAuthorDateAndCommitMessage,
    if_neg (trimmed_text_ne_nil ⟨[commitWithoutSubject], List.cons_ne_nil _ _⟩), text, hread] at h
  exact absurd (congrArg Prod.fst h) (by decide)

end GitLog

end Autobackup.Filesystem
