import Autobackup.SubjectMatterMastery.MasteryTest

/-!
# The test ends only at mastery

A question that was graded wrong is among those that are asked in the next round, and in each
round there is one question less to be graded after every grade.  So it is asked again, and
nothing is left when the test is finished.

The letters of the choices are not forgotten when the next question is asked.  A letter that is
entered before the choices were listed for it is graded against those of a question before
(`endsOnlyAtMastery_iff`).

Random numbers are given as a function of how many were drawn before, so any shuffling is covered.
Left out are the texts of messages and a file that cannot be opened; answers are compared as the
source compares them.
-/

namespace Autobackup.SubjectMatterMastery

open MasteryHelper

/-! ## Shuffles -/

lemma takeAtRandom_perm {α : Type} {qrand : ℕ → ℕ} : ∀ {n : ℕ} {theList : List α},
    theList.length = n → (takeAtRandom qrand n theList).Perm theList := by
  intro n
  induction n with
  | zero =>
      intro theList hlength
      rw [List.length_eq_zero_iff.1 hlength]
      exact List.Perm.refl _
  | succ n ih =>
      intro theList hlength
      have hlt : qrand n % theList.length < theList.length := Nat.mod_lt _ (by omega)
      rw [takeAtRandom, List.getElem?_eq_getElem hlt]
      have hlength' : (theList.eraseIdx (qrand n % theList.length)).length = n := by
        rw [List.length_eraseIdx_of_lt hlt]
        omega
      exact ((ih hlength').cons _).trans (List.getElem_cons_eraseIdx_perm hlt)

lemma maybeShuffle_perm (settings : Settings) (qrand : ℕ → ℕ)
    (questions : List QuestionAndAnswer) :
    (maybeShuffle settings qrand questions).Perm questions := by
  rw [maybeShuffle]
  split_ifs
  · exact List.Perm.refl _
  · exact takeAtRandom_perm rfl

/-! ## The log, signal by signal -/

variable {settings : Settings} {questions ungraded unasked : List QuestionAndAnswer}
  {qa : QuestionAndAnswer} {st : MasteryHelper} {log : List Signal} {signal : Signal}
  {letter : Option LetterAndAnswer} {qrand : ℕ → ℕ}

/-- A grade that is not the last signal. -/
lemma exists_of_cons_eq {x : Signal} {later earlier : List Signal}
    (h : signal :: log = later ++ x :: earlier) (hne : signal ≠ x) :
    ∃ later', later = signal :: later' ∧ log = later' ++ x :: earlier := by
  rcases List.cons_eq_append_iff.1 h with ⟨-, heq⟩ | hlater
  · exact absurd (List.cons.inj heq).1.symm hne
  · exact hlater

lemma IsMastered.cons (h : IsMastered log qa)
    (hne : ∀ letter, signal ≠ .questionAnsweredGraded false qa letter) :
    IsMastered (signal :: log) qa := by
  obtain ⟨later, earlier, letter, rfl, hright⟩ := h
  refine ⟨signal :: later, earlier, letter, rfl, fun letter' hmem => ?_⟩
  rcases List.mem_cons.1 hmem with heq | hmem
  · exact hne letter' heq.symm
  · exact hright letter' hmem

/-- The letters that were graded were listed. -/
def LettersAreListed (log : List Signal) : Prop :=
  ∀ later earlier correct questionAndAnswer letter,
    log = later ++ .questionAnsweredGraded correct questionAndAnswer (some letter) :: earlier →
    askedLast earlier = some questionAndAnswer ∧
      ∃ choices, listedSinceAsked earlier = some choices ∧ letter ∈ choices

lemma lettersAreListed_cons_iff
    (hne : ∀ correct qa letter, signal ≠ .questionAnsweredGraded correct qa (some letter)) :
    LettersAreListed (signal :: log) ↔ LettersAreListed log := by
  constructor
  · rintro h later earlier correct qa letter rfl
    exact h (signal :: later) earlier correct qa letter rfl
  · intro h later earlier correct qa letter hlog
    obtain ⟨later', -, hlog⟩ := exists_of_cons_eq hlog (hne correct qa letter)
    exact h later' earlier correct qa letter hlog

lemma lettersAreListed_graded_none {correct : Bool} :
    LettersAreListed (.questionAnsweredGraded correct qa none :: log) ↔ LettersAreListed log :=
  lettersAreListed_cons_iff nofun

lemma lettersAreListed_graded_iff {correct : Bool} {letter : LetterAndAnswer} :
    LettersAreListed (.questionAnsweredGraded correct qa (some letter) :: log) ↔
      (askedLast log = some qa ∧
        ∃ choices, listedSinceAsked log = some choices ∧ letter ∈ choices) ∧
      LettersAreListed log := by
  constructor
  · intro h
    refine ⟨h [] log correct qa letter rfl, ?_⟩
    rintro later earlier correct' qa' letter' rfl
    exact h (_ :: later) earlier correct' qa' letter' rfl
  · rintro ⟨hlisted, h⟩ later earlier correct' qa' letter' hlog
    rcases List.cons_eq_append_iff.1 hlog with ⟨-, heq⟩ | ⟨later', -, hlog⟩
    · obtain ⟨hgraded, rfl⟩ := List.cons.inj heq
      obtain ⟨rfl, rfl, hletter⟩ := Signal.questionAnsweredGraded.inj hgraded
      obtain rfl := Option.some.inj hletter
      exact hlisted
    · exact h later' earlier correct' qa' letter' hlog

/-! ## Where a question is -/

/-- While a test is going on: `ungraded` are the questions of the round that are not graded yet,
and `unasked` those of them that were not asked. -/
structure InPlay (settings : Settings) (questions ungraded unasked : List QuestionAndAnswer)
    (st : MasteryHelper) : Prop where
  allQuestions : st.questionsAndAnswers.Perm questions
  atMost : st.questionsAndAnswersGotWrong.length + ungraded.length ≤ questions.length
  place : ∀ qa ∈ questions, qa ∈ st.questionsAndAnswersGotWrong ∨ qa ∈ ungraded ∨
    IsMastered st.log qa
  waits : ∀ later earlier qa letter,
    st.log = later ++ .questionAnsweredGraded false qa letter :: earlier →
    .questionAsked qa ∈ later ∨
    qa ∈ st.questionsAndAnswersGotWrong ∧
      gradings later + ungraded.length + 1 ≤ questions.length ∨
    qa ∈ unasked ∧ gradings later + ungraded.length + 1 ≤ 2 * questions.length
  pass : ∃ pass before, st.log = pass ++ before ∧ (before = [] ∨ before.head? = some .retaking) ∧
    (st.theyMissedAtLeastOneQuestion = false → st.questionsAndAnswersGotWrong = [] ∧
      (∀ qa ∈ questions, qa ∈ ungraded ∨
        ∃ letter, .questionAnsweredGraded true qa letter ∈ pass) ∧
      ∀ qa letter, .questionAnsweredGraded false qa letter ∉ pass)
  notFinished : .testingFinished ∉ st.log

namespace InPlay

variable {iterator : List QuestionAndAnswer}

/-- The next question is asked. -/
lemma ask (h : InPlay settings questions (qa :: iterator) (qa :: iterator) st) :
    InPlay settings questions (qa :: iterator) iterator (st.ask qa iterator) := by
  refine ⟨h.allQuestions, h.atMost, fun qa' hqa' => ?_, ?_, ?_, ?_⟩
  · exact (h.place qa' hqa').imp_right (Or.imp_right fun hmastered => hmastered.cons nofun)
  · intro later earlier qa' letter hlog
    obtain ⟨later, rfl, hrest⟩ := exists_of_cons_eq hlog nofun
    rcases h.waits later earlier qa' letter hrest with hasked | hwrong | ⟨hunasked, hfew⟩
    · exact .inl (List.mem_cons_of_mem _ hasked)
    · exact .inr (.inl hwrong)
    · rcases List.mem_cons.1 hunasked with rfl | hunasked
      · exact .inl List.mem_cons_self
      · exact .inr (.inr ⟨hunasked, hfew⟩)
  · obtain ⟨pass, before, hlog, hbefore, hclean⟩ := h.pass
    refine ⟨.questionAsked qa :: pass, before, congrArg (_ :: ·) hlog, hbefore, fun hmissed => ?_⟩
    obtain ⟨hwrong, hright, hnone⟩ := hclean hmissed
    refine ⟨hwrong, fun qa' hqa' => (hright qa' hqa').imp_right ?_, fun qa' letter hmem => ?_⟩
    · exact fun ⟨letter, hmem⟩ => ⟨letter, List.mem_cons_of_mem _ hmem⟩
    · exact (List.mem_cons.1 hmem).elim nofun (hnone qa' letter)
  · exact fun hmem => (List.mem_cons.1 hmem).elim nofun h.notFinished

/-- A question is graded right. -/
lemma gradeRight (h : InPlay settings questions (qa :: iterator) iterator st) :
    InPlay settings questions iterator iterator
      { st with log := .questionAnsweredGraded true qa letter :: st.log } := by
  have hatMost := h.atMost
  rw [List.length_cons] at hatMost
  refine ⟨h.allQuestions, ?_, fun qa' hqa' => ?_, ?_, ?_, ?_⟩
  · show st.questionsAndAnswersGotWrong.length + _ ≤ _
    omega
  · rcases h.place qa' hqa' with hwrong | hungraded | hmastered
    · exact .inl hwrong
    · rcases List.mem_cons.1 hungraded with rfl | hungraded
      · exact .inr (.inr ⟨[], st.log, letter, rfl, fun _ => List.not_mem_nil⟩)
      · exact .inr (.inl hungraded)
    · exact .inr (.inr (hmastered.cons nofun))
  · intro later earlier qa' letter' hlog
    obtain ⟨later, rfl, hrest⟩ := exists_of_cons_eq hlog nofun
    have hgradings : gradings (.questionAnsweredGraded true qa letter :: later) =
        gradings later + 1 := List.countP_cons_of_pos rfl
    rw [hgradings]
    rcases h.waits later earlier qa' letter' hrest with hasked | ⟨hwrong, hfew⟩ | ⟨hunasked, hfew⟩
    · exact .inl (List.mem_cons_of_mem _ hasked)
    · rw [List.length_cons] at hfew
      exact .inr (.inl ⟨hwrong, by omega⟩)
    · rw [List.length_cons] at hfew
      exact .inr (.inr ⟨hunasked, by omega⟩)
  · obtain ⟨pass, before, hlog, hbefore, hclean⟩ := h.pass
    refine ⟨.questionAnsweredGraded true qa letter :: pass, before, congrArg (_ :: ·) hlog,
      hbefore, fun hmissed => ?_⟩
    obtain ⟨hwrong, hright, hnone⟩ := hclean hmissed
    refine ⟨hwrong, fun qa' hqa' => ?_, fun qa' letter hmem => ?_⟩
    · rcases hright qa' hqa' with hungraded | ⟨letter', hmem⟩
      · rcases List.mem_cons.1 hungraded with rfl | hungraded
        · exact .inr ⟨letter, List.mem_cons_self⟩
        · exact .inl hungraded
      · exact .inr ⟨letter', List.mem_cons_of_mem _ hmem⟩
    · exact (List.mem_cons.1 hmem).elim nofun (hnone qa' letter)
  · exact fun hmem => (List.mem_cons.1 hmem).elim nofun h.notFinished

/-- A question is graded wrong, and is asked in the next round. -/
lemma gradeWrong (h : InPlay settings questions (qa :: iterator) iterator st) :
    InPlay settings questions iterator iterator
      { st with
        theyMissedAtLeastOneQuestion := true
        questionsAndAnswersGotWrong := st.questionsAndAnswersGotWrong ++ [qa]
        log := .questionAnsweredGraded false qa letter :: st.log } := by
  have hatMost := h.atMost
  rw [List.length_cons] at hatMost
  refine ⟨h.allQuestions, ?_, fun qa' hqa' => ?_, ?_, ?_, ?_⟩
  · show (st.questionsAndAnswersGotWrong ++ [qa]).length + _ ≤ _
    rw [List.length_append, List.length_singleton]
    omega
  · show qa' ∈ st.questionsAndAnswersGotWrong ++ [qa] ∨ _
    by_cases heq : qa' = qa
    · subst heq
      exact .inl (List.mem_append_right _ (List.mem_singleton_self _))
    · rcases h.place qa' hqa' with hwrong | hungraded | hmastered
      · exact .inl (List.mem_append_left _ hwrong)
      · exact .inr (.inl ((List.mem_cons.1 hungraded).resolve_left heq))
      · refine .inr (.inr (hmastered.cons fun letter' hsignal => heq ?_))
        exact (Signal.questionAnsweredGraded.inj hsignal).2.1.symm
  · intro later earlier qa' letter' hlog
    show _ ∨ qa' ∈ st.questionsAndAnswersGotWrong ++ [qa] ∧ _ ∨ _
    rcases List.cons_eq_append_iff.1 hlog with ⟨rfl, heq⟩ | ⟨later, rfl, hrest⟩
    · obtain ⟨hsignal, -⟩ := List.cons.inj heq
      obtain ⟨-, rfl, -⟩ := Signal.questionAnsweredGraded.inj hsignal
      have hnone : gradings [] = 0 := rfl
      exact .inr (.inl ⟨List.mem_append_right _ (List.mem_singleton_self _), by omega⟩)
    · have hgradings : gradings (.questionAnsweredGraded false qa letter :: later) =
          gradings later + 1 := List.countP_cons_of_pos rfl
      rw [hgradings]
      rcases h.waits later earlier qa' letter' hrest with
        hasked | ⟨hwrong, hfew⟩ | ⟨hunasked, hfew⟩
      · exact .inl (List.mem_cons_of_mem _ hasked)
      · rw [List.length_cons] at hfew
        exact .inr (.inl ⟨List.mem_append_left _ hwrong, by omega⟩)
      · rw [List.length_cons] at hfew
        exact .inr (.inr ⟨hunasked, by omega⟩)
  · obtain ⟨pass, before, hlog, hbefore, -⟩ := h.pass
    exact ⟨_ :: pass, before, congrArg (_ :: ·) hlog, hbefore, nofun⟩
  · exact fun hmem => (List.mem_cons.1 hmem).elim nofun h.notFinished

/-- The next round is about what was answered wrong. -/
lemma nextRound (h : InPlay settings questions [] [] st)
    (hwrong : st.questionsAndAnswersGotWrong ≠ []) :
    InPlay settings questions (st.nextRound settings qrand).iterator
      (st.nextRound settings qrand).iterator (st.nextRound settings qrand) := by
  have hperm : (st.nextRound settings qrand).iterator.Perm st.questionsAndAnswersGotWrong :=
    maybeShuffle_perm settings qrand _
  have hatMost := h.atMost
  rw [List.length_nil, Nat.add_zero] at hatMost
  have hlength := hperm.length_eq
  refine ⟨h.allQuestions, ?_, fun qa hqa => ?_, ?_, ?_, h.notFinished⟩
  · show 0 + _ ≤ _
    omega
  · rcases h.place qa hqa with hwrong | hungraded | hmastered
    · exact .inr (.inl (hperm.mem_iff.2 hwrong))
    · exact absurd hungraded List.not_mem_nil
    · exact .inr (.inr hmastered)
  · intro later earlier qa letter hlog
    rcases h.waits later earlier qa letter hlog with hasked | ⟨hwrong, hfew⟩ | ⟨hunasked, -⟩
    · exact .inl hasked
    · rw [List.length_nil] at hfew
      exact .inr (.inr ⟨hperm.mem_iff.2 hwrong, by omega⟩)
    · exact absurd hunasked List.not_mem_nil
  · obtain ⟨pass, before, hlog, hbefore, hclean⟩ := h.pass
    exact ⟨pass, before, hlog, hbefore, fun hmissed => absurd (hclean hmissed).1 hwrong⟩

/-- All was answered right, and the whole test is taken again. -/
lemma retake (h : InPlay settings questions [] [] st)
    (hwrong : st.questionsAndAnswersGotWrong = []) :
    InPlay settings questions (st.retake settings qrand).iterator
      (st.retake settings qrand).iterator (st.retake settings qrand) := by
  have hperm : (st.retake settings qrand).iterator.Perm questions :=
    (maybeShuffle_perm settings qrand _).trans h.allQuestions
  refine ⟨hperm, ?_, fun qa hqa => .inr (.inl (hperm.mem_iff.2 hqa)), ?_, ?_, ?_⟩
  · show st.questionsAndAnswersGotWrong.length + _ ≤ _
    rw [hwrong, hperm.length_eq]
    exact Nat.le_of_eq (Nat.zero_add _)
  · intro later earlier qa letter hlog
    obtain ⟨later, rfl, hrest⟩ := exists_of_cons_eq hlog nofun
    rcases h.waits later earlier qa letter hrest with hasked | ⟨hmem, -⟩ | ⟨hmem, -⟩
    · exact .inl (List.mem_cons_of_mem _ hasked)
    · exact absurd (hwrong ▸ hmem) List.not_mem_nil
    · exact absurd hmem List.not_mem_nil
  · refine ⟨[], .retaking :: st.log, rfl, .inr rfl, fun _ => ⟨hwrong, ?_, ?_⟩⟩
    · exact fun qa hqa => .inl (hperm.mem_iff.2 hqa)
    · exact fun _ _ => List.not_mem_nil
  · exact fun hmem => (List.mem_cons.1 hmem).elim nofun h.notFinished

end InPlay

/-! ## What is asked next -/

/-- A question is asked and not graded. -/
structure IsAsking (settings : Settings) (questions : List QuestionAndAnswer)
    (st : MasteryHelper) : Prop where
  inPlay : InPlay settings questions (st.currentQuestionAndAnswer :: st.iterator) st.iterator st
  asked : askedLast st.log = some st.currentQuestionAndAnswer
  choices : ∀ choices, listedSinceAsked st.log = some choices →
    st.currentMultipleChoiceLettersAndAnswers = choices

/-- The test is finished. -/
structure IsDone (settings : Settings) (questions : List QuestionAndAnswer)
    (st : MasteryHelper) : Prop where
  testingFinished : .testingFinished ∈ st.log
  ends : LettersAreListed st.log → EndsOnlyAtMastery settings questions st.log

lemma eq_of_finish {later earlier : List Signal} (hnot : .testingFinished ∉ log)
    (h : .testingFinished :: .gotThemAllRight :: log = later ++ .testingFinished :: earlier) :
    earlier = .gotThemAllRight :: log := by
  rcases List.cons_eq_append_iff.1 h with ⟨-, heq⟩ | ⟨later, -, h⟩
  · exact (List.cons.inj heq).2
  · obtain ⟨later, -, h⟩ := exists_of_cons_eq h nofun
    exact absurd (h ▸ List.mem_append_right later List.mem_cons_self) hnot

/-- Nothing is left when the test is finished. -/
lemma InPlay.finish (h : InPlay settings questions [] [] st)
    (hwrong : st.questionsAndAnswersGotWrong = [])
    (hpass : ¬ (settings.loopUntilMastered = true ∧ st.theyMissedAtLeastOneQuestion = true)) :
    IsDone settings questions st.finish := by
  refine ⟨List.mem_cons_self, fun hlisted => ⟨?_, ?_, ?_, hlisted⟩⟩
  · intro later earlier qa letter hlog
    obtain ⟨later, rfl, hbehind⟩ := exists_of_cons_eq hlog nofun
    obtain ⟨later, rfl, hrest⟩ := exists_of_cons_eq hbehind nofun
    rcases h.waits later earlier qa letter hrest with hasked | ⟨hmem, -⟩ | ⟨hmem, -⟩
    · exact .inl (List.mem_cons_of_mem _ (List.mem_cons_of_mem _ hasked))
    · exact absurd (hwrong ▸ hmem) List.not_mem_nil
    · exact absurd hmem List.not_mem_nil
  · intro later earlier hlog qa hqa
    rw [eq_of_finish h.notFinished hlog]
    rcases h.place qa hqa with hmem | hmem | hmastered
    · exact absurd (hwrong ▸ hmem) List.not_mem_nil
    · exact absurd hmem List.not_mem_nil
    · exact hmastered.cons nofun
  · intro hloop later earlier hlog
    rw [eq_of_finish h.notFinished hlog]
    obtain ⟨pass, before, hpassed, hbefore, hclean⟩ := h.pass
    obtain ⟨-, hright, hnone⟩ := hclean (Bool.eq_false_iff.2 fun hmissed => hpass ⟨hloop, hmissed⟩)
    refine ⟨.gotThemAllRight :: pass, before, congrArg (_ :: ·) hpassed, hbefore,
      fun qa hqa => ?_, fun qa letter hmem => ?_⟩
    · obtain ⟨letter, hmem⟩ := (hright qa hqa).resolve_left List.not_mem_nil
      exact ⟨letter, List.mem_cons_of_mem _ hmem⟩
    · exact (List.mem_cons.1 hmem).elim nofun (hnone qa letter)

/-- **What comes after a round, or within one**, is that a question is asked or the test is
finished. -/
lemma InPlay.askNextQuestion (st : MasteryHelper)
    (h : InPlay settings questions st.iterator st.iterator st) :
    IsAsking settings questions (askNextQuestionInSubjectMatterIoDevice settings qrand st) ∨
      IsDone settings questions (askNextQuestionInSubjectMatterIoDevice settings qrand st) := by
  fun_induction askNextQuestionInSubjectMatterIoDevice settings qrand st with
  | case1 st next iterator hiterator =>
      rw [hiterator] at h
      exact .inl ⟨h.ask, rfl, nofun⟩
  | case2 st hiterator hwrong hmissed ih =>
      rw [hiterator] at h
      exact ih (h.retake (List.length_eq_zero_iff.1 hwrong))
  | case3 st hiterator hwrong hmissed =>
      rw [hiterator] at h
      exact .inr (h.finish (List.length_eq_zero_iff.1 hwrong) hmissed)
  | case4 st hiterator hwrong ih =>
      rw [hiterator] at h
      exact ih (h.nextRound fun hnil => hwrong (List.length_eq_zero_iff.2 hnil))

/-- Asking grades no letter. -/
lemma lettersAreListed_askNextQuestion (st : MasteryHelper) :
    LettersAreListed (askNextQuestionInSubjectMatterIoDevice settings qrand st).log ↔
      LettersAreListed st.log := by
  fun_induction askNextQuestionInSubjectMatterIoDevice settings qrand st with
  | case1 st next iterator hiterator => exact lettersAreListed_cons_iff nofun
  | case2 st hiterator hwrong hmissed ih => exact ih.trans (lettersAreListed_cons_iff nofun)
  | case3 st hiterator hwrong hmissed =>
      have hfinished : LettersAreListed (.testingFinished :: .gotThemAllRight :: st.log) ↔
          LettersAreListed (.gotThemAllRight :: st.log) := lettersAreListed_cons_iff nofun
      exact hfinished.trans (lettersAreListed_cons_iff nofun)
  | case4 st hiterator hwrong ih => exact ih

/-- What a run keeps. -/
def IsSound (settings : Settings) (questions : List QuestionAndAnswer) (st : MasteryHelper) :
    Prop :=
  IsAsking settings questions st ∨ IsDone settings questions st

/-- While a question is asked, only a letter can be amiss. -/
lemma IsAsking.ends_iff_lettersAreListed (h : IsAsking settings questions st) :
    EndsOnlyAtMastery settings questions st.log ↔ LettersAreListed st.log := by
  refine ⟨fun hends => hends.listed, fun hlisted => ⟨?_, ?_, ?_, hlisted⟩⟩
  · rintro later earlier qa letter hlog
    have hnot : .testingFinished ∉ later := fun hmem =>
      h.inPlay.notFinished (hlog ▸ List.mem_append_left _ hmem)
    rcases h.inPlay.waits later earlier qa letter hlog with hasked | ⟨-, hfew⟩ | ⟨-, hfew⟩
    · exact .inl hasked
    · exact .inr ⟨hnot, by omega⟩
    · exact .inr ⟨hnot, by omega⟩
  · intro later earlier hlog
    exact absurd (hlog ▸ List.mem_append_right later List.mem_cons_self) h.inPlay.notFinished
  · intro _ later earlier hlog
    exact absurd (hlog ▸ List.mem_append_right later List.mem_cons_self) h.inPlay.notFinished

lemma IsSound.ends_iff_lettersAreListed (h : IsSound settings questions st) :
    EndsOnlyAtMastery settings questions st.log ↔ LettersAreListed st.log := by
  rcases h with hasking | hdone
  · exact hasking.ends_iff_lettersAreListed
  · exact ⟨fun hends => hends.listed, hdone.ends⟩

/-! ## One answer attempt -/

variable {x : AnswerAttempt} {answer : QString.Text}

lemma IsAsking.grade (h : IsAsking settings questions st) :
    IsSound settings questions (st.grade settings qrand answer letter) := by
  unfold MasteryHelper.grade
  by_cases hright : answer = st.currentQuestionAndAnswer.answer
  · rw [if_pos hright]
    exact InPlay.askNextQuestion _ h.inPlay.gradeRight
  · rw [if_neg hright]
    exact InPlay.askNextQuestion _ h.inPlay.gradeWrong

lemma lettersAreListed_grade : LettersAreListed (st.grade settings qrand answer letter).log ↔
    LettersAreListed (.questionAnsweredGraded (answer = st.currentQuestionAndAnswer.answer)
      st.currentQuestionAndAnswer letter :: st.log) := by
  unfold MasteryHelper.grade
  rw [lettersAreListed_askNextQuestion]
  by_cases hright : answer = st.currentQuestionAndAnswer.answer
  · rw [if_pos hright, decide_eq_true hright]
  · rw [if_neg hright, decide_eq_false hright]

lemma mem_of_value_ne_nil {choices : List LetterAndAnswer} {c : Char}
    (h : value choices c ≠ []) : (c, value choices c) ∈ choices := by
  unfold value at h ⊢
  cases hfound : choices.find? (·.1 = c) with
  | none =>
      rw [hfound] at h
      exact absurd rfl h
  | some found =>
      have hc : found.1 = c := by simpa using List.find?_some hfound
      rw [← hc]
      exact List.mem_of_find?_eq_some hfound

/-- A letter of the choices is entered before choices were listed for the question.  The letters are
members of the program, and survive the question that they were listed for. -/
def EntersStaleLetter (settings : Settings) (st : MasteryHelper) (x : AnswerAttempt) : Prop :=
  settings.answersTooLongUseMultipleChoice = true ∧ listedSinceAsked st.log = none ∧
    ∃ c, settings.toLower x.answerAttempt = [c] ∧
      value st.currentMultipleChoiceLettersAndAnswers (toLatin1 c) ≠ []

/-- Before an attempt, a log that has one more signal, which is no grade. -/
lemma IsAsking.log_cons (h : IsAsking settings questions st) {choices : List LetterAndAnswer}
    (hsignal : signal = .invalidMultipleChoiceSelection ∧
      choices = st.currentMultipleChoiceLettersAndAnswers ∨
      signal = .multipleChoiceAnswers choices) :
    IsAsking settings questions { st with
      currentMultipleChoiceLettersAndAnswers := choices
      log := signal :: st.log } ∧
      (LettersAreListed (signal :: st.log) ↔ LettersAreListed st.log) := by
  have hgraded : ∀ correct qa letter, signal ≠ .questionAnsweredGraded correct qa letter := by
    rintro correct qa letter rfl
    rcases hsignal with ⟨h, -⟩ | h <;> exact absurd h nofun
  have hasked : ∀ qa, signal ≠ .questionAsked qa := by
    rintro qa rfl
    rcases hsignal with ⟨h, -⟩ | h <;> exact absurd h nofun
  have hfinished : signal ≠ .testingFinished := by
    rintro rfl
    rcases hsignal with ⟨h, -⟩ | h <;> exact absurd h nofun
  refine ⟨⟨⟨h.inPlay.allQuestions, h.inPlay.atMost, ?_, ?_, ?_, ?_⟩, ?_, ?_⟩,
    lettersAreListed_cons_iff fun correct qa letter => hgraded correct qa (some letter)⟩
  · intro qa hqa
    exact (h.inPlay.place qa hqa).imp_right (Or.imp_right fun hmastered =>
      hmastered.cons fun letter => hgraded false qa letter)
  · intro later earlier qa letter hlog
    obtain ⟨later, rfl, hrest⟩ := exists_of_cons_eq hlog (hgraded false qa letter)
    have hgradings : gradings (signal :: later) = gradings later := by
      rcases hsignal with ⟨rfl, -⟩ | rfl <;> exact List.countP_cons_of_neg nofun
    rw [hgradings]
    exact (h.inPlay.waits later earlier qa letter hrest).imp_left (List.mem_cons_of_mem _)
  · obtain ⟨pass, before, hlog, hbefore, hclean⟩ := h.inPlay.pass
    refine ⟨signal :: pass, before, congrArg (_ :: ·) hlog, hbefore, fun hmissed => ?_⟩
    obtain ⟨hwrong, hright, hnone⟩ := hclean hmissed
    refine ⟨hwrong, fun qa hqa => (hright qa hqa).imp_right ?_, fun qa letter hmem => ?_⟩
    · exact fun ⟨letter, hmem⟩ => ⟨letter, List.mem_cons_of_mem _ hmem⟩
    · exact (List.mem_cons.1 hmem).elim (fun heq => hgraded false qa letter heq.symm)
        (hnone qa letter)
  · exact fun hmem => (List.mem_cons.1 hmem).elim (fun heq => hfinished heq.symm)
      h.inPlay.notFinished
  · rcases hsignal with ⟨rfl, -⟩ | rfl <;> exact h.asked
  · intro choices' hchoices'
    rcases hsignal with ⟨rfl, rfl⟩ | rfl
    · exact h.choices choices' hchoices'
    · exact Option.some.inj hchoices'

/-- **What one answer attempt does.** -/
lemma IsAsking.questionAnswered (h : IsAsking settings questions st) (x : AnswerAttempt) :
    IsSound settings questions (questionAnswered settings st x) ∧
      (LettersAreListed (questionAnswered settings st x).log ↔
        LettersAreListed st.log ∧ ¬ EntersStaleLetter settings st x) := by
  unfold MasteryHelper.questionAnswered
  by_cases hmode : settings.answersTooLongUseMultipleChoice = true
  · rw [if_pos hmode]
    cases hlower : settings.toLower x.answerAttempt with
    | nil =>
        have hfresh : ¬ EntersStaleLetter settings st x := by
          rintro ⟨-, -, c, hc, -⟩
          exact absurd (hlower.symm.trans hc) nofun
        obtain ⟨hasking, hlisted⟩ := h.log_cons (.inr rfl)
        exact ⟨.inl hasking, hlisted.trans (and_iff_left hfresh).symm⟩
    | cons c more =>
        show IsSound settings questions (if _ then _ else _) ∧
          (LettersAreListed (MasteryHelper.log (if _ then _ else _)) ↔ _)
        by_cases hinvalid : more.length + 1 ≠ 1 ∨
            (value st.currentMultipleChoiceLettersAndAnswers (toLatin1 c)).isEmpty = true
        · have hfresh : ¬ EntersStaleLetter settings st x := by
            rintro ⟨-, -, c', hc', hvalue⟩
            obtain ⟨rfl, rfl⟩ := List.cons.inj (hlower.symm.trans hc')
            rcases hinvalid with hlong | hempty
            · exact hlong rfl
            · exact hvalue (List.isEmpty_iff.1 hempty)
          obtain ⟨hasking, hlisted⟩ := h.log_cons (.inl ⟨rfl, rfl⟩)
          rw [if_pos hinvalid]
          exact ⟨.inl hasking, hlisted.trans (and_iff_left hfresh).symm⟩
        · rw [if_neg hinvalid, lettersAreListed_grade, lettersAreListed_graded_iff]
          refine ⟨h.grade, ?_⟩
          rw [not_or, not_not] at hinvalid
          obtain ⟨hone, hvalue⟩ := hinvalid
          have hvalue : value st.currentMultipleChoiceLettersAndAnswers (toLatin1 c) ≠ [] :=
            fun hnil => hvalue (List.isEmpty_iff.2 hnil)
          have hmore : more = [] := List.length_eq_zero_iff.1 (by omega)
          rw [and_comm]
          refine and_congr_right fun _ => ?_
          constructor
          · rintro ⟨-, choices, hlisted, -⟩ ⟨-, hnone, -⟩
            exact absurd (hnone.symm.trans hlisted) nofun
          · intro hfresh
            refine ⟨h.asked, ?_⟩
            cases hlisted : listedSinceAsked st.log with
            | none => exact absurd ⟨hmode, hlisted, c, hmore ▸ hlower, hvalue⟩ hfresh
            | some choices =>
                refine ⟨choices, rfl, ?_⟩
                have hmem := mem_of_value_ne_nil hvalue
                rw [h.choices choices hlisted] at hmem ⊢
                exact hmem
  · have hfresh : ¬ EntersStaleLetter settings st x := fun hstale => hmode hstale.1
    rw [if_neg hmode]
    by_cases hempty : (settings.toLower x.answerAttempt).isEmpty = true
    · rw [if_pos hempty]
      exact ⟨.inl h, (and_iff_left hfresh).symm⟩
    · rw [if_neg hempty, lettersAreListed_grade]
      exact ⟨h.grade, lettersAreListed_graded_none.trans (and_iff_left hfresh).symm⟩

/-! ## A whole test -/

/-- A test of a file, with what is entered until the test is finished. -/
structure TestRun where
  settings : Settings
  lines : List QString.Text
  questions : List QuestionAndAnswer
  questions_eq : readAllQuestions settings.toLower lines = some questions
  qrand : ℕ → ℕ
  attempts : List AnswerAttempt
  beforeFinished : Machine.StaysWithin (questionAnswered settings)
    (fun st _ => .testingFinished ∉ st.log) (start settings qrand questions) attempts

/-- When the test begins, all questions are to be asked. -/
lemma isSound_start (settings : Settings) (qrand : ℕ → ℕ) (questions : List QuestionAndAnswer) :
    IsSound settings questions (start settings qrand questions) ∧
      LettersAreListed (start settings qrand questions).log := by
  have hperm := maybeShuffle_perm settings qrand questions
  refine ⟨InPlay.askNextQuestion _ ⟨hperm, ?_, fun qa hqa => .inr (.inl (hperm.mem_iff.2 hqa)),
    fun later earlier qa letter hlog => ?_, ?_, List.not_mem_nil⟩, ?_⟩
  · show 0 + (maybeShuffle settings qrand questions).length ≤ _
    rw [hperm.length_eq, Nat.zero_add]
  · exact absurd hlog (List.append_ne_nil_of_right_ne_nil later (List.cons_ne_nil _ _)).symm
  · exact ⟨[], [], rfl, .inl rfl, fun _ => ⟨rfl, fun qa hqa => .inl (hperm.mem_iff.2 hqa),
      fun _ _ => List.not_mem_nil⟩⟩
  · refine (lettersAreListed_askNextQuestion _).2 fun later earlier correct qa letter hlog => ?_
    exact absurd hlog (List.append_ne_nil_of_right_ne_nil later (List.cons_ne_nil _ _)).symm

/-- **The test ends only at mastery if and only if** no letter of the choices is entered before
choices were listed for the question.

Mastery is read off the log of what was asked and graded, and not off the members of the program.  A
stale letter can grade a question right whose choices were never listed, so the condition is about
the attempt and the state in front of it. -/
theorem endsOnlyAtMastery_iff (t : TestRun) :
    Machine.HoldsThroughout (questionAnswered t.settings)
        (fun st => EndsOnlyAtMastery t.settings t.questions st.log)
        (start t.settings t.qrand t.questions) t.attempts ↔
      Machine.StaysWithin (questionAnswered t.settings)
        (fun st x => ¬ EntersStaleLetter t.settings st x)
        (start t.settings t.qrand t.questions) t.attempts := by
  have hasking : ∀ st, IsSound t.settings t.questions st → .testingFinished ∉ st.log →
      IsAsking t.settings t.questions st :=
    fun st hsound hnot => hsound.resolve_right fun hdone => hnot hdone.testingFinished
  obtain ⟨hstart, hlisted⟩ := isSound_start t.settings t.qrand t.questions
  refine Machine.holdsThroughout_iff_of_staysWithin (I := IsSound t.settings t.questions)
    ?_ ?_ t.beforeFinished hstart (hstart.ends_iff_lettersAreListed.2 hlisted)
  · intro st x hnot hsound _ _
    exact ((hasking st hsound hnot).questionAnswered x).1
  · intro st x hnot hsound hends
    obtain ⟨hnext, hiff⟩ := (hasking st hsound hnot).questionAnswered x
    rw [hnext.ends_iff_lettersAreListed, hiff]
    exact and_iff_right hends.listed

/-! ## A stale letter -/

/-- The first answer that is not chosen yet. -/
def firstWrongAnswers : WrongAnswers where
  candidate answers chosen := (answers.find? (· ∉ chosen)).getD []
  candidate_new answers chosen h := by
    obtain ⟨answer, hanswer, hnew⟩ := h
    cases hfound : answers.find? (· ∉ chosen) with
    | none => exact absurd (List.find?_eq_none.1 hfound answer hanswer) (by simpa using hnew)
    | some found =>
        have hnot := List.find?_some hfound
        exact ⟨List.mem_of_find?_eq_some hfound, by simpa using hnot⟩

def enter (answerAttempt : String) : AnswerAttempt :=
  ⟨answerAttempt.toList, fun _ => 0, firstWrongAnswers⟩

/-- Multiple choice, in the order of the file. -/
def capitals : Settings := ⟨true, true, false, id⟩

def capitalLines : List QString.Text :=
  ["France?".toList, "paris".toList, "Italy?".toList, "rome".toList, "Spain?".toList,
    "madrid".toList]

def capitalQuestions : List QuestionAndAnswer :=
  [⟨"France?".toList, "paris".toList⟩, ⟨"Italy?".toList, "rome".toList⟩,
    ⟨"Spain?".toList, "madrid".toList⟩]

/-- The choices for France are listed, and `a` is entered for France and then for Italy. -/
theorem not_endsOnlyAtMastery_staleLetter : ¬ ∀ t : TestRun,
    Machine.HoldsThroughout (questionAnswered t.settings)
      (fun st => EndsOnlyAtMastery t.settings t.questions st.log)
      (start t.settings t.qrand t.questions) t.attempts := by
  intro h
  have hbefore : Machine.StaysWithin (questionAnswered capitals)
      (fun st _ => .testingFinished ∉ st.log) (start capitals (fun _ => 0) capitalQuestions)
      [enter "", enter "a", enter "a"] := by
    decide +kernel
  have hends := (h ⟨capitals, capitalLines, capitalQuestions, rfl, fun _ => 0, _, hbefore⟩).run
  have hlog : (Machine.run (questionAnswered capitals)
      (start capitals (fun _ => 0) capitalQuestions) [enter "", enter "a", enter "a"]).log =
      [.questionAsked ⟨"Spain?".toList, "madrid".toList⟩] ++
        .questionAnsweredGraded false ⟨"Italy?".toList, "rome".toList⟩
          (some ('a', "paris".toList)) ::
        [.questionAsked ⟨"Italy?".toList, "rome".toList⟩,
          .questionAnsweredGraded true ⟨"France?".toList, "paris".toList⟩
            (some ('a', "paris".toList)),
          .multipleChoiceAnswers [('a', "paris".toList), ('b', "rome".toList),
            ('c', "madrid".toList)],
          .questionAsked ⟨"France?".toList, "paris".toList⟩] := by
    decide +kernel
  obtain ⟨-, choices, hlisted, -⟩ := hends.listed _ _ _ _ _ hlog
  exact absurd hlisted nofun

end Autobackup.SubjectMatterMastery
