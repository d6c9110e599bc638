import Autobackup.Foundation.Machine
import Autobackup.Foundation.QString
import Mathlib.Data.List.Dedup
import Mathlib.Data.List.Perm.Basic

/-!
# The test of the subject matter mastery helper

The questions are asked in rounds.  What was answered wrong in a round is asked in the next one,
and a question that was answered right is done.  When all are done, the whole test is taken again
if it is to be looped until nothing is missed.

With multiple choice, an empty attempt lists the choices, and a letter stands for one of them.
-/

namespace Autobackup.SubjectMatterMastery

open QString

structure QuestionAndAnswer where
  question : Text
  answer : Text
  deriving DecidableEq

/-- What was passed to `startSubjectMatterMasteryHelper`. -/
structure Settings where
  answersTooLongUseMultipleChoice : Bool
  dontRandomize : Bool
  loopUntilMastered : Bool
  /-- `QString::toLower` -/
  toLower : Text → Text

/-- `readAllQuestionsFromSubjectMatterIoDevice...`, of the lines; `none` is a question without an
answer. -/
def readAllQuestions (toLower : Text → Text) : List Text → Option (List QuestionAndAnswer)
  | [] => some []
  -- the last line is a question without an answer
  | [currentQuestion] => if currentQuestion.isEmpty then some [] else none
  | currentQuestion :: line :: lines =>
      if currentQuestion.isEmpty then readAllQuestions toLower (line :: lines)
      else
        let currentAnswer := toLower line
        if currentAnswer.isEmpty then none
        else (readAllQuestions toLower lines).map (⟨currentQuestion, currentAnswer⟩ :: ·)

/-! ## Random choices -/

/-- The next `n` of a list, each taken out at a random position. -/
def takeAtRandom {α : Type} (qrand : ℕ → ℕ) : ℕ → List α → List α
  | 0, _ => []
  | n + 1, theList =>
      match theList[qrand n % theList.length]? with
      | some a => a :: takeAtRandom qrand n (theList.eraseIdx (qrand n % theList.length))
      | none => []

def shuffleList {α : Type} (qrand : ℕ → ℕ) (theList : List α) : List α :=
  takeAtRandom qrand theList.length theList

/-- The candidate that the loop over wrong answers ends with: some answer that is not chosen yet. -/
structure WrongAnswers where
  candidate : List Text → List Text → Text
  candidate_new : ∀ answers chosen, (∃ answer ∈ answers, answer ∉ chosen) →
    candidate answers chosen ∈ answers ∧ candidate answers chosen ∉ chosen

/-- What the user enters, and what comes out of the random choices then. -/
structure AnswerAttempt where
  answerAttempt : Text
  qrand : ℕ → ℕ
  wrongAnswers : WrongAnswers

/-! ## What the user sees -/

/-- A letter and the answer it stands for. -/
abbrev LetterAndAnswer := Char × Text

inductive Signal where
  | questionAsked (questionAndAnswer : QuestionAndAnswer)
  | multipleChoiceAnswers (choices : List LetterAndAnswer)
  | invalidMultipleChoiceSelection
  /-- `questionAnsweredGraded`, with the question and, where a letter was graded, what it stood
  for. -/
  | questionAnsweredGraded (correct : Bool) (questionAndAnswer : QuestionAndAnswer)
      (letter : Option LetterAndAnswer)
  | retaking
  | gotThemAllRight
  | testingFinished
  deriving DecidableEq

structure MasteryHelper where
  questionsAndAnswers : List QuestionAndAnswer
  /-- What the iterator has not come to. -/
  iterator : List QuestionAndAnswer
  currentQuestionAndAnswer : QuestionAndAnswer
  questionsAndAnswersGotWrong : List QuestionAndAnswer
  currentMultipleChoiceLettersAndAnswers : List LetterAndAnswer
  answersDeduplicated : List Text
  theyMissedAtLeastOneQuestion : Bool
  /-- The signals, the last one first. -/
  log : List Signal

namespace MasteryHelper

variable (settings : Settings)

def maybeShuffle (qrand : ℕ → ℕ) (questions : List QuestionAndAnswer) : List QuestionAndAnswer :=
  if settings.dontRandomize then questions else shuffleList qrand questions

def ask (st : MasteryHelper) (next : QuestionAndAnswer) (iterator : List QuestionAndAnswer) :
    MasteryHelper :=
  { st with
    iterator := iterator
    currentQuestionAndAnswer := next
    log := .questionAsked next :: st.log }

/-- The whole test is taken again. -/
def retake (qrand : ℕ → ℕ) (st : MasteryHelper) : MasteryHelper :=
  let questionsAndAnswers := maybeShuffle settings qrand st.questionsAndAnswers
  { st with
    questionsAndAnswers := questionsAndAnswers
    iterator := questionsAndAnswers
    theyMissedAtLeastOneQuestion := false
    log := .retaking :: st.log }

def finish (st : MasteryHelper) : MasteryHelper :=
  { st with log := .testingFinished :: .gotThemAllRight :: st.log }

/-- The next round is about what was answered wrong. -/
def nextRound (qrand : ℕ → ℕ) (st : MasteryHelper) : MasteryHelper :=
  { st with
    iterator := maybeShuffle settings qrand st.questionsAndAnswersGotWrong
    questionsAndAnswersGotWrong := [] }

def askNextQuestionInSubjectMatterIoDevice (qrand : ℕ → ℕ) (st : MasteryHelper) : MasteryHelper :=
  match st.iterator with
  | next :: iterator => st.ask next iterator
  | [] =>
      if st.questionsAndAnswersGotWrong.length = 0 then
        -- all of them were answered by now, and the test starts again from its first question
        if settings.loopUntilMastered = true ∧ st.theyMissedAtLeastOneQuestion = true then
          askNextQuestionInSubjectMatterIoDevice qrand (st.retake settings qrand)
        else st.finish
      else askNextQuestionInSubjectMatterIoDevice qrand (st.nextRound settings qrand)
termination_by st.questionsAndAnswersGotWrong.length + st.theyMissedAtLeastOneQuestion.toNat
decreasing_by
  · next hmissed =>
      show st.questionsAndAnswersGotWrong.length + false.toNat < _
      rw [hmissed.2]
      exact Nat.lt_succ_self _
  · show 0 + st.theyMissedAtLeastOneQuestion.toNat < _
    omega

/-- Of the file, all questions are read. -/
def start (qrand : ℕ → ℕ) (questions : List QuestionAndAnswer) : MasteryHelper :=
  let questionsAndAnswers := maybeShuffle settings qrand questions
  askNextQuestionInSubjectMatterIoDevice settings (fun n => qrand (questions.length + n))
    { questionsAndAnswers := questionsAndAnswers
      iterator := questionsAndAnswers
      currentQuestionAndAnswer := ⟨[], []⟩
      questionsAndAnswersGotWrong := []
      currentMultipleChoiceLettersAndAnswers := []
      answersDeduplicated := (questions.map QuestionAndAnswer.answer).dedup
      theyMissedAtLeastOneQuestion := false
      log := [] }

def numMultipleChoiceAnswers (answersDeduplicated : List Text) : ℕ :=
  min answersDeduplicated.length 4

/-- Wrong answers are appended until there are enough. -/
def appendWrongAnswers (wrongAnswers : WrongAnswers) (answers : List Text) :
    ℕ → List Text → List Text
  | 0, chosen => chosen
  | n + 1, chosen =>
      appendWrongAnswers wrongAnswers answers n (chosen ++ [wrongAnswers.candidate answers chosen])

/-- The letters from `a` on. -/
def lettersFrom (x : ℕ) : List Text → List LetterAndAnswer
  | [] => []
  | answer :: answers => (Char.ofNat x, answer) :: lettersFrom (x + 1) answers

def listMultipleChoiceAnswers (x : AnswerAttempt) (st : MasteryHelper) : MasteryHelper :=
  let multipleChoiceAnswers := shuffleList x.qrand (appendWrongAnswers x.wrongAnswers
    st.answersDeduplicated (numMultipleChoiceAnswers st.answersDeduplicated - 1)
    [st.currentQuestionAndAnswer.answer])
  let choices := lettersFrom 'a'.toNat multipleChoiceAnswers
  { st with
    currentMultipleChoiceLettersAndAnswers := choices
    log := .multipleChoiceAnswers choices :: st.log }

/-- `QMap::value`, which gives an empty text for a letter that is not there. -/
def value (choices : List LetterAndAnswer) (letter : Char) : Text :=
  ((choices.find? (·.1 = letter)).map Prod.snd).getD []

/-- `QChar::toLatin1` -/
def toLatin1 (c : Char) : Char := if c.toNat ≤ 255 then c else Char.ofNat 0

/-- The answer is graded, which goes on with the next question. -/
def grade (qrand : ℕ → ℕ) (st : MasteryHelper) (answerAttemptLowercase : Text)
    (letter : Option LetterAndAnswer) : MasteryHelper :=
  let graded :=
    if answerAttemptLowercase = st.currentQuestionAndAnswer.answer then
      { st with log := .questionAnsweredGraded true st.currentQuestionAndAnswer letter :: st.log }
    else
      { st with
        theyMissedAtLeastOneQuestion := true
        questionsAndAnswersGotWrong :=
          st.questionsAndAnswersGotWrong ++ [st.currentQuestionAndAnswer]
        log := .questionAnsweredGraded false st.currentQuestionAndAnswer letter :: st.log }
  askNextQuestionInSubjectMatterIoDevice settings qrand graded

def questionAnswered (st : MasteryHelper) (x : AnswerAttempt) : MasteryHelper :=
  let answerAttemptLowercase := settings.toLower x.answerAttempt
  if settings.answersTooLongUseMultipleChoice then
    match answerAttemptLowercase with
    | [] => st.listMultipleChoiceAnswers x
    | c :: more =>
        let longAnswer := value st.currentMultipleChoiceLettersAndAnswers (toLatin1 c)
        -- not a letter that was listed; the question stays
        if more.length + 1 ≠ 1 ∨ longAnswer.isEmpty then
          { st with log := .invalidMultipleChoiceSelection :: st.log }
        else grade settings x.qrand st longAnswer (some (toLatin1 c, longAnswer))
  else if answerAttemptLowercase.isEmpty then st
  else grade settings x.qrand st answerAttemptLowercase none

end MasteryHelper

/-! ## What it is for -/

def gradings (log : List Signal) : ℕ := log.countP fun signal =>
  match signal with
  | .questionAnsweredGraded _ _ _ => true
  | _ => false

/-- The question that was asked last. -/
def askedLast : List Signal → Option QuestionAndAnswer
  | [] => none
  | .questionAsked questionAndAnswer :: _ => some questionAndAnswer
  | _ :: earlier => askedLast earlier

/-- The choices that were listed last since a question was asked. -/
def listedSinceAsked : List Signal → Option (List LetterAndAnswer)
  | [] => none
  | .questionAsked _ :: _ => none
  | .multipleChoiceAnswers choices :: _ => some choices
  | _ :: earlier => listedSinceAsked earlier

/-- The last grade of a question is that it was correct. -/
def IsMastered (log : List Signal) (questionAndAnswer : QuestionAndAnswer) : Prop :=
  ∃ later earlier letter,
    log = later ++ .questionAnsweredGraded true questionAndAnswer letter :: earlier ∧
    ∀ letter', .questionAnsweredGraded false questionAndAnswer letter' ∉ later

/-- A pass over all questions without a miss, from the beginning or from a retake on. -/
def EndsWithCleanPass (questions : List QuestionAndAnswer) (log : List Signal) : Prop :=
  ∃ pass before, log = pass ++ before ∧ (before = [] ∨ before.head? = some .retaking) ∧
    (∀ questionAndAnswer ∈ questions,
      ∃ letter, .questionAnsweredGraded true questionAndAnswer letter ∈ pass) ∧
    ∀ questionAndAnswer letter, .questionAnsweredGraded false questionAndAnswer letter ∉ pass

/-- **The test ends only at mastery.** -/
structure EndsOnlyAtMastery (settings : Settings) (questions : List QuestionAndAnswer)
    (log : List Signal) : Prop where
  /-- A question graded wrong is asked again, before it is finished and before there were twice as
  many gradings as there are questions. -/
  askedAgain : ∀ later earlier questionAndAnswer letter,
    log = later ++ .questionAnsweredGraded false questionAndAnswer letter :: earlier →
    .questionAsked questionAndAnswer ∈ later ∨
      .testingFinished ∉ later ∧ gradings later < 2 * questions.length
  mastered : ∀ later earlier, log = later ++ .testingFinished :: earlier →
    ∀ questionAndAnswer ∈ questions, IsMastered earlier questionAndAnswer
  cleanPass : settings.loopUntilMastered = true → ∀ later earlier,
    log = later ++ .testingFinished :: earlier → EndsWithCleanPass questions earlier
  /-- A letter is graded against choices that were listed for the question. -/
  listed : ∀ later earlier correct questionAndAnswer letter,
    log = later ++ .questionAnsweredGraded correct questionAndAnswer (some letter) :: earlier →
    askedLast earlier = some questionAndAnswer ∧
      ∃ choices, listedSinceAsked earlier = some choices ∧ letter ∈ choices

end Autobackup.SubjectMatterMastery
