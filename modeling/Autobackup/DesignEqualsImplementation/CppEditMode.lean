import Autobackup.Foundation.QListInsert
import Autobackup.Foundation.TextLines
import Autobackup.Foundation.TextParts

/-!
# C++ edit mode

The sources of the classes are generated with a pair of delimiting comments in each gap: in front of
every statement of a slot and behind the last one.  What the user writes in a gap is imported as a
chunk of raw C++.  The comments say where the gap is.  Chunks that were imported before it in the
same slot have moved it, and `rollingStatementOffset` counts them.

Only what the sources have to do with slots is spelled out; what comes in front of them is given.  A
source is found again by its file name, the lower-cased name of its class.  So nothing else is to be
generated under it: no two classes have the same, and it is taken for granted that no data type of
the project has the name of a class either.
-/

namespace Autobackup.DesignEqualsImplementation

open QString

inductive SlotStatement
  | statement (toRawCppWithoutEndingSemicolon : Text)
  | chunkOfRawCppStatements (rawCppStatements : List Text)
  deriving DecidableEq

def SlotStatement.toRawCpp : SlotStatement → Text
  | .statement rawCpp => rawCpp ++ [';']
  | .chunkOfRawCppStatements rawCppStatements => joinLines rawCppStatements

structure ClassSlot where
  methodSignatureWithoutReturnType : Text
  orderedListOfStatements : List SlotStatement
  /-- The emission, as C++. -/
  finishedOrExitSignal : Option Text
  deriving DecidableEq

structure DesignClass where
  name : Text
  /-- The includes, the constructor with its connect statements, the destructor, the getters and the
  setters. -/
  linesInFrontOfSlots : List Text
  mySlots : List ClassSlot
  deriving DecidableEq

def DesignClass.sourceFilenameOnly (c : DesignClass) : Text :=
  c.name.map Char.toLower ++ ".cpp".toList

/-! ## Generating -/

def tab : Text := ['\t']

def beginChunkOfRawCppStatements : Text := "BEGIN CHUNK OF RAW CPP STATEMENTS]".toList

def endChunkOfRawCppStatements : Text := "END CHUNK OF RAW CPP STATEMENTS]".toList

def chunkOfRawCppGoesHereHelperComment : Text := "//====CHUNK OF RAW CPP GOES HERE====".toList

/-- What is in a gap when it is generated. -/
def generatedGap : List Text := [[], [], tab ++ chunkOfRawCppGoesHereHelperComment, [], [], []]

def openingComments (className : Text) (slotIndex statementInsertIndex : ℕ) : List Text :=
  [tab ++ "//[".toList ++ beginChunkOfRawCppStatements,
    tab ++ "//DO NOT WRITE C++ ABOVE THESE COMMENTS".toList,
    tab ++ "//".toList,
    tab ++ "//Class: ".toList ++ className,
    tab ++ "//SlotIndex: ".toList ++ number slotIndex,
    tab ++ "//StatementInsertIndex: ".toList ++ number statementInsertIndex,
    tab ++ "//".toList,
    tab ++ "//YOU MAY WRITE C++ BELOW THESE COMMENTS".toList,
    tab ++ "//[/".toList ++ beginChunkOfRawCppStatements]

def closingComments : List Text :=
  [tab ++ "//[".toList ++ endChunkOfRawCppStatements,
    tab ++ "//YOU MAY WRITE C++ ABOVE THESE COMMENTS".toList,
    tab ++ "//DO NOT WRITE C++ BELOW THESE COMMENTS".toList,
    tab ++ "//[/".toList ++ endChunkOfRawCppStatements]

/-- `writePairOfDelimitedCommentsInBetweenWhichAchunkOfRawCppStatementsCanBeWritten`, with what is
in between. -/
def pairOfDelimitedComments (className : Text) (slotIndex statementInsertIndex : ℕ)
    (gap : List Text) : List Text :=
  openingComments className slotIndex statementInsertIndex ++ gap ++ closingComments

/-- The statements from an index on, and the gaps. -/
def linesOfStatements (className : Text) (slotIndex : ℕ) (gaps : ℕ → List Text) :
    ℕ → List SlotStatement → List Text
  | i, [] => pairOfDelimitedComments className slotIndex i (gaps i)
  | i, statement :: rest =>
      pairOfDelimitedComments className slotIndex i (gaps i) ++
        [[], tab ++ statement.toRawCpp, []] ++
        linesOfStatements className slotIndex gaps (i + 1) rest

def linesOfSlot (className : Text) (slotIndex : ℕ) (gaps : ℕ → List Text) (slot : ClassSlot) :
    List Text :=
  ["void ".toList ++ className ++ "::".toList ++ slot.methodSignatureWithoutReturnType, ['{']] ++
  linesOfStatements className slotIndex gaps 0 slot.orderedListOfStatements ++
  (match slot.finishedOrExitSignal with
    | none => []
    | some rawCpp => [[], tab ++ rawCpp]) ++
  [['}']]

/-- The slots from an index on. -/
def linesOfSlots (className : Text) (gaps : ℕ → ℕ → List Text) : ℕ → List ClassSlot → List Text
  | _, [] => []
  | slotIndex, slot :: rest =>
      linesOfSlot className slotIndex (gaps slotIndex) slot ++
        linesOfSlots className gaps (slotIndex + 1) rest

/-- The source of a class, with what is in the gaps. -/
def sourceOf (gaps : ℕ → ℕ → List Text) (c : DesignClass) : Text :=
  joinLines (c.linesInFrontOfSlots ++ linesOfSlots c.name gaps 0 c.mySlots)

/-! ## Importing -/

/-- The variables of the loop over the lines of a source, and the project. -/
structure ImportState where
  classes : List DesignClass
  inBeginChunkOfRawCppStatementsComment : Bool
  className : Text
  slotIndex : ℤ
  statementInsertIndex : ℤ
  inChunkOfRawCppStatements : Bool
  chunkOfRawCppStatements : List Text
  rollingStatementOffset : ℕ
  lastSeenClass : Text
  lastSeenSlotIndex : ℤ

namespace ImportState

def start (classes : List DesignClass) : ImportState :=
  ⟨classes, false, [], -1, -1, false, [], 0, [], -1⟩

/-- What is skipped everywhere. -/
def IsSkipped (currentLine : Text) : Prop :=
  trimmed currentLine = [] ∨ trimmed currentLine = "//".toList ∨
    trimmed currentLine = chunkOfRawCppGoesHereHelperComment

instance (currentLine : Text) : Decidable (IsSkipped currentLine) :=
  inferInstanceAs (Decidable (_ ∨ _))

def classPrefix : Text := "Class: ".toList

def slotIndexPrefix : Text := "SlotIndex: ".toList

def statementInsertIndexPrefix : Text := "StatementInsertIndex: ".toList

def insertIntoSlot (index : ℕ) (statement : SlotStatement) (slot : ClassSlot) : ClassSlot :=
  { slot with
    orderedListOfStatements := QList.insert slot.orderedListOfStatements index statement }

/-- In the slot with an index.  There is nothing to return if there is none. -/
def modifySlot (f : ClassSlot → ClassSlot) (slots : List ClassSlot) (slotIndex : ℤ) :
    Option (List ClassSlot) :=
  if 0 ≤ slotIndex ∧ slotIndex < slots.length then some (slots.modify slotIndex.toNat f) else none

/-- In the class that `classFromClassName` finds. -/
def modifyClass (f : DesignClass → Option DesignClass) (className : Text) :
    List DesignClass → Option (List DesignClass)
  | [] => none
  | c :: rest =>
      if c.name = className then (f c).map (· :: rest)
      else (modifyClass f className rest).map (c :: ·)

def insertChunk (classes : List DesignClass) (className : Text) (slotIndex index : ℤ)
    (chunk : List Text) : Option (List DesignClass) :=
  modifyClass
    (fun c => (modifySlot (insertIntoSlot index.toNat (.chunkOfRawCppStatements chunk)) c.mySlots
      slotIndex).map fun mySlots => { c with mySlots })
    className classes

/-- One line of a source; nothing where the import is given up. -/
def importLine (st : ImportState) (currentLine : Text) : Option ImportState :=
  if IsSkipped currentLine then some st
  else if st.inChunkOfRawCppStatements then
    if contains currentLine ('[' :: endChunkOfRawCppStatements) then
      -- nobody has written into this gap
      if st.chunkOfRawCppStatements = [] then
        some { st with
          inBeginChunkOfRawCppStatementsComment := false
          inChunkOfRawCppStatements := false }
      else
        (insertChunk st.classes st.className st.slotIndex
          (st.statementInsertIndex + st.rollingStatementOffset) st.chunkOfRawCppStatements).map
          fun classes =>
            { st with
              classes
              rollingStatementOffset := st.rollingStatementOffset + 1
              inBeginChunkOfRawCppStatementsComment := false
              inChunkOfRawCppStatements := false
              chunkOfRawCppStatements := [] }
    else
      some { st with chunkOfRawCppStatements := st.chunkOfRawCppStatements ++ [currentLine] }
  else if !st.inBeginChunkOfRawCppStatementsComment then
    if contains currentLine ('[' :: beginChunkOfRawCppStatements) then
      some { st with inBeginChunkOfRawCppStatementsComment := true }
    else some st
  else if contains currentLine classPrefix then
    match split classPrefix currentLine with
    | [_, className] =>
        some { st with
          className
          rollingStatementOffset :=
            if className ≠ st.lastSeenClass then 0 else st.rollingStatementOffset
          lastSeenClass := className }
    | _ => none
  else if contains currentLine slotIndexPrefix then
    match split slotIndexPrefix currentLine with
    | [_, text] =>
        (toInt text).map fun slotIndex =>
          { st with
            slotIndex
            rollingStatementOffset :=
              if slotIndex ≠ st.lastSeenSlotIndex then 0 else st.rollingStatementOffset
            lastSeenSlotIndex := slotIndex }
    | _ => none
  else if contains currentLine statementInsertIndexPrefix then
    match split statementInsertIndexPrefix currentLine with
    | [_, text] =>
        (toInt text).map fun statementInsertIndex => { st with statementInsertIndex }
    | _ => none
  else if contains currentLine ("[/".toList ++ beginChunkOfRawCppStatements) then
    if st.className = [] ∨ st.slotIndex = -1 ∨ st.statementInsertIndex = -1 then none
    else some { st with inChunkOfRawCppStatements := true }
  else some st

/-- The classes after a source was imported. -/
def importSource (classes : List DesignClass) (source : Text) : Option (List DesignClass) :=
  ((linesOf source).foldlM importLine (start classes)).map ImportState.classes

end ImportState

/-- `handleEditCppModeRequested`, when Qt Creator was closed. -/
def importSources (sources : Text → Option Text) (classes : List DesignClass) :
    Option (List DesignClass) :=
  classes.foldlM (fun now c =>
    (sources c.sourceFilenameOnly).bind fun source => ImportState.importSource now source) classes

/-! ## Editing -/

def IsIdentifier (name : Text) : Prop := name ≠ [] ∧ ∀ c ∈ name, c.isAlphanum = true ∨ c = '_'

instance (name : Text) : Decidable (IsIdentifier name) :=
  have := List.decidableBAll (fun c : Char => c.isAlphanum = true ∨ c = '_') name
  instDecidableAnd

def HasDelimiter (text : Text) : Prop :=
  contains text ('[' :: beginChunkOfRawCppStatements) = true ∨
    contains text ("[/".toList ++ beginChunkOfRawCppStatements) = true ∨
    contains text ('[' :: endChunkOfRawCppStatements) = true ∨
    contains text ("[/".toList ++ endChunkOfRawCppStatements) = true

instance (text : Text) : Decidable (HasDelimiter text) := inferInstanceAs (Decidable (_ ∨ _))

/-- A project, and what is written in the gaps of its sources: for each class, slot and index some
lines, somewhere between those that were generated there. -/
structure CppEdit where
  classes : List DesignClass
  written : Text → ℕ → ℕ → List Text
  position : Text → ℕ → ℕ → ℕ
  isIdentifier : ∀ c ∈ classes, IsIdentifier c.name
  nodup : (classes.map fun c => c.name.map Char.toLower).Nodup
  /-- `QList` has an `int` for its size. -/
  isInt : ∀ c ∈ classes, IsInt c.mySlots.length ∧
    ∀ slot ∈ c.mySlots, IsInt slot.orderedListOfStatements.length
  statements : ∀ c ∈ classes, ∀ slot ∈ c.mySlots, ∀ statement ∈ slot.orderedListOfStatements,
    ¬ HasDelimiter statement.toRawCpp
  lines : ∀ className slotIndex i, ∀ line ∈ written className slotIndex i,
    '\n' ∉ line ∧ ¬ HasDelimiter line

namespace CppEdit

variable (e : CppEdit)

/-- A gap with what was written in it. -/
def gap (className : Text) (slotIndex i : ℕ) : List Text :=
  generatedGap.take (e.position className slotIndex i) ++ e.written className slotIndex i ++
    generatedGap.drop (e.position className slotIndex i)

/-- The file that was written last is what is there. -/
def sources (file : Text) : Option Text :=
  (e.classes.reverse.find? fun c => c.sourceFilenameOnly = file).map fun c =>
    sourceOf (e.gap c.name) c

def imported : Option (List DesignClass) := importSources e.sources e.classes

/-- At most one chunk. -/
def chunk (lines : List Text) : List SlotStatement :=
  match lines.filter fun line => ¬ ImportState.IsSkipped line with
  | [] => []
  | line :: rest => [.chunkOfRawCppStatements (line :: rest)]

/-- The statements from an index on, with the chunks. -/
def withChunks (written : ℕ → List Text) : ℕ → List SlotStatement → List SlotStatement
  | i, [] => chunk (written i)
  | i, statement :: rest => chunk (written i) ++ statement :: withChunks written (i + 1) rest

/-- The slots from an index on, with the chunks. -/
def slotsWithChunks (written : ℕ → ℕ → List Text) : ℕ → List ClassSlot → List ClassSlot
  | _, [] => []
  | slotIndex, slot :: rest =>
      { slot with
        orderedListOfStatements :=
          withChunks (written slotIndex) 0 slot.orderedListOfStatements } ::
        slotsWithChunks written (slotIndex + 1) rest

/-- What was written lands where it was written.  The import gives the same classes, with the chunks
among the statements where their gaps were. -/
def Lands : Prop :=
  e.imported = some (e.classes.map fun c =>
    { c with mySlots := slotsWithChunks (e.written c.name) 0 c.mySlots })

/-- No line ends with a carriage return, and nothing else that is generated has a delimiter.  The
chunks themselves may be anything else; what else is generated are the signatures of slots, the
statements and the lines in front of them. -/
structure IsPlain : Prop where
  lines : ∀ className slotIndex i, ∀ line ∈ e.written className slotIndex i,
    line.getLast? ≠ some '\r'
  inFrontOfSlots : ∀ c ∈ e.classes, ∀ line ∈ c.linesInFrontOfSlots, ¬ HasDelimiter line
  slots : ∀ c ∈ e.classes, ∀ slot ∈ c.mySlots,
    ¬ HasDelimiter slot.methodSignatureWithoutReturnType ∧
      ∀ rawCpp ∈ slot.finishedOrExitSignal, ¬ HasDelimiter rawCpp

end CppEdit

end Autobackup.DesignEqualsImplementation
