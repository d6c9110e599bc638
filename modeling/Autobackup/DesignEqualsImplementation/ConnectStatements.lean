import Autobackup.DesignEqualsImplementation.ConnectionActivations
import Autobackup.Foundation.Unfolding

/-!
# Connect statements

`processUseCase` of `DesignEqualsImplementationProjectGenerator`: from the entry point of a use case
all slots are walked that are invoked or connected, and for each connection a `connect` is appended
to the classes whose constructor can make it.

What was walked is not remembered.  So a slot that leads to itself is walked forever, and a
connection that is reached along several paths gets its statement once for each of them
(`hasExactConnectStatements_iff`).
-/

namespace Autobackup.DesignEqualsImplementation

open QString

abbrev DesignClassAddress := ℕ
abbrev NonFunctionMemberAddress := ℕ

structure NonFunctionMember where
  parentClass : DesignClassAddress
  variableName : Text

/-- What a lifeline is an instance of. -/
inductive ClassLifeLineInstance
  | useCasesRootClassLifeLine
  | childMemberOfOtherClassLifeLine (instanceInOtherClass : NonFunctionMemberAddress)

structure ClassLifeLine where
  designEqualsImplementationClass : DesignClassAddress
  instanceType : ClassLifeLineInstance

/-- A signal or a slot, with the names of the types of its arguments. -/
structure Method where
  name : Text
  argumentTypes : List Text

/-- What the generator needs of a project.  All lifelines have instances, and all use cases have
entry points. -/
structure DesignProject where
  /-- `QMetaObject::normalizedType` -/
  normalizedType : Text → Text
  connections : Connections
  useCases : List UseCaseAddress
  slots : List ClassSlotAddress
  useCaseSlotEntryPoint : UseCaseAddress → ClassLifeLineAddress × ClassSlotAddress
  classLifeLines : UseCaseAddress → List ClassLifeLineAddress
  classLifeLine : ClassLifeLineAddress → ClassLifeLine
  nonFunctionMember : NonFunctionMemberAddress → NonFunctionMember
  nonFunctionMembers : DesignClassAddress → List NonFunctionMemberAddress
  signal : ClassSignalAddress → Method
  slot : ClassSlotAddress → Method
  nodup_useCases : useCases.Nodup
  mem_slots : ∀ slot, connections.orderedListOfStatements slot ≠ [] → slot ∈ slots
  /-- A slot is connected on one of the lifelines of the use case. -/
  index_lt : ∀ useCase, ∀ activation ∈ connections.activations useCase,
    ∀ slot ∈ activation.slotsAttachedToTheSignal, slot.1 < (classLifeLines useCase).length
  /-- A member that a lifeline is an instance of is a member of its class only. -/
  mem_nonFunctionMembers : ∀ l m,
    (classLifeLine l).instanceType = .childMemberOfOtherClassLifeLine m →
      ∀ c, m ∈ nonFunctionMembers c ↔ (nonFunctionMember m).parentClass = c

/-- The hash from a class to the connect statements in its constructor. -/
abbrev ConnectStatements := DesignClassAddress → List Text

def thisObject : Text := "this".toList

def generateRawConnectStatementWithEndingSemicolon (signalObjectVariableName
    signalNameIncludingNormalizedArgs slotObjectVariableName
    slotNameIncludingNormalizedArgs : Text) : Text :=
  "connect(".toList ++ signalObjectVariableName ++ ", SIGNAL(".toList ++
    signalNameIncludingNormalizedArgs ++ "), ".toList ++ slotObjectVariableName ++
      ", SLOT(".toList ++ slotNameIncludingNormalizedArgs ++ "));".toList

def appendConnectStatementToClassInitializationSequence (statements : ConnectStatements)
    (classToGetConnectStatement : DesignClassAddress) (connectStatement : Text) :
    ConnectStatements :=
  Function.update statements classToGetConnectStatement
    (statements classToGetConnectStatement ++ [connectStatement])

namespace DesignProject

variable (p : DesignProject)

def methodSignatureWithoutReturnType (method : Method) : Text :=
  method.name ++ "(".toList ++
    ", ".toList.intercalate (method.argumentTypes.map p.normalizedType) ++ ")".toList

def signalSignature (signal : ClassSignalAddress) : Text :=
  p.methodSignatureWithoutReturnType (p.signal signal)

def slotSignature (slot : ClassSlotAddress) : Text :=
  p.methodSignatureWithoutReturnType (p.slot slot)

def classOf (l : ClassLifeLineAddress) : DesignClassAddress :=
  (p.classLifeLine l).designEqualsImplementationClass

/-- `m_ClassLifeLines.at(index)`, of an index that is one of the list. -/
def classLifeLineAt (useCase : UseCaseAddress) (index : ℕ) : ClassLifeLineAddress :=
  ((p.classLifeLines useCase)[index]?).getD 0

/-- What is done for one connection before its slot is walked. -/
def connectSlot (classLifeLine : ClassLifeLineAddress) (signalToEmit : ClassSignalAddress)
    (destinationSlotClassLifeLine : ClassLifeLineAddress) (destinationSlot : ClassSlotAddress)
    (statements : ConnectStatements) : ConnectStatements :=
  -- 0a: both are members of the same class
  let statements :=
    match (p.classLifeLine destinationSlotClassLifeLine).instanceType,
      (p.classLifeLine classLifeLine).instanceType with
    | .childMemberOfOtherClassLifeLine slotObject, .childMemberOfOtherClassLifeLine signalObject =>
        if (p.nonFunctionMember slotObject).parentClass =
            (p.nonFunctionMember signalObject).parentClass then
          appendConnectStatementToClassInitializationSequence statements
            (p.nonFunctionMember slotObject).parentClass
            (generateRawConnectStatementWithEndingSemicolon
              (p.nonFunctionMember signalObject).variableName (p.signalSignature signalToEmit)
              (p.nonFunctionMember slotObject).variableName (p.slotSignature destinationSlot))
        else statements
    | _, _ => statements
  -- 1: the class of the signal has the object of the slot
  let statements :=
    match (p.classLifeLine destinationSlotClassLifeLine).instanceType with
    | .childMemberOfOtherClassLifeLine slotObject =>
        if slotObject ∈ p.nonFunctionMembers (p.classOf classLifeLine) then
          appendConnectStatementToClassInitializationSequence statements (p.classOf classLifeLine)
            (generateRawConnectStatementWithEndingSemicolon thisObject
              (p.signalSignature signalToEmit) (p.nonFunctionMember slotObject).variableName
              (p.slotSignature destinationSlot))
        else statements
    | .useCasesRootClassLifeLine => statements
  -- 2: the class of the slot has the object of the signal
  match (p.classLifeLine classLifeLine).instanceType with
  | .childMemberOfOtherClassLifeLine signalObject =>
      if signalObject ∈ p.nonFunctionMembers (p.classOf destinationSlotClassLifeLine) then
        appendConnectStatementToClassInitializationSequence statements
          (p.classOf destinationSlotClassLifeLine)
          (generateRawConnectStatementWithEndingSemicolon
            (p.nonFunctionMember signalObject).variableName (p.signalSignature signalToEmit)
            thisObject (p.slotSignature destinationSlot))
      else statements
  | .useCasesRootClassLifeLine => statements

/-- `none` when it has not come back in time. -/
def recursivelyWalkSlot (useCase : UseCaseAddress) : ℕ → ClassLifeLineAddress × ClassSlotAddress →
    ConnectStatements → Option ConnectStatements
  | 0, _, _ => none
  | fuel + 1, (classLifeLine, slotToWalk), statements =>
      (p.connections.orderedListOfStatements slotToWalk).zipIdx.foldlM
        (fun statements (currentStatement, currentStatementIndex) =>
          match currentStatement.2 with
          | .signalEmit signalToEmit =>
              (p.connections.activations useCase).foldlM (fun statements activation =>
                if activation.IsOf classLifeLine slotToWalk currentStatementIndex then
                  activation.slotsAttachedToTheSignal.foldlM (fun statements slot =>
                    recursivelyWalkSlot useCase fuel (p.classLifeLineAt useCase slot.1, slot.2)
                      (p.connectSlot classLifeLine signalToEmit (p.classLifeLineAt useCase slot.1)
                        slot.2 statements)) statements
                else some statements) statements
          -- nothing is connected, but the slot may emit
          | .slotInvoke classLifeLine slotToInvoke =>
              recursivelyWalkSlot useCase fuel (classLifeLine, slotToInvoke) statements
          | .chunkOfRawCppStatements _ => some statements) statements

def processUseCase (fuel : ℕ) (statements : ConnectStatements) (useCase : UseCaseAddress) :
    Option ConnectStatements :=
  p.recursivelyWalkSlot useCase fuel (p.useCaseSlotEntryPoint useCase) statements

/-- The classes are declared with empty lists before. -/
def processUseCases (fuel : ℕ) : Option ConnectStatements :=
  p.useCases.foldlM (p.processUseCase fuel) fun _ => []

end DesignProject

/-! ## What it is for -/

/-- A signal of one lifeline that is connected to a slot of another one. -/
structure SignalSlotConnection where
  signalClassLifeLine : ClassLifeLineAddress
  signal : ClassSignalAddress
  slotClassLifeLine : ClassLifeLineAddress
  slot : ClassSlotAddress

/-- Whose constructor can connect them. -/
inductive ConnectPlace
  | sharedParent
  | signalsClass
  | slotsClass
  deriving DecidableEq

/-- The project, and its slots as they appear in a use case. -/
inductive WalkNode
  | project
  | slot (useCase : UseCaseAddress) (node : ClassLifeLineAddress × ClassSlotAddress)
  deriving DecidableEq

/-- A connection is known by its signal emission and its places in the two lists. -/
inductive WalkStep
  | useCase (useCase : UseCaseAddress)
  | invocation (statementIndex : ℕ)
  | connection (statementIndex activationIndex slotIndex : ℕ)
  deriving DecidableEq

namespace DesignProject

variable (p : DesignProject)

/-- The lifeline is an instance of this member of this class. -/
def IsMemberOf (l : ClassLifeLineAddress) (m : NonFunctionMemberAddress)
    (c : DesignClassAddress) : Prop :=
  (p.classLifeLine l).instanceType = .childMemberOfOtherClassLifeLine m ∧
    m ∈ p.nonFunctionMembers c

/-- The statement for a connection in the constructor of a class: both objects are members of the
class, or one of them is and the other one is the class's own. -/
inductive States (d : SignalSlotConnection) : ConnectPlace → DesignClassAddress → Text → Prop
  | sharedParent {m m' : NonFunctionMemberAddress} {c : DesignClassAddress}
      (signal : p.IsMemberOf d.signalClassLifeLine m c)
      (slot : p.IsMemberOf d.slotClassLifeLine m' c) :
      States d .sharedParent c (generateRawConnectStatementWithEndingSemicolon
        (p.nonFunctionMember m).variableName (p.signalSignature d.signal)
        (p.nonFunctionMember m').variableName (p.slotSignature d.slot))
  | signalsClass {m' : NonFunctionMemberAddress}
      (slot : p.IsMemberOf d.slotClassLifeLine m' (p.classOf d.signalClassLifeLine)) :
      States d .signalsClass (p.classOf d.signalClassLifeLine)
        (generateRawConnectStatementWithEndingSemicolon thisObject (p.signalSignature d.signal)
          (p.nonFunctionMember m').variableName (p.slotSignature d.slot))
  | slotsClass {m : NonFunctionMemberAddress}
      (signal : p.IsMemberOf d.signalClassLifeLine m (p.classOf d.slotClassLifeLine)) :
      States d .slotsClass (p.classOf d.slotClassLifeLine)
        (generateRawConnectStatementWithEndingSemicolon (p.nonFunctionMember m).variableName
          (p.signalSignature d.signal) thisObject (p.slotSignature d.slot))

/-- The signal that this slot emits in its statement `i` is connected to a slot. -/
structure ConnectsAt (useCase : UseCaseAddress)
    (node : ClassLifeLineAddress × ClassSlotAddress) (i j k : ℕ) (d : SignalSlotConnection) :
    Prop where
  source : d.signalClassLifeLine = node.1
  emission : ∃ address,
    (p.connections.orderedListOfStatements node.2)[i]? = some (address, .signalEmit d.signal)
  activation : ∃ activation, (p.connections.activations useCase)[j]? = some activation ∧
    activation.IsOf node.1 node.2 i ∧ ∃ index,
      activation.slotsAttachedToTheSignal[k]? = some (index, d.slot) ∧
        p.classLifeLineAt useCase index = d.slotClassLifeLine

inductive LeadsBy : WalkNode → WalkStep → WalkNode → Prop
  | useCase {useCase : UseCaseAddress} (h : useCase ∈ p.useCases) :
      LeadsBy .project (.useCase useCase) (.slot useCase (p.useCaseSlotEntryPoint useCase))
  | invocation {useCase : UseCaseAddress} {node : ClassLifeLineAddress × ClassSlotAddress}
      {i : ℕ} {address : StatementAddress} {l : ClassLifeLineAddress} {s : ClassSlotAddress}
      (h : (p.connections.orderedListOfStatements node.2)[i]? =
        some (address, .slotInvoke l s)) :
      LeadsBy (.slot useCase node) (.invocation i) (.slot useCase (l, s))
  | connection {useCase : UseCaseAddress} {node : ClassLifeLineAddress × ClassSlotAddress}
      {i j k : ℕ} {d : SignalSlotConnection} (h : p.ConnectsAt useCase node i j k d) :
      LeadsBy (.slot useCase node) (.connection i j k)
        (.slot useCase (d.slotClassLifeLine, d.slot))

def LeadsTo (a b : WalkNode) : Prop := ∃ step, p.LeadsBy a step b

def IsReachable (d : SignalSlotConnection) : Prop :=
  ∃ useCase node i j k, Relation.ReflTransGen p.LeadsTo .project (.slot useCase node) ∧
    p.ConnectsAt useCase node i j k d

/-- A connection at the end of this path has this statement. -/
inductive IsStatedAlong (c : DesignClassAddress) (text : Text) :
    WalkNode → List WalkStep → ConnectPlace → Prop
  | here {useCase : UseCaseAddress} {node : ClassLifeLineAddress × ClassSlotAddress} {i j k : ℕ}
      {d : SignalSlotConnection} {place : ConnectPlace} (h : p.ConnectsAt useCase node i j k d)
      (hstates : p.States d place c text) :
      IsStatedAlong c text (.slot useCase node) [.connection i j k] place
  | further {a b : WalkNode} {step : WalkStep} {path : List WalkStep} {place : ConnectPlace}
      (h : p.LeadsBy a step b) (hrest : IsStatedAlong c text b path place) :
      IsStatedAlong c text a (step :: path) place

/-- **The generator comes back, and each class has the statements of the connections that can be
reached**, once, and no others. -/
def HasExactConnectStatements : Prop :=
  ∃ fuel statements, p.processUseCases fuel = some statements ∧ ∀ c, (statements c).Nodup ∧
    ∀ text, text ∈ statements c ↔ ∃ d place, p.IsReachable d ∧ p.States d place c text

/-- No slot that can be reached leads to itself, and no statement is reached along two paths.  Both
are properties of the graph of slots, without a reference to the walk. -/
structure IsWalkedOnce : Prop where
  acyclic : ∀ node, Relation.ReflTransGen p.LeadsTo .project node →
    ¬ Relation.TransGen p.LeadsTo node node
  once : ∀ {c text path place path' place'}, p.IsStatedAlong c text .project path place →
    p.IsStatedAlong c text .project path' place' → path = path' ∧ place = place'

end DesignProject

end Autobackup.DesignEqualsImplementation
