import Autobackup.Foundation.Machine
import Autobackup.Foundation.QListInsert
import Autobackup.Foundation.QString
import Mathlib.Logic.Function.Basic

/-!
# Connection activations

A use case knows a connection by the lifeline and the slot that the signal is emitted from, and by
the index of the emission in the statements of the slot.  The statements belong to the slot, so all
use cases insert into the same list, and so does the import of what was written in C++ edit mode.
Nothing is ever removed.

Objects are known by their addresses.  What the user did is kept next to what the program keeps:
the emission that a connection was drawn from, and the slots that were connected to each emission.
-/

namespace Autobackup.DesignEqualsImplementation

open QString

abbrev UseCaseAddress := ℕ
abbrev ClassLifeLineAddress := ℕ
abbrev ClassSlotAddress := ℕ
abbrev ClassSignalAddress := ℕ
abbrev StatementAddress := ℕ

inductive Statement
  | signalEmit (signalToEmit : ClassSignalAddress)
  | slotInvoke (classLifeLine : ClassLifeLineAddress) (slotToInvoke : ClassSlotAddress)
  | chunkOfRawCppStatements (rawCppStatements : List Text)
  deriving DecidableEq

def Statement.isSignalEmit : Statement → Bool
  | .signalEmit _ => true
  | _ => false

/-- The index of the slot's lifeline in the use case, and the slot. -/
abbrev SlotConnectedToSignal := ℕ × ClassSlotAddress

structure SignalSlotConnectionActivation where
  sourceClassLifeLine : ClassLifeLineAddress
  sourceSlotItself : ClassSlotAddress
  indexIntoSlotsOrderedListOfStatements : ℕ
  slotsAttachedToTheSignal : List SlotConnectedToSignal
  /-- What the user saw. -/
  drawnFrom : StatementAddress
  deriving DecidableEq

namespace SignalSlotConnectionActivation

/-- The three keys. -/
def IsOf (a : SignalSlotConnectionActivation) (sourceClassLifeLine : ClassLifeLineAddress)
    (sourceSlot : ClassSlotAddress) (index : ℕ) : Prop :=
  a.sourceClassLifeLine = sourceClassLifeLine ∧ a.sourceSlotItself = sourceSlot ∧
    a.indexIntoSlotsOrderedListOfStatements = index

instance (a : SignalSlotConnectionActivation) (l : ClassLifeLineAddress) (s : ClassSlotAddress)
    (i : ℕ) : Decidable (a.IsOf l s i) := inferInstanceAs (Decidable (_ ∧ _))

end SignalSlotConnectionActivation

/-- The parts of a project that have to do with connections. -/
structure Connections where
  orderedListOfStatements : ClassSlotAddress → List (StatementAddress × Statement)
  activations : UseCaseAddress → List SignalSlotConnectionActivation
  nextAddress : StatementAddress
  /-- The slots that the user connected to an emission. -/
  connected : UseCaseAddress → ClassLifeLineAddress → ClassSlotAddress → StatementAddress →
    List SlotConnectedToSignal

inductive UseCaseEvent
  | insertSlotInvocationEvent (indexToInsertEventAt : ℕ) (source : Option ClassSlotAddress)
      (destinationClassLifeLine : ClassLifeLineAddress) (slot : ClassSlotAddress)
  | insertSignalEmitEvent (indexToInsertEventAt : ℕ) (source : Option ClassSlotAddress)
      (signal : ClassSignalAddress)
  | insertSignalSlotActivationEvent (indexToInsertEventAt : ℕ) (source : Option ClassSlotAddress)
      (signal : ClassSignalAddress) (classLifeLineOfSignal : ClassLifeLineAddress)
      (slot : SlotConnectedToSignal)
  | insertExistingSignalNewSlotEvent (statementIndexOfExistingSignal : ℕ)
      (source : Option ClassSlotAddress) (classLifeLineOfSignal : ClassLifeLineAddress)
      (slot : SlotConnectedToSignal) (indexToInsertSlotInto : ℕ)
  /-- `handleEditCppModeRequested` inserts a chunk, whichever use case is shown. -/
  | importChunkOfRawCppStatements (slot : ClassSlotAddress) (index : ℕ)
      (rawCppStatements : List Text)

namespace Connections

def empty : Connections := ⟨fun _ => [], fun _ => [], 0, fun _ _ _ _ => []⟩

/-- Of the first activation that is found. -/
def slotsAttachedTo (l : ClassLifeLineAddress) (s : ClassSlotAddress) (i : ℕ) :
    List SignalSlotConnectionActivation → List SlotConnectedToSignal
  | [] => []
  | a :: rest => if a.IsOf l s i then a.slotsAttachedToTheSignal else slotsAttachedTo l s i rest

def slotsConnectedToSignal (c : Connections) (useCase : UseCaseAddress)
    (sourceSignalClassLifeLine : ClassLifeLineAddress) (sourceSlot : ClassSlotAddress)
    (indexOfTheEmitStatement : ℕ) : List SlotConnectedToSignal :=
  slotsAttachedTo sourceSignalClassLifeLine sourceSlot indexOfTheEmitStatement
    (c.activations useCase)

def insertStatementIntoOrderedListOfStatements (c : Connections) (slot : ClassSlotAddress)
    (index : ℕ) (statement : Statement) : Connections :=
  { c with
    orderedListOfStatements := Function.update c.orderedListOfStatements slot
      (QList.insert (c.orderedListOfStatements slot) index (c.nextAddress, statement))
    nextAddress := c.nextAddress + 1 }

/-- Only the first one that is found gets the slot. -/
def attachSlot (l : ClassLifeLineAddress) (s : ClassSlotAddress) (i : ℕ)
    (slot : SlotConnectedToSignal) (indexToInsertSlotInto : ℕ) :
    List SignalSlotConnectionActivation → List SignalSlotConnectionActivation
  | [] => []
  | a :: rest =>
      if a.IsOf l s i then
        { a with
          slotsAttachedToTheSignal :=
            QList.insert a.slotsAttachedToTheSignal indexToInsertSlotInto slot } :: rest
      else a :: attachSlot l s i slot indexToInsertSlotInto rest

def attachSlotInUseCase (c : Connections) (useCase : UseCaseAddress) (l : ClassLifeLineAddress)
    (s : ClassSlotAddress) (i : ℕ) (slot : SlotConnectedToSignal) (indexToInsertSlotInto : ℕ) :
    Connections :=
  { c with
    activations := Function.update c.activations useCase
      (attachSlot l s i slot indexToInsertSlotInto (c.activations useCase)) }

def appendActivation (c : Connections) (useCase : UseCaseAddress)
    (a : SignalSlotConnectionActivation) : Connections :=
  { c with activations := Function.update c.activations useCase (c.activations useCase ++ [a]) }

/-- The user has connected slots to an emission. -/
def connect (c : Connections) (useCase : UseCaseAddress) (l : ClassLifeLineAddress)
    (s : ClassSlotAddress) (emission : StatementAddress) (slots : List SlotConnectedToSignal) :
    Connections :=
  { c with
    connected := fun useCase' l' s' emission' =>
      if useCase' = useCase ∧ l' = l ∧ s' = s ∧ emission' = emission then slots
      else c.connected useCase' l' s' emission' }

/-- `insertEventPrivate`, and the import.  An event without a source changes nothing. -/
def insertEvent (c : Connections) (useCase : UseCaseAddress) : UseCaseEvent → Connections
  | .insertSlotInvocationEvent i source destinationClassLifeLine slot =>
      match source with
      | none => c
      | some s =>
          c.insertStatementIntoOrderedListOfStatements s i
            (.slotInvoke destinationClassLifeLine slot)
  | .insertSignalEmitEvent i source signal =>
      match source with
      | none => c
      | some s => c.insertStatementIntoOrderedListOfStatements s i (.signalEmit signal)
  | .insertSignalSlotActivationEvent i source signal l slot =>
      match source with
      | none => c
      | some s =>
          ((c.insertStatementIntoOrderedListOfStatements s i (.signalEmit signal)).connect
            useCase l s c.nextAddress [slot]).appendActivation useCase
              ⟨l, s, i, [slot], c.nextAddress⟩
  | .insertExistingSignalNewSlotEvent i source l slot indexToInsertSlotInto =>
      match source with
      | none => c
      | some s =>
          match (c.orderedListOfStatements s)[i]? with
          | none => c.attachSlotInUseCase useCase l s i slot indexToInsertSlotInto
          | some emission =>
              (c.connect useCase l s emission.1
                (QList.insert (c.connected useCase l s emission.1) indexToInsertSlotInto slot)
              ).attachSlotInUseCase useCase l s i slot indexToInsertSlotInto
  | .importChunkOfRawCppStatements slot i rawCppStatements =>
      c.insertStatementIntoOrderedListOfStatements slot i
        (.chunkOfRawCppStatements rawCppStatements)

/-- What the user can do: insert at an index up to the number of statements, and connect a slot to
an emission, at an index up to the number of slots that are attached to it. -/
def CanInsert (c : Connections) (useCase : UseCaseAddress) : UseCaseEvent → Prop
  | .insertSlotInvocationEvent i source _ _ | .insertSignalEmitEvent i source _
  | .insertSignalSlotActivationEvent i source _ _ _ =>
      ∀ s ∈ source, i ≤ (c.orderedListOfStatements s).length
  | .insertExistingSignalNewSlotEvent i source l _ indexToInsertSlotInto =>
      ∀ s ∈ source, ∃ emission, (c.orderedListOfStatements s)[i]? = some emission ∧
        emission.2.isSignalEmit = true ∧
        indexToInsertSlotInto ≤ (c.connected useCase l s emission.1).length
  | .importChunkOfRawCppStatements slot i _ => i ≤ (c.orderedListOfStatements slot).length

/-- An event, in its use case. -/
def step (c : Connections) (event : UseCaseAddress × UseCaseEvent) : Connections :=
  c.insertEvent event.1 event.2

end Connections

/-- A run of the program. -/
structure DesignSession where
  events : List (UseCaseAddress × UseCaseEvent)
  canInsert : Machine.StaysWithin Connections.step (fun c event => c.CanInsert event.1 event.2)
    Connections.empty events

/-! ## Connections that name their emissions -/

namespace Connections

/-- Each connection names the emission that it was drawn from, and each emission has the slots that
the user connected to it. -/
structure NamesEmissions (c : Connections) : Prop where
  activations : ∀ useCase, ∀ a ∈ c.activations useCase, ∃ statement,
    (c.orderedListOfStatements a.sourceSlotItself)[a.indexIntoSlotsOrderedListOfStatements]? =
      some (a.drawnFrom, statement) ∧ statement.isSignalEmit = true
  slots : ∀ useCase l s i emission, (c.orderedListOfStatements s)[i]? = some emission →
    emission.2.isSignalEmit = true →
      c.slotsConnectedToSignal useCase l s i = c.connected useCase l s emission.1

/-- Behind all emissions of the slot that connections were drawn from. -/
def IsBehindConnections (c : Connections) (slot : ClassSlotAddress) (index : ℕ) : Prop :=
  ∀ useCase, ∀ a ∈ c.activations useCase, a.sourceSlotItself = slot →
    a.indexIntoSlotsOrderedListOfStatements < index

/-- Statements are inserted behind the connections, and a slot is connected only to an emission that
has a connection from the lifeline already. -/
def Respects (c : Connections) (useCase : UseCaseAddress) : UseCaseEvent → Prop
  | .insertSlotInvocationEvent i source _ _ | .insertSignalEmitEvent i source _
  | .insertSignalSlotActivationEvent i source _ _ _ => ∀ s ∈ source, c.IsBehindConnections s i
  | .insertExistingSignalNewSlotEvent i source l _ _ =>
      ∀ s ∈ source, ∃ a ∈ c.activations useCase, a.IsOf l s i
  | .importChunkOfRawCppStatements slot i _ => c.IsBehindConnections slot i

end Connections

end Autobackup.DesignEqualsImplementation
