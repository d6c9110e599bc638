import Autobackup.Foundation.AssociationList
import Autobackup.Foundation.Machine
import Autobackup.Foundation.QString

/-!
# The key/value content tracker

`StupidKeyValueContentTracker` keeps the current values of its keys in memory.  What is to change is
staged first, one mutation for a key, and a commit appends the staged mutations to the timeline and
applies them to the memory.  The destructor writes the memory to a cache in the settings, and from
then on `initialize` takes the cache in place of the timeline.

The timeline is the list of the data objects that were appended to it: it reads back all of them, in
their order.
-/

namespace Autobackup.ContentTracker

open QString

abbrev CurrentData := AList fun _ : Text => Text

/-! ## Mutations and their JSON objects -/

inductive JsonValue where
  | bool (b : Bool)
  | string (text : Text)
  deriving DecidableEq

/-- `QJsonValue::toString` -/
def JsonValue.toString : JsonValue → Text
  | bool _ => []
  | string text => text

/-- The members of a JSON object that holds one mutation. -/
abbrev MutationObject := List (Text × JsonValue)

abbrev BulkMutations := AList fun _ : Text => MutationObject

/-- The mutations are `KeyValueStoreMutation_Add`, `_Modify` and `_Remove`. -/
inductive KeyValueStoreMutation where
  | add (dataToAdd : Text)
  | modify (newValue : Text)
  | remove
  deriving DecidableEq

namespace KeyValueStoreMutation

def mutationType : KeyValueStoreMutation → Text
  | add _ => "add".toList
  | modify _ => "modify".toList
  | remove => "remove".toList

/-- The object with the one member that says what the mutation is. -/
def toMutationObject : KeyValueStoreMutation → MutationObject
  | add dataToAdd => [("add".toList, .string dataToAdd)]
  | modify newValue => [("modify".toList, .string newValue)]
  | remove => [("remove".toList, .bool true)]

def appendYourselfToBulkMutationsJsonObject (mutation : KeyValueStoreMutation) (key : Text)
    (bulkMutations : BulkMutations) : BulkMutations :=
  bulkMutations.insert key mutation.toMutationObject

def mutateCurrentStupidKeyValueContent (mutation : KeyValueStoreMutation) (key : Text)
    (currentData : CurrentData) : CurrentData :=
  match mutation with
  | add dataToAdd => currentData.insert key dataToAdd
  | modify newValue => currentData.insert key newValue
  | remove => currentData.erase key

end KeyValueStoreMutation

/-- `KeyValueStoreMutationFactory::createKeyValueStoreMutation`, which is fatal for other types. -/
def createKeyValueStoreMutation (mutationType mutationValue : Text) :
    Option KeyValueStoreMutation :=
  if mutationType = "add".toList then some (.add mutationValue)
  else if mutationType = "modify".toList then some (.modify mutationValue)
  else if mutationType = "remove".toList then some .remove
  else none

/-- The first member says which mutation it is. -/
def readMutation : MutationObject → Option KeyValueStoreMutation
  | [] => none
  | (mutationType, mutationValue) :: _ =>
      createKeyValueStoreMutation mutationType mutationValue.toString

/-- The data object of a timeline entry. -/
structure CommitData where
  commitMessage : Text
  mutations : BulkMutations

/-! ## The tracker -/

/-- The settings of the tracker.  The keys of the cache are the ones below its group. -/
structure Settings where
  haveCache : Bool := false
  cache : AList fun _ : Text => Text := ∅

/-- What is on the disk, and what is in the memory of the process.  `initialized` tells whether the
process has reported a successful `initialize`. -/
structure Tracker where
  settings : Settings := {}
  timeline : List CommitData := []
  currentData : CurrentData := ∅
  stagedKeyValueStoreMutation : AList (fun _ : Text => KeyValueStoreMutation) := ∅
  initialized : Bool := false

inductive Signal where
  | e (message : Text)
  | o (message : Text)
  | initializeFinished (success : Bool)
  | addFinished (success : Bool)
  | modifyFinished (success : Bool)
  | removeKeyFinished (success : Bool)
  | commitFinished (success : Bool)
  | readKeyFinished (success : Bool) (key revision data : Text)
  deriving DecidableEq

/-- What a new process starts with, and what it leaves if it stops without its destructor. -/
def newProcess (t : Tracker) : Tracker where
  settings := t.settings
  timeline := t.timeline

/-- `~StupidKeyValueContentTracker` -/
def destructor (t : Tracker) : Tracker :=
  newProcess { t with settings := { haveCache := true, cache := t.currentData } }

/-- `settings.childKeys()` in the group of the cache. -/
def childKeys (settings : Settings) : List Text := settings.cache.keys.filter ('/' ∉ ·)

/-- `settings.value(key).toString()` in the group of the cache. -/
def cacheValue (settings : Settings) (key : Text) : Text := (settings.cache.lookup key).getD []

def populateCurrentDataWithCache (settings : Settings) (currentData : CurrentData) : CurrentData :=
  (childKeys settings).foldl (fun current key => current.insert key (cacheValue settings key))
    currentData

/-- `none` stands for a process that has aborted. -/
def handleTimelineEntryRead (currentData : CurrentData) (data : CommitData) : Option CurrentData :=
  data.mutations.entries.foldlM (fun current entry =>
    (readMutation entry.2).map fun mutation =>
      mutation.mutateCurrentStupidKeyValueContent entry.1 current) currentData

def readTimeline (timeline : List CommitData) (currentData : CurrentData) : Option CurrentData :=
  timeline.foldlM handleTimelineEntryRead currentData

/-- `StupidKeyValueContentTracker::initialize` -/
def initializeTracker (t : Tracker) : Tracker × List Signal :=
  -- the cache is believed, whatever the timeline says
  if t.settings.haveCache then
    ({ t with
        currentData := populateCurrentDataWithCache t.settings t.currentData
        initialized := true },
      [.o "populated KeyValue store from cache".toList, .initializeFinished true])
  else match readTimeline t.timeline t.currentData with
    | none => (newProcess t, [])
    | some currentData =>
        ({ t with currentData := currentData, initialized := true },
          [.initializeFinished true,
            .o "populated KeyValue store by re-reading entire timeline".toList])

def keyAlreadyExists (key : Text) : Signal := .e ("key already exists: ".toList ++ key)

def keyDoesntExist (key : Text) : Signal := .e ("key doesn't exist: ".toList ++ key)

def alreadyMutating (key : Text) : Signal :=
  .e ("you are already mutating key '".toList ++ key ++ "', so commit first or unstage it".toList)

def stage (t : Tracker) (key : Text) (mutation : KeyValueStoreMutation) : Tracker :=
  { t with
    stagedKeyValueStoreMutation := t.stagedKeyValueStoreMutation.insert key mutation }

def add (t : Tracker) (key data : Text) : Tracker × List Signal :=
  if key ∈ t.currentData then (t, [keyAlreadyExists key, .addFinished false])
  else if key ∈ t.stagedKeyValueStoreMutation then (t, [alreadyMutating key, .addFinished false])
  else (stage t key (.add data), [.addFinished true])

def modify (t : Tracker) (key newValue : Text) : Tracker × List Signal :=
  if key ∉ t.currentData then (t, [keyDoesntExist key, .modifyFinished false])
  else if key ∈ t.stagedKeyValueStoreMutation then
    (t, [alreadyMutating key, .modifyFinished false])
  else (stage t key (.modify newValue), [.modifyFinished true])

def removeKey (t : Tracker) (key : Text) : Tracker × List Signal :=
  if key ∉ t.currentData then (t, [keyDoesntExist key, .removeKeyFinished false])
  else if key ∈ t.stagedKeyValueStoreMutation then
    (t, [alreadyMutating key, .removeKeyFinished false])
  else (stage t key .remove, [.removeKeyFinished true])

def populateCommitDataUsingStagedKeyValueStoreMutations (t : Tracker) : BulkMutations :=
  t.stagedKeyValueStoreMutation.entries.foldl (fun bulkMutations entry =>
    entry.2.appendYourselfToBulkMutationsJsonObject entry.1 bulkMutations) ∅

def applyStagedMutationsToCurrentData (t : Tracker) : CurrentData :=
  t.stagedKeyValueStoreMutation.entries.foldl (fun current entry =>
    entry.2.mutateCurrentStupidKeyValueContent entry.1 current) t.currentData

/-- The timeline appends the data object at once, and reports it. -/
def commit (t : Tracker) (commitMessage : Text) : Tracker × List Signal :=
  ({ t with
      timeline := t.timeline ++
        [⟨commitMessage, populateCommitDataUsingStagedKeyValueStoreMutations t⟩]
      currentData := applyStagedMutationsToCurrentData t
      stagedKeyValueStoreMutation := ∅ },
    [.o "successfully committed 'staged' key value store mutations".toList, .commitFinished true])

/-- What `readKey` answers, given what it finds under the key. -/
def readKeyResponse (key revision : Text) (found : Option Text) : List Signal :=
  if revision ≠ [] then [.readKeyFinished false [] [] []]
  else (if found = none then [.e ("key not found: '".toList ++ key ++ "'".toList)] else []) ++
    [.readKeyFinished found.isSome key revision (found.getD [])]

def readKey (t : Tracker) (key revision : Text) : Tracker × List Signal :=
  (t, readKeyResponse key revision (t.currentData.lookup key))

/-- What is asked of the tracker, and the end of its process with or without the destructor. -/
inductive Event where
  | initializeRequested
  | add (key data : Text)
  | modify (key newValue : Text)
  | removeKey (key : Text)
  | commit (commitMessage : Text)
  | readKey (key revision : Text)
  | restart (runsDestructor : Bool)

def handle (t : Tracker) : Event → Tracker × List Signal
  | .initializeRequested => initializeTracker t
  | .add key data => add t key data
  | .modify key newValue => modify t key newValue
  | .removeKey key => removeKey t key
  | .commit commitMessage => commit t commitMessage
  | .readKey key revision => readKey t key revision
  | .restart true => (destructor t, [])
  | .restart false => (newProcess t, [])

def step (t : Tracker) (event : Event) : Tracker := (handle t event).1

end Autobackup.ContentTracker
