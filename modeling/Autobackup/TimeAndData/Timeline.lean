import Autobackup.Foundation.AssociationList
import Autobackup.Foundation.HashChain
import Autobackup.Foundation.Machine
import Autobackup.Foundation.QString

/-!
# The timeline of time and data

`TimeAndData_Timeline` appends entries to a `QSettings` and reads them all back.  An entry is stored
under the hash of its JSON text, which holds the id of the entry before it, and the id of the latest
entry is stored beside them.  The reader follows the ids back to the root id, puts them on a stack,
and emits the entries from the root on.

What `QJsonDocument` and `QCryptographicHash` do is a parameter, and so are the data objects, which
the timeline does not look into.
-/

namespace Autobackup.TimeAndData

open QString HashChain

variable {Data : Type}

/-- What an entry's JSON object holds. -/
inductive JsonValue (Data : Type) where
  | string (text : Text)
  | object (data : Data)

namespace JsonValue

/-- `QJsonValue::toString` -/
def toString : JsonValue Data → Text
  | string text => text
  | object _ => []

/-- `QJsonValue::toObject`, for the data object that it gives when there is none. -/
def toObject (empty : Data) : JsonValue Data → Data
  | string _ => empty
  | object data => data

end JsonValue

abbrev JsonObject (Data : Type) := AList fun _ : Text => JsonValue Data

/-- The parts of Qt that the timeline rests on. -/
structure Qt (Data : Type) where
  /-- `QJsonDocument::toJson` -/
  toJson : JsonObject Data → Text
  /-- `QJsonDocument::fromJson`, and `errorString` where the text cannot be parsed. -/
  fromJson : Text → Except Text (JsonObject Data)
  /-- `QCryptographicHash::hash` with `Sha3_256`. -/
  sha3 : Text → List UInt8
  /-- The data object of the entry that the root id is made from. -/
  dummyObject : Data
  /-- A data object without members. -/
  emptyObject : Data

/-- `TimeAndDataAndParentId_TimelineEntry` -/
structure TimelineEntry (Data : Type) where
  time : Int64
  data : Data
  parentTimelineEntryId : Text
  deriving DecidableEq

def keyTime : Text := "time".toList

def keyData : Text := "data".toList

def keyParentTimelineEntryId : Text := "parentTimelineEntryId".toList

/-- `TimeAndDataAndParentId_TimelineEntry::toJsonObject` -/
def toJsonObject (entry : TimelineEntry Data) : JsonObject Data :=
  (((∅ : JsonObject Data).insert keyTime (.string (number entry.time.toInt))).insert
    keyData (.object entry.data)).insert
      keyParentTimelineEntryId (.string entry.parentTimelineEntryId)

variable (qt : Qt Data)

/-- `privateGenerateTimelineEntryId` -/
def timelineEntryId (entry : TimelineEntry Data) : Text :=
  toHex (qt.sha3 (qt.toJson (toJsonObject entry)))

/-- The id of an entry that is made up for it, with all digits 0. -/
def nullAkaEmptyAkaRootTimelineEntryId : Text :=
  let dummyEntry : TimelineEntry Data :=
    ⟨0, qt.dummyObject, "dummyParentTimelineEntryId".toList⟩
  List.replicate (timelineEntryId qt dummyEntry).length '0'

/-! ## The settings -/

abbrev Settings := AList fun _ : Text => Text

def group : Text := "TimeAndData_TimelineGroup/".toList

/-- The id of the latest entry, aka HEAD in git lingo. -/
def latestKey : Text := group ++ "latestTimelineEntryId".toList

def entryKey (id : Text) : Text := group ++ "timelineEntries/".toList ++ id

/-- `settings.value(key).toString()` -/
def value (settings : Settings) (key : Text) : Text := (settings.lookup key).getD []

def latestTimelineEntryId (settings : Settings) : Text :=
  (settings.lookup latestKey).getD (nullAkaEmptyAkaRootTimelineEntryId qt)

/-! ## Reading -/

/-- `parseJsonString`, with what it emits as an error. -/
def parseJsonString (text : Text) : Except Text (JsonObject Data) :=
  (qt.fromJson text).mapError fun errorString =>
    '\n' :: text ++ "\njson parse error: ".toList ++ errorString

/-- Where the parent is undefined, the entry is a child of the root. -/
def parsedParentTimelineEntryId (json : JsonObject Data) : Text :=
  ((json.lookup keyParentTimelineEntryId).map JsonValue.toString).getD
    (nullAkaEmptyAkaRootTimelineEntryId qt)

/-- `populateTimelineEntryFromJsonObject` -/
def populateTimelineEntryFromJsonObject (json : JsonObject Data) :
    Except Text (TimelineEntry Data) :=
  let timeString := ((json.lookup keyTime).map JsonValue.toString).getD []
  match toLongLong timeString with
  | none => .error ("timestamp parse error: ".toList ++ timeString)
  | some time =>
      .ok {
        time := Int64.ofInt time
        data := ((json.lookup keyData).map (JsonValue.toObject qt.emptyObject)).getD qt.emptyObject
        parentTimelineEntryId := parsedParentTimelineEntryId qt json }

/-- The parent that the stored entry names. -/
def storedParentTimelineEntryId (settings : Settings) (id : Text) : Except Text Text :=
  (parseJsonString qt (value settings (entryKey id))).map (parsedParentTimelineEntryId qt)

def storedTimelineEntry (settings : Settings) (id : Text) : Except Text (TimelineEntry Data) :=
  (parseJsonString qt (value settings (entryKey id))).bind
    (populateTimelineEntryFromJsonObject qt)

/-- The first loop of the reader pushes the ids on the stack.  `none` stands for a loop that has not
ended after so many iterations. -/
def pushTimelineEntryIds (settings : Settings) : ℕ → Text → List Text →
    Option (Except Text (List Text))
  | iterations, currentTimelineEntryId, timelineEntryIds =>
      if currentTimelineEntryId = nullAkaEmptyAkaRootTimelineEntryId qt then
        some (.ok timelineEntryIds)
      else match iterations with
        | 0 => none
        | iterations + 1 =>
            match storedParentTimelineEntryId qt settings currentTimelineEntryId with
            -- what is stored under the id is no JSON, or nothing is
            | .error message => some (.error message)
            | .ok parent =>
                pushTimelineEntryIds settings iterations parent
                  (currentTimelineEntryId :: timelineEntryIds)

inductive Signal (Data : Type) where
  | e (message : Text)
  | timelineEntryRead (timelineEntry : TimelineEntry Data)
  | readAndEmitAllTimelineEntriesFinished (success : Bool) (latestTimelineEntryId : Text)

/-- The second loop of the reader pops the ids, and what is emitted before it ends, with the result
that the request has then. -/
def popTimelineEntryIds (settings : Settings) : List Text → List (Signal Data) × Bool
  | [] => ([], true)
  | id :: timelineEntryIds =>
      match storedTimelineEntry qt settings id with
      | .error message => ([.e message], false)
      | .ok timelineEntry =>
          let rest := popTimelineEntryIds settings timelineEntryIds
          (.timelineEntryRead timelineEntry :: rest.1, rest.2)

/-- `readAndEmitAllTimelineEntriesInInLessEfficientForwardsChronologicalOrder`, with a bound on the
iterations of its first loop. -/
def readAndEmitAllTimelineEntries (settings : Settings) (iterations : ℕ) :
    Option (List (Signal Data)) :=
  let latest := latestTimelineEntryId qt settings
  if latest = nullAkaEmptyAkaRootTimelineEntryId qt then
    some [.readAndEmitAllTimelineEntriesFinished true latest]
  else match pushTimelineEntryIds qt settings iterations latest [] with
    | none => none
    | some (.error message) =>
        some [.e message, .readAndEmitAllTimelineEntriesFinished false latest]
    | some (.ok timelineEntryIds) =>
        let popped := popTimelineEntryIds qt settings timelineEntryIds
        some (popped.1 ++ [.readAndEmitAllTimelineEntriesFinished popped.2 latest])

/-! ## Appending -/

/-- The entry that an append makes. -/
def nextTimelineEntry (settings : Settings) (currentDateTimeUtc : Int64) (data : Data) :
    TimelineEntry Data where
  time := currentDateTimeUtc
  data := data
  parentTimelineEntryId := latestTimelineEntryId qt settings

/-- The settings that `appendJsonObjectToTimeline` leaves. -/
def appendJsonObjectToTimeline (settings : Settings) (currentDateTimeUtc : Int64) (data : Data) :
    Settings :=
  let timelineEntry := nextTimelineEntry qt settings currentDateTimeUtc data
  let id := timelineEntryId qt timelineEntry
  (settings.insert (entryKey id) (qt.toJson (toJsonObject timelineEntry))).insert latestKey id

/-- The settings, and the entries that were told to the callers in
`appendJsonObjectToTimelineFinished`. -/
structure Store (Data : Type) where
  settings : Settings := ∅
  appended : List (TimelineEntry Data) := []

inductive Event (Data : Type) where
  | append (currentDateTimeUtc : Int64) (data : Data)
  | restart

/-- A restart leaves the settings. -/
def step (store : Store Data) : Event Data → Store Data
  | .append currentDateTimeUtc data =>
      { settings := appendJsonObjectToTimeline qt store.settings currentDateTimeUtc data
        appended :=
          store.appended ++ [nextTimelineEntry qt store.settings currentDateTimeUtc data] }
  | .restart => store

def run (events : List (Event Data)) : Store Data := Machine.run (step qt) {} events

/-- The parent of the parent, so many steps back.  It is the definition that the reader is compared
with: no stack, and no bound on the steps. -/
def ancestor (settings : Settings) : ℕ → Text → Except Text Text
  | 0, id => .ok id
  | steps + 1, id => (storedParentTimelineEntryId qt settings id).bind (ancestor settings steps)

end Autobackup.TimeAndData
