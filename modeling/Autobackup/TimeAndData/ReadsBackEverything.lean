import Autobackup.TimeAndData.Timeline

/-!
# The timeline reads back everything that was appended

The appended entries are a chain that is linked by their ids, all of them are stored, and nothing
else is (`Chained`).  An append keeps this: its entry names the latest one as its parent, so its id
is new however often the clock has shown the same time.  The reader then finds each entry of the
chain, and the root after the last of them.

The hash is a parameter, and so is the JSON text of an entry; what is asked of them is that they
lose nothing.  Left out are errors of writing the settings, and the normalisation of their keys.
-/

namespace Autobackup.TimeAndData

open QString HashChain

variable {Data : Type} {qt : Qt Data} {settings : Settings} {store : Store Data}
  {entry : TimelineEntry Data} {entries : List (TimelineEntry Data)} {id : Text}

lemma entryKey_injective : Function.Injective entryKey := fun _ _ h => List.append_cancel_left h

lemma entryKey_ne_latestKey : entryKey id ≠ latestKey := fun h => by
  rw [entryKey, latestKey, List.append_assoc] at h
  have hrest := List.append_cancel_left h
  have hhead : some 't' = some 'l' := congrArg List.head? hrest
  exact absurd hhead (by decide)

/-! ## An entry that is stored -/

variable (qt) in
/-- The JSON text of the entry stands under its id. -/
def Stored (settings : Settings) (entry : TimelineEntry Data) : Prop :=
  settings.lookup (entryKey (timelineEntryId qt entry)) =
    some (qt.toJson (toJsonObject entry))

lemma parsedParentTimelineEntryId_toJsonObject :
    parsedParentTimelineEntryId qt (toJsonObject entry) = entry.parentTimelineEntryId := by
  have hlookup : (toJsonObject entry).lookup keyParentTimelineEntryId =
      some (.string entry.parentTimelineEntryId) := AList.lookup_insert _
  rw [parsedParentTimelineEntryId, hlookup]
  rfl

lemma isLongLong_toInt (time : Int64) : IsLongLong time.toInt :=
  ⟨time.le_toInt, time.toInt_lt⟩

lemma populateTimelineEntryFromJsonObject_toJsonObject :
    populateTimelineEntryFromJsonObject qt (toJsonObject entry) = .ok entry := by
  have htime : (toJsonObject entry).lookup keyTime = some (.string (number entry.time.toInt)) := by
    rw [toJsonObject, AList.lookup_insert_ne (by decide), AList.lookup_insert_ne (by decide),
      AList.lookup_insert]
  have hdata : (toJsonObject entry).lookup keyData = some (.object entry.data) := by
    rw [toJsonObject, AList.lookup_insert_ne (by decide), AList.lookup_insert]
  have hread : toLongLong (number entry.time.toInt) = some entry.time.toInt :=
    toLongLong_number_of_isLongLong (isLongLong_toInt entry.time)
  rw [populateTimelineEntryFromJsonObject, htime, hdata, parsedParentTimelineEntryId_toJsonObject]
  simp only [Option.map_some, Option.getD_some, JsonValue.toString, JsonValue.toObject, hread,
    Int64.ofInt_toInt]

section Reading

variable (hjson : ∀ entry, qt.fromJson (qt.toJson (toJsonObject entry)) = .ok (toJsonObject entry))

include hjson

lemma parseJsonString_of_stored (h : Stored qt settings entry) :
    parseJsonString qt (value settings (entryKey (timelineEntryId qt entry))) =
      .ok (toJsonObject entry) := by
  rw [value, h, Option.getD_some, parseJsonString, hjson]
  rfl

lemma storedParentTimelineEntryId_of_stored (h : Stored qt settings entry) :
    storedParentTimelineEntryId qt settings (timelineEntryId qt entry) =
      .ok entry.parentTimelineEntryId := by
  rw [storedParentTimelineEntryId, parseJsonString_of_stored hjson h]
  exact congrArg Except.ok parsedParentTimelineEntryId_toJsonObject

lemma storedTimelineEntry_of_stored (h : Stored qt settings entry) :
    storedTimelineEntry qt settings (timelineEntryId qt entry) = .ok entry := by
  rw [storedTimelineEntry, parseJsonString_of_stored hjson h]
  exact populateTimelineEntryFromJsonObject_toJsonObject

/-- The second loop emits the entries whose ids are on the stack. -/
lemma popTimelineEntryIds_of_stored (hstored : ∀ entry ∈ entries, Stored qt settings entry) :
    popTimelineEntryIds qt settings (entries.map (timelineEntryId qt)) =
      (entries.map .timelineEntryRead, true) := by
  induction entries with
  | nil => rfl
  | cons entry rest ih =>
      rw [List.map_cons, popTimelineEntryIds,
        storedTimelineEntry_of_stored hjson (hstored entry List.mem_cons_self),
        ih fun later hlater => hstored later (List.mem_cons_of_mem entry hlater)]
      rfl

variable (hroot : ∀ entry, timelineEntryId qt entry ≠ nullAkaEmptyAkaRootTimelineEntryId qt)

include hroot

/-- The first loop ends after an iteration for each entry of the chain, and the oldest of them is
on the top of the stack then. -/
lemma pushTimelineEntryIds_of_linked {iterations : ℕ} {timelineEntryIds : List Text}
    (hlinked : Linked (timelineEntryId qt) TimelineEntry.parentTimelineEntryId
      (nullAkaEmptyAkaRootTimelineEntryId qt) id entries)
    (hstored : ∀ entry ∈ entries, Stored qt settings entry)
    (hiterations : entries.length ≤ iterations) :
    pushTimelineEntryIds qt settings iterations id timelineEntryIds =
      some (.ok ((entries.map (timelineEntryId qt)).reverse ++ timelineEntryIds)) := by
  induction hlinked generalizing iterations timelineEntryIds with
  | root =>
      rw [pushTimelineEntryIds.eq_def]
      exact if_pos rfl
  | link entry h ih =>
      obtain ⟨iterations, rfl⟩ : ∃ n, iterations = n + 1 := ⟨iterations - 1, by
        rw [List.length_cons] at hiterations
        omega⟩
      rw [pushTimelineEntryIds, if_neg (hroot entry)]
      simp only [storedParentTimelineEntryId_of_stored hjson (hstored entry List.mem_cons_self)]
      rw [ih (fun later hlater => hstored later (List.mem_cons_of_mem entry hlater))
        (Nat.le_of_succ_le_succ hiterations)]
      simp

/-- So many steps back the rest of the chain is left. -/
lemma ancestor_of_linked {steps : ℕ}
    (hlinked : Linked (timelineEntryId qt) TimelineEntry.parentTimelineEntryId
      (nullAkaEmptyAkaRootTimelineEntryId qt) id entries)
    (hstored : ∀ entry ∈ entries, Stored qt settings entry) (hsteps : steps ≤ entries.length) :
    ∃ id', ancestor qt settings steps id = .ok id' ∧
      (id' = nullAkaEmptyAkaRootTimelineEntryId qt ↔ steps = entries.length) := by
  induction hlinked generalizing steps with
  | root =>
      obtain rfl : steps = 0 := Nat.le_zero.1 hsteps
      exact ⟨_, rfl, by simp⟩
  | link entry h ih =>
      cases steps with
      | zero => exact ⟨_, rfl, by simp [hroot entry]⟩
      | succ steps =>
          obtain ⟨id', hid', hiff⟩ := ih
            (fun later hlater => hstored later (List.mem_cons_of_mem entry hlater))
            (Nat.le_of_succ_le_succ hsteps)
          refine ⟨id', ?_, by rw [hiff, List.length_cons, Nat.succ_inj]⟩
          rw [ancestor, storedParentTimelineEntryId_of_stored hjson
            (hstored entry List.mem_cons_self)]
          exact hid'

end Reading

/-! ## The chain of the appended entries -/

variable (qt) in
/-- The appended entries are linked back from the latest one, and what is stored are they. -/
structure Chained (store : Store Data) : Prop where
  linked : Linked (timelineEntryId qt) TimelineEntry.parentTimelineEntryId
    (nullAkaEmptyAkaRootTimelineEntryId qt) (latestTimelineEntryId qt store.settings)
    store.appended.reverse
  stored : ∀ entry ∈ store.appended, Stored qt store.settings entry
  appended_of_lookup : ∀ id, store.settings.lookup (entryKey id) ≠ none →
    id ∈ store.appended.map (timelineEntryId qt)

lemma lookup_latestKey_append {time : Int64} {data : Data} :
    latestTimelineEntryId qt (appendJsonObjectToTimeline qt settings time data) =
      timelineEntryId qt (nextTimelineEntry qt settings time data) := by
  rw [latestTimelineEntryId, appendJsonObjectToTimeline, AList.lookup_insert, Option.getD_some]

lemma lookup_entryKey_append {time : Int64} {data : Data} :
    (appendJsonObjectToTimeline qt settings time data).lookup (entryKey id) =
      if id = timelineEntryId qt (nextTimelineEntry qt settings time data) then
        some (qt.toJson (toJsonObject (nextTimelineEntry qt settings time data)))
      else settings.lookup (entryKey id) := by
  rw [appendJsonObjectToTimeline, AList.lookup_insert_ne entryKey_ne_latestKey]
  split
  · next heq => rw [heq, AList.lookup_insert]
  · next hne => exact AList.lookup_insert_ne fun heq => hne (entryKey_injective heq)

section Appending

variable (hinj : Function.Injective (timelineEntryId qt))
  (hroot : ∀ entry, timelineEntryId qt entry ≠ nullAkaEmptyAkaRootTimelineEntryId qt)

lemma chained_empty : Chained qt ({} : Store Data) where
  linked := .root
  stored := fun _ h => absurd h List.not_mem_nil
  appended_of_lookup := fun _ h => absurd rfl h

include hinj hroot

/-- The id of the next entry is new: it is linked to all those before it. -/
lemma not_mem_of_chained (h : Chained qt store) (time : Int64) (data : Data) :
    timelineEntryId qt (nextTimelineEntry qt store.settings time data) ∉
      store.appended.map (timelineEntryId qt) := fun hmem => by
  have hlinked : Linked (timelineEntryId qt) _ _ _ (_ :: store.appended.reverse) :=
    .link (nextTimelineEntry qt store.settings time data) h.linked
  have hnew := (List.nodup_cons.1 (hlinked.nodup hinj hroot)).1
  rw [List.map_reverse] at hnew
  exact hnew (List.mem_reverse.2 hmem)

lemma chained_append (h : Chained qt store) (time : Int64) (data : Data) :
    Chained qt (step qt store (.append time data)) where
  linked := by
    change Linked _ _ _ (latestTimelineEntryId qt (appendJsonObjectToTimeline qt _ _ _))
      (List.reverse (_ ++ [_]))
    rw [lookup_latestKey_append, List.reverse_append]
    exact .link _ h.linked
  stored := fun entry hentry => by
    change (appendJsonObjectToTimeline qt _ _ _).lookup _ = _
    rw [lookup_entryKey_append]
    rcases List.mem_append.1 hentry with hold | hnew
    · have hne : timelineEntryId qt entry ≠
          timelineEntryId qt (nextTimelineEntry qt store.settings time data) := fun heq =>
        not_mem_of_chained hinj hroot h time data (heq ▸ List.mem_map_of_mem hold)
      rw [if_neg hne]
      exact h.stored entry hold
    · rw [List.mem_singleton.1 hnew, if_pos rfl]
  appended_of_lookup := fun id hid => by
    change (appendJsonObjectToTimeline qt _ _ _).lookup _ ≠ none at hid
    change id ∈ List.map _ (_ ++ [_])
    rw [List.map_append, List.mem_append, List.map_singleton, List.mem_singleton]
    rw [lookup_entryKey_append] at hid
    split at hid
    · next heq => exact .inr heq
    · exact .inl (h.appended_of_lookup id hid)

lemma chained_step (h : Chained qt store) : ∀ event, Chained qt (step qt store event)
  | .append time data => chained_append hinj hroot h time data
  | .restart => h

lemma chained_run (events : List (Event Data)) : Chained qt (run qt events) := by
  have hthroughout : Machine.HoldsThroughout (step qt) (Chained qt) {} events :=
    Machine.holdsThroughout_of_step (fun _ event h => chained_step hinj hroot h event)
      chained_empty
  exact hthroughout.run

end Appending

/-- The time and the data of an append. -/
def appendedOf : Event Data → Option (Int64 × Data)
  | .append time data => some (time, data)
  | .restart => none

lemma appended_run (events : List (Event Data)) :
    ((run qt events).appended.map fun entry => (entry.time, entry.data)) =
      events.filterMap appendedOf := by
  suffices h : ∀ store : Store Data,
      ((Machine.run (step qt) store events).appended.map fun entry => (entry.time, entry.data)) =
        (store.appended.map fun entry => (entry.time, entry.data)) ++
          events.filterMap appendedOf from h {}
  induction events with
  | nil => exact fun store => (List.append_nil _).symm
  | cons event rest ih =>
      intro store
      rw [Machine.run_cons, ih]
      cases event with
      | append time data => simp [step, nextTimelineEntry, appendedOf]
      | restart => rw [List.filterMap_cons_none rfl, step]

/-- **The timeline reads back everything appended.**  The appended entries hold the times and the
data of the calls in their order.  Their ids are pairwise distinct, the id of an append is not yet
stored, and all entries are stored in the end.  The parents lead from the latest id to the root id
in as many steps as there were appends, and with at least so many iterations the reader emits the
entries in the order in which they were appended, and success.

The reader is given how many iterations it may make, as the loop back to the root has no bound of
its own.  The clock may stand still or go back: what tells two entries apart is the parent that is
hashed with them. -/
theorem timeline_reads_back
    (hjson : ∀ entry, qt.fromJson (qt.toJson (toJsonObject entry)) = .ok (toJsonObject entry))
    (hinj : Function.Injective (timelineEntryId qt))
    (hroot : ∀ entry, timelineEntryId qt entry ≠ nullAkaEmptyAkaRootTimelineEntryId qt)
    (events : List (Event Data)) :
    ((run qt events).appended.map fun entry => (entry.time, entry.data)) =
        events.filterMap appendedOf ∧
      ((run qt events).appended.map (timelineEntryId qt)).Nodup ∧
      (∀ before time data after, events = before ++ .append time data :: after →
        (run qt before).settings.lookup (entryKey (timelineEntryId qt
          (nextTimelineEntry qt (run qt before).settings time data))) = none) ∧
      (∀ entry ∈ (run qt events).appended, (run qt events).settings.lookup
        (entryKey (timelineEntryId qt entry)) = some (qt.toJson (toJsonObject entry))) ∧
      (∀ steps ≤ (run qt events).appended.length, ∃ id,
        ancestor qt (run qt events).settings steps
          (latestTimelineEntryId qt (run qt events).settings) = .ok id ∧
        (id = nullAkaEmptyAkaRootTimelineEntryId qt ↔
          steps = (run qt events).appended.length)) ∧
      ∀ iterations, (run qt events).appended.length ≤ iterations →
        readAndEmitAllTimelineEntries qt (run qt events).settings iterations =
          some ((run qt events).appended.map .timelineEntryRead ++
            [.readAndEmitAllTimelineEntriesFinished true
              (latestTimelineEntryId qt (run qt events).settings)]) := by
  have hchained := chained_run hinj hroot events
  have hstored : ∀ entry ∈ (run qt events).appended.reverse,
      Stored qt (run qt events).settings entry :=
    fun entry hentry => hchained.stored entry (List.mem_reverse.1 hentry)
  refine ⟨appended_run events, ?_, ?_, hchained.stored, fun steps hsteps => ?_,
    fun iterations hiterations => ?_⟩
  · have hnodup := hchained.linked.nodup hinj hroot
    rwa [List.map_reverse, List.nodup_reverse] at hnodup
  · intro before time data after _
    have hbefore := chained_run hinj hroot before
    by_contra hne
    exact not_mem_of_chained hinj hroot hbefore time data (hbefore.appended_of_lookup _ hne)
  · obtain ⟨id, hid, hiff⟩ := ancestor_of_linked hjson hroot hchained.linked hstored
      (hsteps.trans_eq List.length_reverse.symm)
    exact ⟨id, hid, by rw [hiff, List.length_reverse]⟩
  · rw [readAndEmitAllTimelineEntries]
    have hpop := popTimelineEntryIds_of_stored hjson hchained.stored
    have hpush : pushTimelineEntryIds qt (run qt events).settings iterations
        (latestTimelineEntryId qt (run qt events).settings) [] =
          some (.ok ((run qt events).appended.map (timelineEntryId qt))) := by
      rw [pushTimelineEntryIds_of_linked hjson hroot hchained.linked hstored
        (List.length_reverse.trans_le hiterations), List.map_reverse, List.reverse_reverse,
        List.append_nil]
    split
    · next hlatest =>
        have hnil := (hchained.linked.eq_root_iff hroot).1 hlatest
        rw [List.reverse_eq_nil_iff] at hnil
        rw [hnil]
        rfl
    · rw [hpush]
      simp only [hpop]

/-! ### Entries without data -/

def plainStart : Text := "\x7b\"data\":\x7b\x7d,\"parentTimelineEntryId\":\"".toList

def plainMiddle : Text := "\",\"time\":\"".toList

def plainEnd : Text := "\"\x7d".toList

/-- The compact text of an entry without data. -/
def plainToJson (json : JsonObject Unit) : Text :=
  plainStart ++ (((json.lookup keyParentTimelineEntryId).map JsonValue.toString).getD [] ++
    (plainMiddle ++ (((json.lookup keyTime).map JsonValue.toString).getD [] ++ plainEnd)))

/-- The time stands between the last two quotes but one, and the parent in front of it. -/
def plainFromJson (text : Text) : Except Text (JsonObject Unit) :=
  let rest := ((text.drop plainStart.length).reverse).drop plainEnd.length
  let timeString := (rest.takeWhile (· ≠ '"')).reverse
  let parent := ((rest.dropWhile (· ≠ '"')).drop plainMiddle.length).reverse
  .ok (toJsonObject ⟨Int64.ofInt ((toLongLong timeString).getD 0), (), parent⟩)

def plainQt : Qt Unit where
  toJson := plainToJson
  fromJson := plainFromJson
  sha3 := fun text => text.flatMap String.utf8EncodeChar
  dummyObject := ()
  emptyObject := ()

lemma plainToJson_toJsonObject (entry : TimelineEntry Unit) :
    plainToJson (toJsonObject entry) = plainStart ++ (entry.parentTimelineEntryId ++
      (plainMiddle ++ (number entry.time.toInt ++ plainEnd))) := by
  have hparent : (toJsonObject entry).lookup keyParentTimelineEntryId =
      some (.string entry.parentTimelineEntryId) := AList.lookup_insert _
  have htime : (toJsonObject entry).lookup keyTime = some (.string (number entry.time.toInt)) := by
    rw [toJsonObject, AList.lookup_insert_ne (by decide), AList.lookup_insert_ne (by decide),
      AList.lookup_insert]
  rw [plainToJson, hparent, htime]
  rfl

lemma plainFromJson_plainToJson (entry : TimelineEntry Unit) :
    plainFromJson (plainToJson (toJsonObject entry)) = .ok (toJsonObject entry) := by
  have hdigits : ∀ c ∈ (number entry.time.toInt).reverse, (decide (c ≠ '"')) = true :=
    fun c hc => decide_eq_true fun hquote => by
      rw [hquote] at hc
      exact not_mem_number (by decide) (by decide) (List.mem_reverse.1 hc)
  rw [plainToJson_toJsonObject, plainFromJson]
  simp only [List.drop_left, List.reverse_append, List.append_assoc]
  rw [List.drop_left' (by simp), List.takeWhile_append_of_pos hdigits,
    List.dropWhile_append_of_pos hdigits]
  have hquote : plainMiddle.reverse = '"' :: plainMiddle.reverse.tail := by decide
  rw [hquote, List.cons_append, List.takeWhile_cons_of_neg (by decide),
    List.dropWhile_cons_of_neg (by decide), ← List.cons_append, ← hquote,
    List.drop_left' (by simp), List.append_nil, List.reverse_reverse, List.reverse_reverse,
    toLongLong_number_of_isLongLong (isLongLong_toInt entry.time), Option.getD_some,
    Int64.ofInt_toInt]

lemma utf8_injective : Function.Injective fun text : Text => text.flatMap String.utf8EncodeChar :=
  fun text text' h => by
    have hencode : text.utf8Encode = text'.utf8Encode := congrArg List.toByteArray h
    exact String.ofList_injective (String.toByteArray_inj.1 hencode)

lemma timelineEntryId_plainQt_injective : Function.Injective (timelineEntryId plainQt) :=
  fun entry entry' h => by
    have hbytes := congrArg fromHex h
    rw [timelineEntryId, timelineEntryId, fromHex_toHex, fromHex_toHex] at hbytes
    have htext : plainToJson (toJsonObject entry) = plainToJson (toJsonObject entry') :=
      utf8_injective hbytes
    have hjson := congrArg plainFromJson htext
    rw [plainFromJson_plainToJson, plainFromJson_plainToJson] at hjson
    have hread := congrArg (populateTimelineEntryFromJsonObject plainQt) (Except.ok.inj hjson)
    rw [populateTimelineEntryFromJsonObject_toJsonObject,
      populateTimelineEntryFromJsonObject_toJsonObject] at hread
    exact Except.ok.inj hread

/-- The text starts with a brace, and so the id with a 7. -/
lemma timelineEntryId_plainQt_ne_null (entry : TimelineEntry Unit) :
    timelineEntryId plainQt entry ≠ nullAkaEmptyAkaRootTimelineEntryId plainQt := fun h => by
  have hseven : '7' ∈ timelineEntryId plainQt entry := by
    change '7' ∈ toHex ((plainToJson (toJsonObject entry)).flatMap String.utf8EncodeChar)
    rw [plainToJson_toJsonObject, List.flatMap_append, toHex, List.flatMap_append]
    exact List.mem_append_left _ (by decide)
  rw [h] at hseven
  exact absurd (List.eq_of_mem_replicate hseven) (by decide)

/-- Three entries, two of which are made at the same time and one at an earlier one. -/
def plainEvents : List (Event Unit) := [.append 5 (), .append 5 (), .restart, .append (-3) ()]

theorem timeline_reads_back_plain :
    ((run plainQt plainEvents).appended.map (timelineEntryId plainQt)).Nodup ∧
      readAndEmitAllTimelineEntries plainQt (run plainQt plainEvents).settings 3 =
        some ((run plainQt plainEvents).appended.map .timelineEntryRead ++
          [.readAndEmitAllTimelineEntriesFinished true
            (latestTimelineEntryId plainQt (run plainQt plainEvents).settings)]) := by
  have h := timeline_reads_back plainFromJson_plainToJson timelineEntryId_plainQt_injective
    timelineEntryId_plainQt_ne_null plainEvents
  exact ⟨h.2.1, h.2.2.2.2.2 3 (Nat.le_refl 3)⟩

end Autobackup.TimeAndData
