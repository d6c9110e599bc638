import Autobackup.ContentTracker.Tracker

/-!
# The tracker and the replay of its timeline

What the timeline says of a key is what the last mutation of the key in it says
(`committedValue`).  In every run the memory holds nothing else, and all of it after an `initialize`
that has read the timeline.  The cache is never compared with the timeline: after an `initialize`
that has read the cache, the memory agrees with the timeline if and only if the cache was in step
with it (`CacheInStep`).

A process may end and a new one begin at any point of a run, with the settings kept; whether the
next `initialize` reads the timeline or the cache is decided as in the source, by what the settings
say.  Left out are failures of writing the settings, and the normalisation of their keys.
-/

namespace Autobackup.ContentTracker

open QString AssociationList

variable {t : Tracker} {event : Event} {key value : Text} {timeline : List CommitData}
  {data : CommitData} {currentData : CurrentData}

/-! ## What the timeline says of a key -/

/-- The value that a mutation leaves. -/
def KeyValueStoreMutation.effect : KeyValueStoreMutation → Option Text
  | add dataToAdd => some dataToAdd
  | modify newValue => some newValue
  | remove => none

def objectEffect (object : MutationObject) : Option Text :=
  (readMutation object).bind KeyValueStoreMutation.effect

/-- The value of a key after the commits of a timeline. -/
def valueAfter (timeline : List CommitData) (key : Text) (value : Option Text) : Option Text :=
  timeline.foldl (fun value data => (data.mutations.lookup key).elim value objectEffect) value

def committedValue (timeline : List CommitData) (key : Text) : Option Text :=
  valueAfter timeline key none

/-- All objects of the commit say which mutation they are. -/
def Readable (data : CommitData) : Prop :=
  ∀ entry ∈ data.mutations.entries, (readMutation entry.2).isSome

lemma valueAfter_append {value : Option Text} :
    valueAfter (timeline ++ [data]) key value =
      (data.mutations.lookup key).elim (valueAfter timeline key value) objectEffect := by
  rw [valueAfter, List.foldl_append]
  rfl

/-- A timeline sets a key, or it leaves it. -/
lemma valueAfter_or (timeline : List CommitData) (key : Text) :
    (∀ value, valueAfter timeline key value = committedValue timeline key) ∨
      ∀ value, valueAfter timeline key value = value := by
  induction timeline using List.reverseRecOn with
  | nil => exact .inr fun _ => rfl
  | append_singleton timeline data ih =>
      simp only [committedValue, valueAfter_append] at ih ⊢
      cases data.mutations.lookup key with
      | some object => exact .inl fun _ => rfl
      | none => exact ih

/-- Reading the timeline again changes nothing. -/
lemma valueAfter_of_within {value : Option Text}
    (h : ∀ v, value = some v → committedValue timeline key = some v) :
    valueAfter timeline key value = committedValue timeline key := by
  rcases valueAfter_or timeline key with hset | hleft
  · exact hset value
  · rw [hleft]
    cases value with
    | none => exact (hleft none).symm
    | some v => exact (h v rfl).symm

/-! ## Applying mutations -/

lemma lookup_mutateCurrentStupidKeyValueContent (mutation : KeyValueStoreMutation)
    (currentData : CurrentData) (key key' : Text) :
    (mutation.mutateCurrentStupidKeyValueContent key currentData).lookup key' =
      if key' = key then mutation.effect else currentData.lookup key' := by
  by_cases hkey : key' = key
  · subst hkey
    rw [if_pos rfl]
    cases mutation with
    | add dataToAdd => exact AList.lookup_insert _
    | modify newValue => exact AList.lookup_insert _
    | remove => exact AList.lookup_erase _ _
  · rw [if_neg hkey]
    cases mutation with
    | add dataToAdd => exact AList.lookup_insert_ne hkey
    | modify newValue => exact AList.lookup_insert_ne hkey
    | remove => exact AList.lookup_erase_ne hkey

lemma readMutation_toMutationObject (mutation : KeyValueStoreMutation) :
    readMutation mutation.toMutationObject = some mutation := by
  cases mutation with
  | add dataToAdd => rfl
  | modify newValue => rfl
  | remove => rfl

lemma objectEffect_toMutationObject (mutation : KeyValueStoreMutation) :
    objectEffect mutation.toMutationObject = mutation.effect := by
  rw [objectEffect, readMutation_toMutationObject]
  rfl

/-- A timeline entry sets the keys that it holds. -/
lemma handleTimelineEntryRead_of_readable (hdata : Readable data) (currentData : CurrentData) :
    ∃ current, handleTimelineEntryRead currentData data = some current ∧ ∀ key,
      current.lookup key =
        (data.mutations.lookup key).elim (currentData.lookup key) objectEffect := by
  refine exists_foldlM_entries (fun current key object => (readMutation object).map
    (·.mutateCurrentStupidKeyValueContent key current)) (fun entry hentry current => ?_)
    data.mutations.nodupKeys currentData
  obtain ⟨mutation, hmutation⟩ := Option.isSome_iff_exists.1 (hdata entry hentry)
  refine ⟨_, congrArg (Option.map _) hmutation, fun key => ?_⟩
  rw [lookup_mutateCurrentStupidKeyValueContent, objectEffect, hmutation]
  rfl

lemma readTimeline_of_readable (htimeline : ∀ data ∈ timeline, Readable data)
    (currentData : CurrentData) :
    ∃ current, readTimeline timeline currentData = some current ∧ ∀ key,
      current.lookup key = valueAfter timeline key (currentData.lookup key) := by
  induction timeline generalizing currentData with
  | nil => exact ⟨currentData, rfl, fun _ => rfl⟩
  | cons data rest ih =>
      obtain ⟨hdata, hrest⟩ := List.forall_mem_cons.1 htimeline
      obtain ⟨next, hnext, hlookupNext⟩ := handleTimelineEntryRead_of_readable hdata currentData
      obtain ⟨current, hcurrent, hlookup⟩ := ih hrest next
      refine ⟨current, by rw [readTimeline, List.foldlM_cons, hnext]; exact hcurrent, fun key => ?_⟩
      rw [hlookup, hlookupNext]
      rfl

/-- What is appended to the timeline says of every key what is staged for it. -/
lemma lookup_populateCommitData :
    (populateCommitDataUsingStagedKeyValueStoreMutations t).lookup key =
      (t.stagedKeyValueStoreMutation.lookup key).map KeyValueStoreMutation.toMutationObject := by
  have hupdate : ∀ (bulkMutations : BulkMutations) (key : Text) (mutation : KeyValueStoreMutation)
      (key' : Text), (mutation.appendYourselfToBulkMutationsJsonObject key bulkMutations).lookup
        key' = if key' = key then some mutation.toMutationObject
          else bulkMutations.lookup key' := by
    intro bulkMutations key mutation key'
    by_cases hkey : key' = key
    · rw [hkey, if_pos rfl]
      exact AList.lookup_insert _
    · rw [if_neg hkey]
      exact AList.lookup_insert_ne hkey
  rw [populateCommitDataUsingStagedKeyValueStoreMutations, lookup_foldl_entries
    (fun bulkMutations key mutation =>
      mutation.appendYourselfToBulkMutationsJsonObject key bulkMutations)
    hupdate t.stagedKeyValueStoreMutation.nodupKeys ∅]
  change (t.stagedKeyValueStoreMutation.lookup key).elim none _ = _
  cases t.stagedKeyValueStoreMutation.lookup key <;> rfl

lemma lookup_applyStagedMutationsToCurrentData :
    (applyStagedMutationsToCurrentData t).lookup key =
      (t.stagedKeyValueStoreMutation.lookup key).elim (t.currentData.lookup key)
        KeyValueStoreMutation.effect :=
  lookup_foldl_entries (fun current key mutation =>
    mutation.mutateCurrentStupidKeyValueContent key current)
    (fun current key mutation => lookup_mutateCurrentStupidKeyValueContent mutation current key)
    t.stagedKeyValueStoreMutation.nodupKeys t.currentData

lemma readable_populateCommitData (commitMessage : Text) :
    Readable ⟨commitMessage, populateCommitDataUsingStagedKeyValueStoreMutations t⟩ := by
  rintro ⟨key, object⟩ hentry
  have hlookup := mem_entries.1 hentry
  rw [lookup_populateCommitData] at hlookup
  obtain ⟨mutation, -, rfl⟩ := Option.map_eq_some_iff.1 hlookup
  rw [readMutation_toMutationObject]
  rfl

/-- A commit does the same to the timeline and to the memory. -/
lemma committedValue_commit {commitMessage : Text} :
    committedValue (commit t commitMessage).1.timeline key =
      (t.stagedKeyValueStoreMutation.lookup key).elim (committedValue t.timeline key)
        KeyValueStoreMutation.effect := by
  rw [committedValue, commit, valueAfter_append, lookup_populateCommitData]
  cases t.stagedKeyValueStoreMutation.lookup key with
  | none => rfl
  | some mutation => exact objectEffect_toMutationObject mutation

lemma lookup_populateCurrentDataWithCache {settings : Settings} :
    (populateCurrentDataWithCache settings currentData).lookup key =
      if key ∈ childKeys settings then some (cacheValue settings key)
      else currentData.lookup key := by
  rw [populateCurrentDataWithCache, lookup_foldl_insert]
  congr

/-! ## Runs -/

/-- After a successful `initialize` the memory is the replay of the timeline, and `readKey` answers
from it.  An `initialize` that fails to read the timeline promises nothing, and neither does a
tracker that was not initialized. -/
def AnswersFromTimeline (t : Tracker) : Prop :=
  t.initialized → ∃ replayed, readTimeline t.timeline ∅ = some replayed ∧
    (∀ key, t.currentData.lookup key = replayed.lookup key) ∧
    ∀ key, (readKey t key []).2 = readKeyResponse key [] (replayed.lookup key)

/-- No `initialize` takes its data from a cache that is out of step with the timeline: the values of
the child keys of the cache are the ones of the timeline, and what else the timeline holds is in the
memory. -/
def CacheInStep (t : Tracker) : Event → Prop
  | .initializeRequested => t.settings.haveCache →
      (∀ key ∈ childKeys t.settings,
        committedValue t.timeline key = some (cacheValue t.settings key)) ∧
      ∀ key ∉ childKeys t.settings, committedValue t.timeline key ≠ none →
        t.currentData.lookup key = committedValue t.timeline key
  | _ => True

/-- The timeline can be read, and the memory holds nothing that is not in it. -/
structure Traced (t : Tracker) : Prop where
  readable : ∀ data ∈ t.timeline, Readable data
  within : ∀ key value, t.currentData.lookup key = some value →
    committedValue t.timeline key = some value

lemma answersFromTimeline_iff_forall (h : Traced t) : AnswersFromTimeline t ↔
    (t.initialized → ∀ key, t.currentData.lookup key = committedValue t.timeline key) := by
  obtain ⟨replayed, hreplayed, hlookup⟩ := readTimeline_of_readable h.readable ∅
  refine imp_congr_right fun _ =>
    ⟨?_, fun hsame => ⟨replayed, hreplayed, fun key => ?_, fun key => ?_⟩⟩
  · rintro ⟨replayed', hreplayed', hsame, -⟩ key
    obtain rfl : replayed' = replayed := Option.some.inj (hreplayed'.symm.trans hreplayed)
    rw [hsame, hlookup]
    rfl
  · rw [hsame, hlookup]
    rfl
  · rw [hlookup, readKey, hsame]
    rfl

lemma traced_newProcess (h : Traced t) : Traced (newProcess t) where
  readable := h.readable
  within := fun _ _ hvalue => absurd hvalue (Option.some_ne_none _).symm

/-- Requests that at most stage a mutation. -/
lemma stages_step (h : event ≠ .initializeRequested) (hcommit : ∀ message, event ≠ .commit message)
    (hrestart : ∀ b, event ≠ .restart b) :
    ∃ staged, step t event = { t with stagedKeyValueStoreMutation := staged } := by
  cases event with
  | initializeRequested => exact absurd rfl h
  | commit message => exact absurd rfl (hcommit message)
  | restart b => exact absurd rfl (hrestart b)
  | readKey key revision => exact ⟨t.stagedKeyValueStoreMutation, rfl⟩
  | add key data =>
      change ∃ _, (add t key data).1 = _
      unfold add
      split_ifs <;> exact ⟨_, rfl⟩
  | modify key newValue =>
      change ∃ _, (modify t key newValue).1 = _
      unfold modify
      split_ifs <;> exact ⟨_, rfl⟩
  | removeKey key =>
      change ∃ _, (removeKey t key).1 = _
      unfold removeKey
      split_ifs <;> exact ⟨_, rfl⟩

lemma commit_step (h : Traced t) (message : Text) : Traced (step t (.commit message)) ∧
    (AnswersFromTimeline t → AnswersFromTimeline (step t (.commit message))) := by
  have hlookup : ∀ key, (step t (.commit message)).currentData.lookup key =
      (t.stagedKeyValueStoreMutation.lookup key).elim (t.currentData.lookup key)
        KeyValueStoreMutation.effect := fun _ => lookup_applyStagedMutationsToCurrentData
  have hcommitted : ∀ key, committedValue (step t (.commit message)).timeline key =
      (t.stagedKeyValueStoreMutation.lookup key).elim (committedValue t.timeline key)
        KeyValueStoreMutation.effect := fun _ => committedValue_commit
  have htraced : Traced (step t (.commit message)) := by
    refine ⟨fun data hdata => ?_, fun key value hvalue => ?_⟩
    · rcases List.mem_append.1 hdata with hold | hnew
      · exact h.readable data hold
      · rw [List.mem_singleton.1 hnew]
        exact readable_populateCommitData message
    · rw [hlookup] at hvalue
      rw [hcommitted]
      cases hstaged : t.stagedKeyValueStoreMutation.lookup key with
      | none =>
          rw [hstaged] at hvalue
          exact h.within key value hvalue
      | some mutation =>
          rw [hstaged] at hvalue
          exact hvalue
  refine ⟨htraced, fun hanswers => ?_⟩
  rw [answersFromTimeline_iff_forall h] at hanswers
  rw [answersFromTimeline_iff_forall htraced]
  intro hinitialized key
  rw [hlookup, hcommitted, hanswers hinitialized]

/-- An `initialize` that reads the timeline puts all of it into the memory. -/
lemma initialize_step_of_timeline (h : Traced t) (hcache : t.settings.haveCache = false) :
    Traced (step t .initializeRequested) ∧ AnswersFromTimeline (step t .initializeRequested) := by
  obtain ⟨current, hcurrent, hlookup⟩ := readTimeline_of_readable h.readable t.currentData
  have hstep : step t .initializeRequested =
      { t with currentData := current, initialized := true } := by
    change (initializeTracker t).1 = _
    simp [initializeTracker, hcache, hcurrent]
  have hsame : ∀ key, current.lookup key = committedValue t.timeline key := fun key => by
    rw [hlookup]
    exact valueAfter_of_within (h.within key)
  have htraced : Traced (step t .initializeRequested) := by
    rw [hstep]
    exact ⟨h.readable, fun key value hvalue => (hsame key).symm.trans hvalue⟩
  refine ⟨htraced, (answersFromTimeline_iff_forall htraced).2 fun _ key => ?_⟩
  rw [hstep]
  exact hsame key

/-- With a cache the memory is what the timeline says if and only if the cache is in step. -/
lemma initialize_step_of_cache (h : Traced t) (hcache : t.settings.haveCache) :
    (∀ key, (step t .initializeRequested).currentData.lookup key =
      committedValue t.timeline key) ↔ CacheInStep t .initializeRequested := by
  have hlookup : ∀ key, (step t .initializeRequested).currentData.lookup key =
      if key ∈ childKeys t.settings then some (cacheValue t.settings key)
      else t.currentData.lookup key := fun key => by
    change (initializeTracker t).1.currentData.lookup key = _
    rw [initializeTracker, if_pos hcache]
    exact lookup_populateCurrentDataWithCache
  simp only [hlookup, CacheInStep, hcache, true_imp_iff]
  constructor
  · intro hsame
    refine ⟨fun key hkey => ?_, fun key hkey _ => ?_⟩
    · rw [← hsame, if_pos hkey]
    · rw [← hsame, if_neg hkey]
  · rintro ⟨hcached, hother⟩ key
    split_ifs with hkey
    · exact (hcached key hkey).symm
    · by_cases hnone : committedValue t.timeline key = none
      · rw [hnone, Option.eq_none_iff_forall_ne_some]
        exact fun value hvalue =>
          Option.some_ne_none _ ((h.within key value hvalue).symm.trans hnone)
      · exact hother key hkey hnone

lemma initialize_step (h : Traced t) :
    (CacheInStep t .initializeRequested → Traced (step t .initializeRequested)) ∧
      (AnswersFromTimeline (step t .initializeRequested) ↔
        CacheInStep t .initializeRequested) := by
  cases hcache : t.settings.haveCache with
  | false =>
      obtain ⟨htraced, hanswers⟩ := initialize_step_of_timeline h hcache
      refine ⟨fun _ => htraced, iff_of_true hanswers fun hhave => ?_⟩
      rw [hcache] at hhave
      cases hhave
  | true =>
      have hiff := initialize_step_of_cache h hcache
      have hstep : (step t .initializeRequested).timeline = t.timeline ∧
          (step t .initializeRequested).initialized = true := by
        change (initializeTracker t).1.timeline = _ ∧ (initializeTracker t).1.initialized = _
        rw [initializeTracker, if_pos hcache]
        exact ⟨rfl, rfl⟩
      have htraced (hsame : ∀ key, (step t .initializeRequested).currentData.lookup key =
          committedValue t.timeline key) : Traced (step t .initializeRequested) := by
        refine ⟨?_, fun key value hvalue => ?_⟩
        · rw [hstep.1]
          exact h.readable
        · rw [hstep.1, ← hsame, hvalue]
      refine ⟨fun hok => htraced (hiff.2 hok), ?_⟩
      rw [← hiff]
      constructor
      · intro hanswers
        obtain ⟨replayed, hreplayed, hsame, -⟩ := hanswers hstep.2
        rw [hstep.1] at hreplayed
        obtain ⟨replayed', hreplayed', hlookup⟩ := readTimeline_of_readable h.readable ∅
        obtain rfl : replayed = replayed' := Option.some.inj (hreplayed.symm.trans hreplayed')
        exact fun key => (hsame key).trans (hlookup key)
      · intro hsame
        rw [answersFromTimeline_iff_forall (htraced hsame), hstep.1]
        exact fun _ => hsame

lemma restart_step (h : Traced t) (runsDestructor : Bool) :
    Traced (step t (.restart runsDestructor)) ∧
      AnswersFromTimeline (step t (.restart runsDestructor)) := by
  have hno : (step t (.restart runsDestructor)).initialized = false := by
    cases runsDestructor <;> rfl
  have htraced : Traced (step t (.restart runsDestructor)) := by
    cases runsDestructor with
    | false => exact traced_newProcess h
    | true => exact ⟨h.readable, (traced_newProcess h).within⟩
  refine ⟨htraced, fun hinitialized => ?_⟩
  rw [hno] at hinitialized
  cases hinitialized

/-- What one step preserves, and when it keeps the answers right. -/
lemma traced_step (h : Traced t) (hanswers : AnswersFromTimeline t) (event : Event) :
    (CacheInStep t event → Traced (step t event)) ∧
      (AnswersFromTimeline (step t event) ↔ CacheInStep t event) := by
  by_cases hinit : event = .initializeRequested
  · rw [hinit]
    exact initialize_step h
  have hok : CacheInStep t event := by
    cases event with
    | initializeRequested => exact absurd rfl hinit
    | _ => exact trivial
  suffices hall : Traced (step t event) ∧ AnswersFromTimeline (step t event) from
    ⟨fun _ => hall.1, iff_of_true hall.2 hok⟩
  by_cases hcommit : ∃ message, event = .commit message
  · obtain ⟨message, rfl⟩ := hcommit
    exact ⟨(commit_step h message).1, (commit_step h message).2 hanswers⟩
  by_cases hrestart : ∃ b, event = .restart b
  · obtain ⟨b, rfl⟩ := hrestart
    exact restart_step h b
  obtain ⟨staged, hstaged⟩ := stages_step (t := t) hinit (fun message hm => hcommit ⟨message, hm⟩)
    fun b hb => hrestart ⟨b, hb⟩
  rw [hstaged]
  exact ⟨⟨h.readable, h.within⟩, hanswers⟩

/-- **The tracker answers from its timeline, as long as no cache out of step is taken.**  In a run
from the first start on, the memory is the replay of the timeline after every successful
`initialize` and ever after it, if and only if every `initialize` that finds a cache finds one that
is in step with the timeline.

The cache is written when the tracker is destroyed, and taken whenever there is one.  What a process
has committed that was killed is in the timeline and not in the cache, and a key with a slash is not
among the keys of the cache's group; a tracker that starts then answers from what it does not have.
-/
theorem answersFromTimeline_iff (events : List Event) :
    Machine.HoldsThroughout step AnswersFromTimeline {} events ↔
      Machine.StaysWithin step CacheInStep {} events :=
  Machine.holdsThroughout_iff_staysWithin (fun _ => True) (I := Traced)
    (fun _ event _ htraced hanswers hok => (traced_step htraced hanswers event).1 hok)
    (fun _ event _ htraced hanswers => (traced_step htraced hanswers event).2)
    (fun _ _ => trivial)
    ⟨fun _ h => absurd h List.not_mem_nil, fun _ _ h => absurd h (Option.some_ne_none _).symm⟩
    fun h => absurd h Bool.false_ne_true

/-- A process modifies a key that the cache has, and stops without its destructor.  The next one
takes the value from the cache. -/
def staleCache : List Event :=
  [.initializeRequested, .add "a".toList "1".toList, .commit [], .restart true,
    .initializeRequested, .modify "a".toList "2".toList, .commit [], .restart false,
    .initializeRequested]

theorem not_answersFromTimeline_staleCache :
    ¬∀ events, Machine.HoldsThroughout step AnswersFromTimeline {} events := fun h => by
  obtain ⟨replayed, hreplayed, hsame, -⟩ := (h staleCache).run (by decide)
  have htimeline : (readTimeline (Machine.run step {} staleCache).timeline ∅).map
      (AList.lookup "a".toList) = some (some "2".toList) := by decide
  have hmemory : (Machine.run step {} staleCache).currentData.lookup "a".toList =
      some "1".toList := by decide
  rw [hreplayed, Option.map_some, ← hsame, hmemory] at htimeline
  exact absurd htimeline (by decide)

/-! ## Caches that are in step -/

/-- The cache of an orderly exit is in step, unless a key has a slash. -/
theorem cacheInStep_destructor (htraced : Traced t) (hanswers : AnswersFromTimeline t)
    (hinitialized : t.initialized) (hslash : ∀ key ∈ t.currentData, '/' ∉ key) :
    CacheInStep (destructor t) .initializeRequested := by
  have hsame := (answersFromTimeline_iff_forall htraced).1 hanswers hinitialized
  have hchild : ∀ key, key ∈ childKeys (destructor t).settings ↔ key ∈ t.currentData := by
    intro key
    change key ∈ t.currentData.keys.filter _ ↔ _
    rw [List.mem_filter, decide_eq_true_iff]
    exact ⟨fun h => h.1, fun h => ⟨h, hslash key h⟩⟩
  refine fun _ => ⟨fun key hkey => ?_, fun key hkey hcommitted => ?_⟩
  · obtain ⟨value, hvalue⟩ := Option.isSome_iff_exists.1
      (AList.lookup_isSome.2 ((hchild key).1 hkey))
    change committedValue t.timeline key = some ((t.currentData.lookup key).getD [])
    rw [← hsame, hvalue]
    rfl
  · refine absurd ?_ hcommitted
    change committedValue t.timeline key = none
    rw [← hsame, AList.lookup_eq_none]
    exact fun hmem => hkey ((hchild key).2 hmem)

/-- A key with a slash is lost in every process that starts from the cache. -/
theorem not_cacheInStep_of_slash (hcache : t.settings.haveCache) (hslash : '/' ∈ key)
    (hcommitted : committedValue t.timeline key ≠ none) :
    ¬CacheInStep (newProcess t) .initializeRequested := fun h => by
  have hchild : key ∉ childKeys t.settings := fun hmem =>
    of_decide_eq_true (List.mem_filter.1 hmem).2 hslash
  exact hcommitted ((h hcache).2 key hchild hcommitted).symm

end Autobackup.ContentTracker
