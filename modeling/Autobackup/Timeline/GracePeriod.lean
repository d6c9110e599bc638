import Autobackup.Foundation.Machine

/-!
# What was published stays for its readers

A `LastModifiedTimestampsAndPaths` that is replaced is queued, and one timer deletes those in the
queue one after the other.  It is started for the first of them and again for each that is first
afterwards, which by then has waited for as long as the timer runs and longer.

Time is counted in milliseconds, and a timer times out at any moment from its deadline on.  The one
of the source is coarse, as timers are unless something else is asked for, and may then be up to
five percent early: its five minutes are to be read as four and three quarters.

Readers are not in the model.  A page that has taken the pointer reads it within its request, and
the grace period is what is promised to it.  Shutting down deletes everything at once, and what is
deleted then is exempt.
-/

namespace Autobackup.Timeline

/-- Which `LastModifiedTimestampsAndPaths` it is: how many were made before. -/
abbrev ObjectId := ℕ

/-- `delete` -/
structure Deletion where
  object : ObjectId
  time : ℕ
  /-- What readers get at the time. -/
  current : Option ObjectId
  shuttingDown : Bool
  deriving DecidableEq, Repr

/-- The objects of a `LastModifiedTimestampsWatcher`. -/
structure Publisher where
  currentTimestampsAndPathsAtomicPointer : Option ObjectId := none
  timestampsAndPathsQueuedForDelete : List ObjectId := []
  /-- When it times out, if it is started. -/
  deleteInFiveMinsTimer : Option ℕ := none
  now : ℕ := 0
  made : ℕ := 0
  shutDown : Bool := false
  deleted : List Deletion := []
  /-- When what was current was replaced.  The source does not keep it. -/
  replaced : List (ObjectId × ℕ) := []

def fiveMins : ℕ := 5 * (1000 * 60)

namespace Publisher

inductive Event
  | elapse (duration : ℕ)
  /-- Something is to be published, with an empty list or not. -/
  | publish (isEmpty : Bool)
  | timeOut
  /-- The destructor. -/
  | shutDown

def startTimer (st : Publisher) : Publisher :=
  { st with deleteInFiveMinsTimer := some (st.now + fiveMins) }

def delete (st : Publisher) (object : ObjectId) (shuttingDown : Bool) : Publisher :=
  { st with
    deleted := st.deleted ++
      [⟨object, st.now, st.currentTimestampsAndPathsAtomicPointer, shuttingDown⟩] }

def deleteOneTimestampAndPathQueuedForDelete (st : Publisher) (shuttingDown : Bool) : Publisher :=
  match st.timestampsAndPathsQueuedForDelete with
  | [] => st
  | object :: rest =>
      { st with timestampsAndPathsQueuedForDelete := rest }.delete object shuttingDown

lemma deleteOne_eq (st : Publisher) {object : ObjectId} {rest : List ObjectId}
    (hqueue : st.timestampsAndPathsQueuedForDelete = object :: rest) (shuttingDown : Bool) :
    st.deleteOneTimestampAndPathQueuedForDelete shuttingDown =
      { st with timestampsAndPathsQueuedForDelete := rest }.delete object shuttingDown := by
  unfold deleteOneTimestampAndPathQueuedForDelete
  rw [hqueue]

/-- The end of `combineAndPublishLastModifiedTimestampsFiles`. -/
def publish (st : Publisher) (isEmpty : Bool) : Publisher :=
  let new := st.made
  let st := { st with made := st.made + 1 }
  if isEmpty then st.delete new false
  else
    let old := st.currentTimestampsAndPathsAtomicPointer
    let st := { st with currentTimestampsAndPathsAtomicPointer := some new }
    match old with
    | none => st
    | some old =>
        -- the timer runs for the first of the queue
        let st := if st.timestampsAndPathsQueuedForDelete = [] then st.startTimer else st
        { st with
          timestampsAndPathsQueuedForDelete := st.timestampsAndPathsQueuedForDelete ++ [old]
          replaced := st.replaced ++ [(old, st.now)] }

def handleDeleteInFiveMinsTimerTimedOut (st : Publisher) : Publisher :=
  if st.timestampsAndPathsQueuedForDelete = [] then st
  else
    let st := st.deleteOneTimestampAndPathQueuedForDelete false
    if st.timestampsAndPathsQueuedForDelete = [] then st else st.startTimer

/-- The queue is deleted from its front, and then what is current. -/
def destroy (st : Publisher) : Publisher :=
  let st : Publisher := { st with
    timestampsAndPathsQueuedForDelete := []
    deleted := st.deleted ++ st.timestampsAndPathsQueuedForDelete.map fun object =>
      { object := object
        time := st.now
        current := st.currentTimestampsAndPathsAtomicPointer
        shuttingDown := true } }
  let current := st.currentTimestampsAndPathsAtomicPointer
  let st := { st with
    currentTimestampsAndPathsAtomicPointer := none
    deleteInFiveMinsTimer := none
    shutDown := true }
  match current with
  | none => st
  | some current => st.delete current true

/-- It is single-shot. -/
def timeOut (st : Publisher) : Publisher :=
  match st.deleteInFiveMinsTimer with
  | none => st
  | some time =>
      if st.now < time then st
      else { st with deleteInFiveMinsTimer := none }.handleDeleteInFiveMinsTimerTimedOut

def step (st : Publisher) : Event → Publisher
  | .elapse duration => { st with now := st.now + duration }
  | .publish isEmpty => if st.shutDown then st else st.publish isEmpty
  | .timeOut => st.timeOut
  | .shutDown => if st.shutDown then st else st.destroy

/-- **A replaced timeline outlives its readers' grace period.**

Deletions are recorded with their time and with what was current then, which the source has no
memory of. -/
structure GracePeriodKept (st : Publisher) : Prop where
  once : (st.deleted.map (·.object)).Nodup
  not_current : ∀ d ∈ st.deleted, d.current ≠ some d.object
  grace : ∀ d ∈ st.deleted, d.shuttingDown = false →
    ∀ time, (d.object, time) ∈ st.replaced → time + fiveMins ≤ d.time
  armed : st.timestampsAndPathsQueuedForDelete ≠ [] → st.deleteInFiveMinsTimer.isSome

/-! ## The timer and the queue -/

/-- An object is current, queued or deleted. -/
def objects (st : Publisher) : List ObjectId :=
  st.currentTimestampsAndPathsAtomicPointer.toList ++ (st.timestampsAndPathsQueuedForDelete ++
    st.deleted.map (·.object))

/-- What holds in every state. -/
structure Waiting (st : Publisher) : Prop where
  nodup : st.objects.Nodup
  made : ∀ o ∈ st.objects, o < st.made
  /-- What is current was not replaced. -/
  replaced : ∀ o time, (o, time) ∈ st.replaced →
    st.currentTimestampsAndPathsAtomicPointer ≠ some o ∧ o < st.made ∧ time ≤ st.now
  /-- The timer is for the first one in the queue. -/
  timer : ∀ o rest, st.timestampsAndPathsQueuedForDelete = o :: rest →
    ∃ expires ∈ st.deleteInFiveMinsTimer, ∀ time, (o, time) ∈ st.replaced →
      time + fiveMins ≤ expires
  not_current : ∀ d ∈ st.deleted, d.current ≠ some d.object
  grace : ∀ d ∈ st.deleted, d.shuttingDown = false →
    ∀ time, (d.object, time) ∈ st.replaced → time + fiveMins ≤ d.time

namespace Waiting

variable {st : Publisher}

lemma kept (h : st.Waiting) : st.GracePeriodKept := by
  refine ⟨?_, h.not_current, h.grace, fun hqueue => ?_⟩
  · exact (List.nodup_append.1 (List.nodup_append.1 h.nodup).2.1).2.1
  · obtain ⟨o, rest, hrest⟩ := List.exists_cons_of_ne_nil hqueue
    obtain ⟨expires, hexpires, -⟩ := h.timer o rest hrest
    exact Option.isSome_of_mem hexpires

/-- Neither what is queued nor what is deleted is current. -/
lemma ne_current (h : st.Waiting) {o : ObjectId}
    (ho : o ∈ st.timestampsAndPathsQueuedForDelete ++ st.deleted.map (·.object)) :
    st.currentTimestampsAndPathsAtomicPointer ≠ some o := by
  intro hcurrent
  exact (List.nodup_append.1 h.nodup).2.2 o (by simp [hcurrent]) o ho rfl

lemma elapse (h : st.Waiting) (duration : ℕ) :
    { st with now := st.now + duration }.Waiting :=
  ⟨h.nodup, h.made, fun o time ho =>
    ⟨(h.replaced o time ho).1, (h.replaced o time ho).2.1,
      Nat.le_add_right_of_le (h.replaced o time ho).2.2⟩, h.timer, h.not_current, h.grace⟩

/-- An object that was never published may be deleted at once. -/
lemma publishEmpty (h : st.Waiting) : (st.publish true).Waiting := by
  have hnew : st.made ∉ st.objects := fun hmem => Nat.lt_irrefl _ (h.made _ hmem)
  have hobjects : (st.publish true).objects = st.objects ++ [st.made] := by
    simp [publish, delete, objects]
  refine ⟨?_, fun o ho => ?_, fun o time ho => ?_, h.timer, fun d hd => ?_, fun d hd hrunning => ?_⟩
  · rw [hobjects]
    exact List.nodup_append.2 ⟨h.nodup, by simp, by
      rintro o ho o' ho' rfl
      exact hnew (List.mem_singleton.1 ho' ▸ ho)⟩
  · rw [hobjects] at ho
    rcases List.mem_append.1 ho with ho | ho
    · exact Nat.lt_succ_of_lt (h.made o ho)
    · exact List.mem_singleton.1 ho ▸ Nat.lt_succ_self _
  · obtain ⟨hcurrent, hmade, htime⟩ := h.replaced o time ho
    exact ⟨hcurrent, Nat.lt_succ_of_lt hmade, htime⟩
  · rcases List.mem_append.1 hd with hd | hd
    · exact h.not_current d hd
    · obtain rfl := List.mem_singleton.1 hd
      intro hcurrent
      exact hnew (List.mem_append_left _ (by simpa using hcurrent))
  · rcases List.mem_append.1 hd with hd | hd
    · exact h.grace d hd hrunning
    · obtain rfl := List.mem_singleton.1 hd
      exact fun time ho => absurd (h.replaced _ time ho).2.1 (Nat.lt_irrefl _)

/-- What is published when nothing was. -/
lemma publishFirst (h : st.Waiting) (hold : st.currentTimestampsAndPathsAtomicPointer = none) :
    (st.publish false).Waiting := by
  have hnew : st.made ∉ st.objects := fun hmem => Nat.lt_irrefl _ (h.made _ hmem)
  have hpublish : st.publish false =
      { st with
        made := st.made + 1
        currentTimestampsAndPathsAtomicPointer := some st.made } := by
    simp [publish, hold]
  have hobjects : (st.publish false).objects = st.made :: st.objects := by
    simp [hpublish, objects, hold]
  rw [hpublish] at hobjects ⊢
  refine ⟨?_, fun o ho => ?_, fun o time ho => ?_, h.timer, h.not_current, h.grace⟩
  · rw [hobjects]
    exact List.nodup_cons.2 ⟨hnew, h.nodup⟩
  · rw [hobjects] at ho
    rcases List.mem_cons.1 ho with rfl | ho
    · exact Nat.lt_succ_self _
    · exact Nat.lt_succ_of_lt (h.made o ho)
  · obtain ⟨-, hmade, htime⟩ := h.replaced o time ho
    refine ⟨fun hcurrent => ?_, Nat.lt_succ_of_lt hmade, htime⟩
    exact absurd hmade (Option.some.inj hcurrent ▸ Nat.lt_irrefl _)

/-- **What is replaced is queued**, and the timer is started if nothing else was. -/
lemma publishNext (h : st.Waiting) {old : ObjectId}
    (hold : st.currentTimestampsAndPathsAtomicPointer = some old) :
    (st.publish false).Waiting := by
  have hnew : st.made ∉ st.objects := fun hmem => Nat.lt_irrefl _ (h.made _ hmem)
  have holdMade : old < st.made := h.made old (List.mem_append_left _ (by simp [hold]))
  have hpublish : st.publish false =
      { st with
        made := st.made + 1
        currentTimestampsAndPathsAtomicPointer := some st.made
        deleteInFiveMinsTimer :=
          if st.timestampsAndPathsQueuedForDelete = [] then some (st.now + fiveMins)
          else st.deleteInFiveMinsTimer
        timestampsAndPathsQueuedForDelete := st.timestampsAndPathsQueuedForDelete ++ [old]
        replaced := st.replaced ++ [(old, st.now)] } := by
    simp only [publish, hold]
    rw [if_neg Bool.false_ne_true]
    split
    · rfl
    · rfl
  have hobjects : (st.publish false).objects.Perm (st.made :: st.objects) := by
    rw [hpublish]
    simp only [objects, hold, Option.toList_some, List.singleton_append, List.append_assoc]
    exact .cons _ List.perm_middle
  have hfirst (time : ℕ) : (old, time) ∉ st.replaced := fun ho => (h.replaced old time ho).1 hold
  rw [hpublish] at hobjects ⊢
  refine ⟨?_, fun o ho => ?_, fun o time ho => ?_, fun o rest hrest => ?_, h.not_current,
    fun d hd hrunning time ho => ?_⟩
  · exact hobjects.nodup_iff.2 (List.nodup_cons.2 ⟨hnew, h.nodup⟩)
  · rcases List.mem_cons.1 (hobjects.mem_iff.1 ho) with rfl | ho
    · exact Nat.lt_succ_self _
    · exact Nat.lt_succ_of_lt (h.made o ho)
  · have hlt : o < st.made ∧ time ≤ st.now := by
      rcases List.mem_append.1 ho with ho | ho
      · exact (h.replaced o time ho).2
      · cases List.mem_singleton.1 ho
        exact ⟨holdMade, Nat.le_refl _⟩
    refine ⟨fun hcurrent => ?_, Nat.lt_succ_of_lt hlt.1, hlt.2⟩
    exact absurd hlt.1 (Option.some.inj hcurrent ▸ Nat.lt_irrefl _)
  · dsimp only at hrest ⊢
    cases hqueue : st.timestampsAndPathsQueuedForDelete with
    | nil =>
        rw [hqueue, List.nil_append] at hrest
        cases hrest
        refine ⟨_, if_pos rfl, fun time ho => ?_⟩
        rcases List.mem_append.1 ho with ho | ho
        · exact absurd ho (hfirst time)
        · cases List.mem_singleton.1 ho
          exact Nat.le_refl _
    | cons o' rest' =>
        rw [hqueue, List.cons_append] at hrest
        cases hrest
        obtain ⟨expires, hexpires, hle⟩ := h.timer o rest' hqueue
        refine ⟨expires, by rw [if_neg (List.cons_ne_nil _ _)]; exact hexpires, fun time ho => ?_⟩
        rcases List.mem_append.1 ho with ho | ho
        · exact hle time ho
        · cases List.mem_singleton.1 ho
          exact absurd hold (h.ne_current (List.mem_append_left _ (by simp [hqueue])))
  · rcases List.mem_append.1 ho with ho | ho
    · exact h.grace d hd hrunning time ho
    · obtain ⟨heq, rfl⟩ := Prod.mk.inj (List.mem_singleton.1 ho)
      have hmem : d.object ∈ st.deleted.map (·.object) := List.mem_map_of_mem hd
      exact absurd (heq ▸ hold) (h.ne_current (List.mem_append_right _ hmem))

/-- The first one in the queue is deleted.  If there is another one, it was replaced before now. -/
lemma deleteFirst (h : st.Waiting) {o : ObjectId} {rest : List ObjectId}
    (hqueue : st.timestampsAndPathsQueuedForDelete = o :: rest)
    (hgrace : ∀ time, (o, time) ∈ st.replaced → time + fiveMins ≤ st.now) {d : Deletion}
    (hd : d = ⟨o, st.now, st.currentTimestampsAndPathsAtomicPointer, false⟩) {timer : Option ℕ}
    (htimer : rest ≠ [] → timer = some (st.now + fiveMins)) :
    { st with
      deleteInFiveMinsTimer := timer
      timestampsAndPathsQueuedForDelete := rest
      deleted := st.deleted ++ [d] }.Waiting := by
  have hobjects : (st.currentTimestampsAndPathsAtomicPointer.toList ++
      (rest ++ (st.deleted ++ [d]).map (·.object))).Perm st.objects := by
    unfold objects
    rw [hqueue, hd, List.map_append, List.cons_append, ← List.append_assoc rest]
    exact (List.perm_append_singleton _ _).append_left _
  refine ⟨hobjects.nodup_iff.2 h.nodup, fun o' ho' => h.made o' (hobjects.mem_iff.1 ho'),
    h.replaced, fun o' rest' hrest' => ?_, fun d' hd' => ?_, fun d' hd' hrunning => ?_⟩
  · refine ⟨_, htimer (by rintro rfl; cases hrest'), fun time ho' => ?_⟩
    exact Nat.add_le_add_right (h.replaced o' time ho').2.2 _
  · rcases List.mem_append.1 hd' with hd' | hd'
    · exact h.not_current d' hd'
    · obtain rfl := List.mem_singleton.1 hd'
      rw [hd]
      exact h.ne_current (List.mem_append_left _ (by simp [hqueue]))
  · rcases List.mem_append.1 hd' with hd' | hd'
    · exact h.grace d' hd' hrunning
    · obtain rfl := List.mem_singleton.1 hd'
      rw [hd]
      exact hgrace

/-- **The timer has timed out.** -/
lemma timeOut (h : st.Waiting) : st.timeOut.Waiting := by
  unfold Publisher.timeOut
  cases htimer : st.deleteInFiveMinsTimer with
  | none => exact h
  | some expires =>
      dsimp only
      split
      · exact h
      · next hpassed =>
          unfold handleDeleteInFiveMinsTimerTimedOut
          dsimp only
          by_cases hqueue : st.timestampsAndPathsQueuedForDelete = []
          · rw [if_pos hqueue]
            exact ⟨h.nodup, h.made, h.replaced, fun o rest hrest => by simp [hqueue] at hrest,
              h.not_current, h.grace⟩
          · obtain ⟨o, rest, hrest⟩ := List.exists_cons_of_ne_nil hqueue
            have hgrace (time : ℕ) (ho : (o, time) ∈ st.replaced) : time + fiveMins ≤ st.now := by
              obtain ⟨expires', hexpires', hle⟩ := h.timer o rest hrest
              rw [htimer] at hexpires'
              obtain rfl := Option.some.inj hexpires'
              exact Nat.le_trans (hle time ho) (Nat.le_of_not_lt hpassed)
            have hdelete := deleteOne_eq { st with deleteInFiveMinsTimer := none } hrest false
            rw [if_neg hqueue, hdelete]
            dsimp only
            split
            · next hnil => exact h.deleteFirst hrest hgrace rfl fun hne => absurd hnil hne
            · exact h.deleteFirst hrest hgrace rfl fun _ => rfl

lemma destroy_eq (st : Publisher) : st.destroy =
    { st with
      timestampsAndPathsQueuedForDelete := []
      currentTimestampsAndPathsAtomicPointer := none
      deleteInFiveMinsTimer := none
      shutDown := true
      deleted := st.deleted ++
        (st.timestampsAndPathsQueuedForDelete.map (Deletion.mk · st.now
          st.currentTimestampsAndPathsAtomicPointer true) ++
            st.currentTimestampsAndPathsAtomicPointer.toList.map
              (Deletion.mk · st.now none true)) } := by
  unfold Publisher.destroy
  cases st.currentTimestampsAndPathsAtomicPointer with
  | none => simp
  | some current => simp [delete]

/-- **The destructor** deletes everything that is left. -/
lemma destroy (h : st.Waiting) : st.destroy.Waiting := by
  have hobjects : st.destroy.objects.Perm st.objects := by
    simp only [destroy_eq, objects, List.map_append, List.map_map, Option.toList_none,
      List.nil_append]
    rw [← List.append_assoc]
    refine List.perm_append_comm.trans (.append (.of_eq (List.map_id _)) ?_)
    exact List.perm_append_comm.trans (.append_right _ (.of_eq (List.map_id _)))
  have hdeleted (d : Deletion) (hd : d ∈ st.destroy.deleted) :
      d ∈ st.deleted ∨ d.shuttingDown = true ∧ d.current ≠ some d.object := by
    rw [destroy_eq] at hd
    rcases List.mem_append.1 hd with hd | hd
    · exact .inl hd
    · rcases List.mem_append.1 hd with hd | hd
      · obtain ⟨o, ho, rfl⟩ := List.mem_map.1 hd
        exact .inr ⟨rfl, h.ne_current (List.mem_append_left _ ho)⟩
      · obtain ⟨o, ho, rfl⟩ := List.mem_map.1 hd
        exact .inr ⟨rfl, by simp⟩
  have hsame : st.destroy.replaced = st.replaced ∧ st.destroy.made = st.made ∧
      st.destroy.now = st.now ∧ st.destroy.currentTimestampsAndPathsAtomicPointer = none ∧
        st.destroy.timestampsAndPathsQueuedForDelete = [] := by
    rw [destroy_eq]
    exact ⟨rfl, rfl, rfl, rfl, rfl⟩
  obtain ⟨hreplaced, hmade, hnow, hcurrent, hqueue⟩ := hsame
  refine ⟨hobjects.nodup_iff.2 h.nodup, fun o ho => ?_, fun o time ho => ?_, fun o rest hrest => ?_,
    fun d hd => ?_, fun d hd hrunning time ho => ?_⟩
  · rw [hmade]
    exact h.made o (hobjects.mem_iff.1 ho)
  · rw [hreplaced] at ho
    rw [hcurrent, hmade, hnow]
    exact ⟨by simp, (h.replaced o time ho).2⟩
  · rw [hqueue] at hrest
    cases hrest
  · rcases hdeleted d hd with hd | hd
    · exact h.not_current d hd
    · exact hd.2
  · rw [hreplaced] at ho
    rcases hdeleted d hd with hd | hd
    · exact h.grace d hd hrunning time ho
    · rw [hrunning] at hd
      cases hd.1

lemma step (h : st.Waiting) (x : Event) : (st.step x).Waiting := by
  cases x with
  | elapse duration => exact h.elapse duration
  | publish isEmpty =>
      unfold Publisher.step
      dsimp only
      split
      · exact h
      · cases isEmpty with
        | true => exact h.publishEmpty
        | false =>
            cases hold : st.currentTimestampsAndPathsAtomicPointer with
            | none => exact h.publishFirst hold
            | some old => exact h.publishNext hold
  | timeOut => exact h.timeOut
  | shutDown =>
      unfold Publisher.step
      dsimp only
      split
      · exact h
      · exact h.destroy

end Waiting

lemma waiting_start : ({} : Publisher).Waiting :=
  ⟨List.nodup_nil, by simp [objects], by simp, by simp, by simp, by simp⟩

/-- **A replaced timeline outlives its readers' grace period**, in every state of every run.

It also says that nothing is deleted twice, that what is published is not deleted while it is, and
that whatever waits in the queue has a timer running for it. -/
theorem gracePeriod_kept (events : List Event) :
    Machine.HoldsThroughout step GracePeriodKept {} events := by
  have hwaiting : Machine.HoldsThroughout step Waiting {} events :=
    Machine.holdsThroughout_of_step (fun _ x h => h.step x) waiting_start
  exact hwaiting.imp fun st h => h.kept

end Publisher

end Autobackup.Timeline
