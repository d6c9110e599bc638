import Autobackup.Foundation.Machine
import Autobackup.SftpQueue.Queue

/-!
# Requests to stop

The queue stops by way of its process: that is told to quit, and when it has finished the queue is
stopped.  While there is no process, because the last one has finished and the next one is started
in five seconds, nobody can be told, and what was asked for then is not looked at again before
somebody enqueues.  A process that finishes right after it was started stops the queue without
having been asked to.

There are three kinds of stop: when all is uploaded, the same unless the connection breaks, and now.
The five seconds until the next process are an event of their own, and so is the end of a process at
any time.
-/

namespace Autobackup.SftpQueue

/-- How fast a queue stops. -/
def QueueState.speed : QueueState → ℕ
  | .notYetStarted => 0
  | .started => 1
  | .stopWhenAllUploadsFinishSuccessfully => 2
  | .stopWhenAllUploadsFinishSuccessfullyUnlessDc => 3
  | .stopNow => 4

namespace SftpUploaderAndRenamerQueue

def StopRequested (st : SftpUploaderAndRenamerQueue) : Prop :=
  ∃ state ∈ st.requested, state ≠ .started
  deriving Decidable

/-- One of those that do not wait for the uploads was asked for. -/
def NotWaiting (requested : List QueueState) : Prop :=
  .stopWhenAllUploadsFinishSuccessfullyUnlessDc ∈ requested ∨ .stopNow ∈ requested
  deriving Decidable

/-- The retry timer is running, and then the process is told to quit. -/
def RetryTells (st : SftpUploaderAndRenamerQueue) : Prop :=
  st.fiveSecondRetryDequeueAndUploadTimer = true ∧
    (st.step .retryTimerTimedOut).sftpProcess.told = true

/-- The process is going to be started again, and once it is started it is told to quit. -/
def RestartTells (st : SftpUploaderAndRenamerQueue) : Prop :=
  st.restarts ≠ 0 ∧
    (Machine.run step st
      [.restartTimerTimedOut, .processStarted false, .invoked]).sftpProcess.told = true

/-- **A request to stop cannot get stuck.** -/
structure StopsInTheEnd (st : SftpUploaderAndRenamerQueue) : Prop where
  /-- It says that it has stopped only if nothing is left or that was asked for. -/
  stopped : ∀ p ∈ st.stopped, p.1 = [] ∨ NotWaiting p.2
  /-- Until then there is something to be done, or somebody who was or will be told. -/
  told : st.StopRequested → st.stopped = [] →
    st.segmentsQueuedForUpload ≠ [] ∧ st.state ≠ .stopNow ∨
      st.sftpProcess.state ≠ .notRunning ∧ st.sftpProcess.told = true ∨
        st.RetryTells ∨ st.RestartTells

/-- The condition: a stop is requested while there is a process, or for when the uploads that are
left are finished; and a process that finishes right after its start ends a stop. -/
def CanBeTold (st : SftpUploaderAndRenamerQueue) : Event → Prop
  | .changeState new =>
      new ≠ .started → st.stopped = [] → st.sftpProcess.state = .notRunning →
        st.segmentsQueuedForUpload ≠ [] ∧
          setTheStateEnumValueUpgradingStopSpeedOnly st.state new ≠ .stopNow
  | .processStarted true =>
      st.sftpProcess.state = .starting →
        st.state = .stopWhenAllUploadsFinishSuccessfullyUnlessDc ∨ st.state = .stopNow ∨
          st.state = .stopWhenAllUploadsFinishSuccessfully ∧ st.segmentsQueuedForUpload = []
  | _ => True

instance (st : SftpUploaderAndRenamerQueue) (x : Event) : Decidable (st.CanBeTold x) := by
  unfold CanBeTold
  split <;> infer_instance

/-! ## The kinds of stop -/

section State

variable {state new : QueueState}

/-- It is only upgraded. -/
lemma speed_le_set :
    state.speed ≤ (setTheStateEnumValueUpgradingStopSpeedOnly state new).speed := by
  cases state <;> cases new <;> decide

lemma set_started : setTheStateEnumValueUpgradingStopSpeedOnly state .started = state := by
  cases state <;> rfl

lemma two_le_speed_set (hstate : state ≠ .notYetStarted) (hnew : new ≠ .started) :
    2 ≤ (setTheStateEnumValueUpgradingStopSpeedOnly state new).speed := by
  cases state <;> cases new <;> first | contradiction | decide

/-- What does not wait was asked for, now or before. -/
lemma notWaiting_of_set (h : 3 ≤ (setTheStateEnumValueUpgradingStopSpeedOnly state new).speed) :
    3 ≤ state.speed ∨ new = .stopWhenAllUploadsFinishSuccessfullyUnlessDc ∨ new = .stopNow := by
  cases state <;> cases new <;> revert h <;> decide

end State

/-! ## What holds in every state -/

/-- Somebody is told, or there are files and time to wait for them. -/
def Told (st : SftpUploaderAndRenamerQueue) : Prop :=
  st.StopRequested → st.stopped = [] →
    st.segmentsQueuedForUpload ≠ [] ∧ st.state ≠ .stopNow ∨
      st.sftpProcess.state ≠ .notRunning ∧ st.sftpProcess.told = true

structure Stopping (st : SftpUploaderAndRenamerQueue) : Prop where
  started : st.state ≠ .notYetStarted
  /-- There is a process, or one is going to be started, or neither. -/
  restarts : st.sftpProcess.state ≠ .notRunning → st.restarts = 0
  single : st.restarts ≤ 1
  ended : st.stopped ≠ [] → st.sftpProcess.state = .notRunning ∧ st.restarts = 0
  ready : st.sftpIsReadyForCommands = true → st.sftpProcess.state ≠ .notRunning
  requested : st.StopRequested → 2 ≤ st.state.speed
  notWaiting : 3 ≤ st.state.speed → st.stopped = [] → NotWaiting st.requested
  stopped : ∀ p ∈ st.stopped, p.1 = [] ∨ NotWaiting p.2

/-- A step that is not about stopping: it may tell the process to quit. -/
structure Same (st st' : SftpUploaderAndRenamerQueue) : Prop where
  queue : st'.segmentsQueuedForUpload = st.segmentsQueuedForUpload
  state : st'.state = st.state
  process : st'.sftpProcess.state = st.sftpProcess.state
  restarts : st'.restarts = st.restarts
  stopped : st'.stopped = st.stopped
  requested : st'.requested = st.requested
  ready : st'.sftpIsReadyForCommands = st.sftpIsReadyForCommands
  told : st.sftpProcess.told = true → st'.sftpProcess.told = true

section Functions

variable {st st' : SftpUploaderAndRenamerQueue}

lemma Same.refl (st : SftpUploaderAndRenamerQueue) : st.Same st :=
  ⟨rfl, rfl, rfl, rfl, rfl, rfl, rfl, id⟩

lemma Same.stopping (h : st.Same st') (hst : st.Stopping) : st'.Stopping := by
  refine ⟨?_, ?_, ?_, ?_, ?_, ?_, ?_, ?_⟩
  · rw [h.state]
    exact hst.started
  · rw [h.process, h.restarts]
    exact hst.restarts
  · rw [h.restarts]
    exact hst.single
  · rw [h.process, h.restarts, h.stopped]
    exact hst.ended
  · rw [h.process, h.ready]
    exact hst.ready
  · unfold StopRequested
    rw [h.requested, h.state]
    exact hst.requested
  · rw [h.requested, h.state, h.stopped]
    exact hst.notWaiting
  · rw [h.stopped]
    exact hst.stopped

lemma Same.told' (h : st.Same st') (hst : st.Told) : st'.Told := by
  unfold Told StopRequested
  rw [h.requested, h.stopped, h.queue, h.state, h.process]
  intro hrequested hstopped
  exact (hst hrequested hstopped).imp_right (And.imp_right h.told)

lemma same_write (st : SftpUploaderAndRenamerQueue) (commands : List Command) :
    st.Same (st.write commands) := by
  unfold write
  split
  · exact ⟨rfl, rfl, rfl, rfl, rfl, rfl, rfl, id⟩
  · exact .refl st

/-- A process that is there is told. -/
lemma same_stopSftpProcess (st : SftpUploaderAndRenamerQueue) : st.Same st.stopSftpProcess := by
  unfold stopSftpProcess
  split
  · have hwrite := same_write st [.bye, .bye]
    exact ⟨hwrite.queue, hwrite.state, hwrite.process, hwrite.restarts, hwrite.stopped,
      hwrite.requested, hwrite.ready, fun _ => rfl⟩
  · split
    · exact ⟨rfl, rfl, rfl, rfl, rfl, rfl, rfl, fun _ => rfl⟩
    · exact .refl st

lemma told_stopSftpProcess (h : st.sftpProcess.state ≠ .notRunning) :
    st.stopSftpProcess.sftpProcess.state ≠ .notRunning ∧
      st.stopSftpProcess.sftpProcess.told = true := by
  refine ⟨(same_stopSftpProcess st).process ▸ h, ?_⟩
  unfold stopSftpProcess
  split
  · rfl
  · rfl

lemma same_tryDequeue (st : SftpUploaderAndRenamerQueue) :
    st.Same st.tryDequeueAndUploadSingleSegment := by
  unfold tryDequeueAndUploadSingleSegment
  dsimp only
  split
  · split
    · have hstop := same_stopSftpProcess
        { st with fiveSecondRetryDequeueAndUploadTimer := false }
      exact ⟨hstop.queue, hstop.state, hstop.process, hstop.restarts, hstop.stopped,
        hstop.requested, hstop.ready, hstop.told⟩
    · exact ⟨rfl, rfl, rfl, rfl, rfl, rfl, rfl, id⟩
  · next head rest hqueue =>
      split
      · exact ⟨rfl, rfl, rfl, rfl, rfl, rfl, rfl, id⟩
      · split
        · have hwrite := same_write { st with fiveSecondRetryDequeueAndUploadTimer := false }
            [.put head, .rename head]
          exact ⟨hwrite.queue, hwrite.state, hwrite.process, hwrite.restarts, hwrite.stopped,
            hwrite.requested, hwrite.ready, hwrite.told⟩
        · split
          · exact ⟨rfl, rfl, rfl, rfl, rfl, rfl, rfl, id⟩
          · exact ⟨rfl, rfl, rfl, rfl, rfl, rfl, rfl, id⟩

/-- More files to wait for. -/
lemma Told.enqueue (h : st.Told) (s : Segment) :
    { st with
      segmentsQueuedForUpload := st.segmentsQueuedForUpload ++ [s]
      enqueued := st.enqueued ++ [s] }.Told := fun hrequested hstopped =>
  (h hrequested hstopped).imp_left fun hfiles => ⟨by simp, hfiles.2⟩

/-- The state is set, and what was asked for noted. -/
lemma Stopping.set (h : st.Stopping) (new : QueueState) :
    { st with
      state := setTheStateEnumValueUpgradingStopSpeedOnly st.state new
      requested := st.requested ++ [new] }.Stopping := by
  have hle : st.state.speed ≤ (setTheStateEnumValueUpgradingStopSpeedOnly st.state new).speed :=
    speed_le_set
  refine ⟨fun hstate => ?_, h.restarts, h.single, h.ended, h.ready, fun hrequested => ?_,
    fun hspeed hstopped => ?_, h.stopped⟩
  · dsimp only at hstate
    rw [hstate] at hle
    refine h.started ?_
    cases hst : st.state with
    | notYetStarted => rfl
    | _ => rw [hst] at hle; exact absurd hle (by decide)
  · obtain ⟨asked, hasked, hne⟩ := hrequested
    rcases List.mem_append.1 hasked with hasked | hasked
    · exact Nat.le_trans (h.requested ⟨asked, hasked, hne⟩) hle
    · exact two_le_speed_set h.started (List.mem_singleton.1 hasked ▸ hne)
  · rcases notWaiting_of_set hspeed with hspeed | hnew
    · exact (h.notWaiting hspeed hstopped).imp (List.mem_append_left _) (List.mem_append_left _)
    · exact hnew.imp (fun hnew => by simp [hnew]) fun hnew => by simp [hnew]

/-- **The state is changed** while somebody can be told. -/
lemma Stopping.changeState (h : st.Stopping) (htold : st.Told) {new : QueueState}
    (hok : st.CanBeTold (.changeState new)) :
    (st.changeSftpUploaderAndRenamerQueueState new).Stopping ∧
      (st.changeSftpUploaderAndRenamerQueueState new).Told := by
  have hset := h.set new
  -- if there is nobody to be told, there is nothing to be told or it is not about stopping
  have hnobody (hprocess : st.sftpProcess.state = .notRunning) : { st with
      state := setTheStateEnumValueUpgradingStopSpeedOnly st.state new
      requested := st.requested ++ [new] }.Told := by
    intro hrequested hstopped
    by_cases hnew : new = .started
    · subst hnew
      have hbefore : st.StopRequested := by
        obtain ⟨asked, hasked, hne⟩ := hrequested
        rcases List.mem_append.1 hasked with hasked | hasked
        · exact ⟨asked, hasked, hne⟩
        · exact absurd (List.mem_singleton.1 hasked) hne
      rw [set_started]
      exact htold hbefore hstopped
    · exact .inl (hok hnew hstopped hprocess)
  have hstop (st' : SftpUploaderAndRenamerQueue) (hst' : st'.Stopping)
      (hnobody : st'.sftpProcess.state = .notRunning → st'.Told) :
      st'.stopSftpProcess.Stopping ∧ st'.stopSftpProcess.Told := by
    have hsame := same_stopSftpProcess st'
    refine ⟨hsame.stopping hst', ?_⟩
    by_cases hprocess : st'.sftpProcess.state = .notRunning
    · exact hsame.told' (hnobody hprocess)
    · exact fun _ _ => .inr (told_stopSftpProcess hprocess)
  unfold changeSftpUploaderAndRenamerQueueState
  dsimp only
  split
  · exact hstop _ hset hnobody
  · next hfiles =>
      split
      · exact hstop _ hset hnobody
      · exact ⟨hset, fun _ _ => .inl (not_or.1 hfiles)⟩

/-- The signal that it has stopped, when there is neither a process nor going to be one. -/
lemma Stopping.emitStopped (h : st.Stopping) (hprocess : st.sftpProcess.state = .notRunning)
    (hrestarts : st.restarts = 0)
    (hasked : st.segmentsQueuedForUpload = [] ∨ NotWaiting st.requested) :
    st.emitStopped.Stopping ∧ st.emitStopped.Told := by
  have hne : st.emitStopped.stopped ≠ [] := List.append_ne_nil_of_right_ne_nil _ (by simp)
  refine ⟨⟨h.started, h.restarts, h.single, fun _ => ⟨hprocess, hrestarts⟩, h.ready, h.requested,
    fun _ hstopped => absurd hstopped hne, fun p hp => ?_⟩, fun _ hstopped => absurd hstopped hne⟩
  rcases List.mem_append.1 hp with hp | hp
  · exact h.stopped p hp
  · obtain rfl := List.mem_singleton.1 hp
    exact hasked

/-- A new process is going to be started, for files that are left. -/
lemma Stopping.restart (h : st.Stopping) (hprocess : st.sftpProcess.state = .notRunning)
    (hrestarts : st.restarts = 0) (hstopped : st.stopped = []) (hfiles : st.StopRequested →
      st.segmentsQueuedForUpload ≠ [] ∧ st.state ≠ .stopNow) :
    { st with restarts := st.restarts + 1 }.Stopping ∧
      { st with restarts := st.restarts + 1 }.Told :=
  ⟨⟨h.started, fun hne => absurd hprocess hne, by simp [hrestarts],
    fun hne => absurd hstopped hne, h.ready, h.requested, h.notWaiting, h.stopped⟩,
    fun hrequested _ => .inl (hfiles hrequested)⟩

/-- **The process has finished.** -/
lemma Stopping.finish (h : st.Stopping) (hprocess : st.sftpProcess.state ≠ .notRunning) :
    st.finish.Stopping ∧ st.finish.Told := by
  have hstopped : st.stopped = [] := by
    by_contra hne
    exact hprocess (h.ended hne).1
  have hrestarts := h.restarts hprocess
  have hgone : { st with
      sftpProcess := {}
      sftpIsReadyForCommands := false
      sftpPutInProgressSoWatchForRenameCommandEcho := false }.Stopping :=
    ⟨h.started, fun _ => hrestarts, h.single, fun _ => ⟨rfl, hrestarts⟩, nofun, h.requested,
      h.notWaiting, h.stopped⟩
  have hrequested (hspeed : st.state.speed < 2) (hrequested : st.StopRequested) : False :=
    absurd (h.requested hrequested) (Nat.not_le_of_lt hspeed)
  unfold SftpUploaderAndRenamerQueue.finish handleSftpProcessFinished
  dsimp only
  split
  · next hstate => exact absurd hstate h.started
  · next hstate =>
      exact hgone.restart rfl hrestarts hstopped fun hasked =>
        (hrequested (by simp [hstate, QueueState.speed]) hasked).elim
  · next hstate =>
      split
      · next hqueue => exact hgone.emitStopped rfl hrestarts (.inl hqueue)
      · next hqueue =>
          exact hgone.restart rfl hrestarts hstopped fun _ => ⟨hqueue, fun hnow => by
            rw [show st.state = .stopNow from hnow] at hstate
            cases hstate⟩
  · next hstate =>
      exact hgone.emitStopped rfl hrestarts
        (.inr (h.notWaiting (by simp [hstate, QueueState.speed]) hstopped))
  · next hstate =>
      exact hgone.emitStopped rfl hrestarts
        (.inr (h.notWaiting (by simp [hstate, QueueState.speed]) hstopped))

/-- The end of the process ends a stop. -/
lemma stopped_finish (h : st.state = .stopWhenAllUploadsFinishSuccessfullyUnlessDc ∨
    st.state = .stopNow ∨
      st.state = .stopWhenAllUploadsFinishSuccessfully ∧ st.segmentsQueuedForUpload = []) :
    st.finish.stopped ≠ [] := by
  have hemitted : st.stopped ++ [(st.segmentsQueuedForUpload, st.requested)] ≠ [] :=
    List.append_ne_nil_of_right_ne_nil _ (by simp)
  unfold SftpUploaderAndRenamerQueue.finish handleSftpProcessFinished
  rcases h with hstate | hstate | ⟨hstate, hqueue⟩
  · simp only [hstate]
    exact hemitted
  · simp only [hstate]
    exact hemitted
  · simp only [hstate, if_pos hqueue]
    exact hemitted

/-- **The process has started.** -/
lemma Stopping.processStarted (h : st.Stopping) (htold : st.Told)
    (hprocess : st.sftpProcess.state = .starting) {finishes : Bool}
    (hok : st.CanBeTold (.processStarted finishes)) :
    (st.handleSftpProcessStarted finishes).Stopping ∧
      (st.handleSftpProcessStarted finishes).Told := by
  have hthere : st.sftpProcess.state ≠ .notRunning := by
    rw [hprocess]
    nofun
  unfold handleSftpProcessStarted
  cases finishes with
  | true =>
      have hfinish := (h.finish hthere).1
      have hstopped := stopped_finish (hok hprocess)
      obtain ⟨hgone, hrestarts⟩ := hfinish.ended hstopped
      rw [if_pos rfl]
      exact ⟨⟨nofun, fun hne => absurd hgone hne, hfinish.single, fun _ => ⟨hgone, hrestarts⟩,
        nofun, fun _ => (by decide : 2 ≤ QueueState.stopNow.speed),
        fun _ hnil => absurd hnil hstopped, hfinish.stopped⟩,
          fun _ hnil => absurd hnil hstopped⟩
  | false =>
      rw [if_neg Bool.false_ne_true, if_neg h.started]
      refine ⟨⟨h.started, fun _ => h.restarts hthere, h.single,
        fun hne => absurd (h.ended hne).1 hthere, nofun, h.requested, h.notWaiting, h.stopped⟩,
        fun hrequested hstopped => ?_⟩
      exact (htold hrequested hstopped).imp_right fun htold => ⟨nofun, htold.2⟩

/-- **A line is read.** -/
lemma Stopping.processLine (h : st.Stopping) (htold : st.Told) (line : Command) :
    (st.processLine line).Stopping ∧ (st.processLine line).Told := by
  unfold SftpUploaderAndRenamerQueue.processLine
  split
  · next hready =>
      have hthere := h.ready hready
      split
      · split
        · unfold dequeueUploadedAndRenamed
          split
          · exact ⟨h, htold⟩
          · next head rest hqueue =>
              have hdequeued : { st with
                  sftpPutInProgressSoWatchForRenameCommandEcho := false
                  segmentsQueuedForUpload := rest
                  fileUploadAndRenameSuccess :=
                    st.fileUploadAndRenameSuccess ++ [head] }.Stopping :=
                ⟨h.started, h.restarts, h.single, h.ended, h.ready, h.requested, h.notWaiting,
                  h.stopped⟩
              dsimp only
              split
              · exact ⟨(same_stopSftpProcess _).stopping hdequeued, fun _ _ =>
                  .inr (told_stopSftpProcess hthere)⟩
              · next hgoesOn =>
                  refine ⟨⟨h.started, h.restarts, h.single, h.ended, h.ready, h.requested,
                    h.notWaiting, h.stopped⟩, fun hrequested hstopped => ?_⟩
                  have hrest : rest ≠ [] := by
                    rintro rfl
                    refine hgoesOn ⟨rfl, fun hstate => ?_⟩
                    have hspeed := h.requested hrequested
                    rw [show st.state = .started from hstate] at hspeed
                    exact absurd hspeed (by decide)
                  exact (htold hrequested hstopped).imp_left fun hfiles => ⟨hrest, hfiles.2⟩
        · exact ⟨h, htold⟩
      · exact ⟨h, htold⟩
  · exact ⟨h, htold⟩

/-- **The process ends**, which the queue does not know yet. -/
lemma Stopping.processEnds (h : st.Stopping) (htold : st.Told)
    (hrunning : st.sftpProcess.state = .running) :
    st.processEnds.Stopping ∧ st.processEnds.Told := by
  have hthere : st.sftpProcess.state ≠ .notRunning := by
    rw [hrunning]
    nofun
  refine ⟨⟨h.started, fun _ => h.restarts hthere, h.single,
    fun hne => absurd (h.ended hne).1 hthere, nofun, h.requested, h.notWaiting, h.stopped⟩,
    fun hrequested hstopped => ?_⟩
  exact (htold hrequested hstopped).imp_right fun htold => ⟨nofun, htold.2⟩

lemma same_echo (st : SftpUploaderAndRenamerQueue) : st.Same st.echo := by
  unfold SftpUploaderAndRenamerQueue.echo
  split
  · exact ⟨rfl, rfl, rfl, rfl, rfl, rfl, rfl, id⟩
  · exact .refl st

lemma Stopping.execute (h : st.Stopping) (htold : st.Told)
    (hrunning : st.sftpProcess.state = .running) (succeeds : Bool) :
    (st.execute succeeds).Stopping ∧ (st.execute succeeds).Told := by
  unfold SftpUploaderAndRenamerQueue.execute
  split
  · exact ⟨h, htold⟩
  · next command hexecuting =>
      split
      · cases command with
        | put s =>
            have hsame : st.Same { st with sftpProcess.executing := none } :=
              ⟨rfl, rfl, rfl, rfl, rfl, rfl, rfl, id⟩
            exact ⟨hsame.stopping h, hsame.told' htold⟩
        | rename s =>
            have hsame : st.Same
                { st with sftpProcess.executing := none, renamed := st.renamed ++ [s] } :=
              ⟨rfl, rfl, rfl, rfl, rfl, rfl, rfl, id⟩
            exact ⟨hsame.stopping h, hsame.told' htold⟩
        | bye => exact h.processEnds htold hrunning
      · exact h.processEnds htold hrunning

/-- **A new process is started**, which nobody has told anything. -/
lemma Stopping.startAgain (h : st.Stopping) (htold : st.Told) (hrestarts : st.restarts ≠ 0) :
    { st with restarts := st.restarts - 1 }.startSftpProcessInBatchMode.Stopping ∧
      { st with restarts := st.restarts - 1 }.startSftpProcessInBatchMode.Told := by
  have hgone : st.sftpProcess.state = .notRunning := by
    by_contra hthere
    exact hrestarts (h.restarts hthere)
  have hstopped : st.stopped = [] := by
    by_contra hne
    exact hrestarts (h.ended hne).2
  have hnone : st.restarts - 1 = 0 := by
    have hsingle := h.single
    omega
  unfold startSftpProcessInBatchMode
  rw [if_pos hgone]
  refine ⟨⟨h.started, fun _ => hnone, by simp [hnone], fun hne => absurd hstopped hne,
    fun hready => absurd hgone (h.ready hready), h.requested, h.notWaiting, h.stopped⟩,
    fun hrequested _ => ?_⟩
  exact .inl ((htold hrequested hstopped).resolve_right fun htold => htold.1 hgone)

/-- **The step lemma.** -/
lemma Stopping.step (h : st.Stopping) (htold : st.Told) {x : Event} (hok : st.CanBeTold x) :
    (st.step x).Stopping ∧ (st.step x).Told := by
  have htry (st' : SftpUploaderAndRenamerQueue) (hst' : st'.Stopping) (htold' : st'.Told) :
      st'.tryDequeueAndUploadSingleSegment.Stopping ∧
        st'.tryDequeueAndUploadSingleSegment.Told :=
    ⟨(same_tryDequeue st').stopping hst', (same_tryDequeue st').told' htold'⟩
  unfold SftpUploaderAndRenamerQueue.step
  cases x with
  | enqueueFileForUploadAndRename dest src =>
      exact htry _ ⟨h.started, h.restarts, h.single, h.ended, h.ready, h.requested, h.notWaiting,
        h.stopped⟩
        (htold.enqueue _)
  | changeState new => exact h.changeState htold hok
  | retryTimerTimedOut =>
      dsimp only
      split
      · exact htry st h htold
      · exact ⟨h, htold⟩
  | invoked =>
      dsimp only
      split
      · exact ⟨h, htold⟩
      · exact htry _ ⟨h.started, h.restarts, h.single, h.ended, h.ready, h.requested, h.notWaiting,
          h.stopped⟩ htold
  | restartTimerTimedOut =>
      dsimp only
      split
      · exact ⟨h, htold⟩
      · next hrestarts => exact h.startAgain htold hrestarts
  | killerTimerTimedOut =>
      have hsame : st.Same { st with sftp30secondKillerTimer := false } :=
        ⟨rfl, rfl, rfl, rfl, rfl, rfl, rfl, id⟩
      dsimp only
      split
      · split
        · next hrunning =>
            exact (hsame.stopping h).processEnds (hsame.told' htold) hrunning
        · exact ⟨hsame.stopping h, hsame.told' htold⟩
      · exact ⟨h, htold⟩
  | processStarted finishes =>
      dsimp only
      split
      · next hstarting => exact h.processStarted htold hstarting hok
      · exact ⟨h, htold⟩
  | echo =>
      dsimp only
      split
      · exact ⟨(same_echo st).stopping h, (same_echo st).told' htold⟩
      · exact ⟨h, htold⟩
  | execute succeeds =>
      dsimp only
      split
      · next hrunning => exact h.execute htold hrunning succeeds
      · exact ⟨h, htold⟩
  | lost =>
      dsimp only
      split
      · next hrunning => exact h.processEnds htold hrunning
      · exact ⟨h, htold⟩
  | readLine =>
      dsimp only [readLine]
      split
      · exact ⟨h, htold⟩
      · next line rest _ =>
          have hsame : st.Same { st with sftpProcess.stdout := rest } :=
            ⟨rfl, rfl, rfl, rfl, rfl, rfl, rfl, id⟩
          exact (hsame.stopping h).processLine (hsame.told' htold) line
  | processFinished =>
      dsimp only
      split
      · next hended => exact h.finish (by rw [hended.1]; nofun)
      · exact ⟨h, htold⟩

lemma stopping_started (queued : List (String × String)) :
    ((start queued).step (.processStarted false)).Stopping ∧
      ((start queued).step (.processStarted false)).Told :=
  ⟨⟨nofun, fun _ => rfl, Nat.zero_le 1, nofun, nofun, nofun,
    fun hspeed => absurd hspeed (by decide : ¬ 3 ≤ QueueState.started.speed), nofun⟩, nofun⟩

lemma state_changeState (st : SftpUploaderAndRenamerQueue) (new : QueueState) :
    (st.changeSftpUploaderAndRenamerQueueState new).state =
      setTheStateEnumValueUpgradingStopSpeedOnly st.state new := by
  unfold changeSftpUploaderAndRenamerQueueState
  dsimp only
  split
  · exact (same_stopSftpProcess _).state
  · split
    · exact (same_stopSftpProcess _).state
    · rfl

lemma state_processLine (st : SftpUploaderAndRenamerQueue) (line : Command) :
    (st.processLine line).state = st.state := by
  unfold SftpUploaderAndRenamerQueue.processLine dequeueUploadedAndRenamed
  split
  · split
    · split
      · split
        · rfl
        · dsimp only
          split
          · exact (same_stopSftpProcess _).state
          · rfl
      · rfl
    · rfl
  · rfl

lemma state_finish (st : SftpUploaderAndRenamerQueue) : st.finish.state = st.state := by
  unfold SftpUploaderAndRenamerQueue.finish handleSftpProcessFinished
  dsimp only
  split
  · rfl
  · rfl
  · split
    · rfl
    · rfl
  · rfl
  · rfl

/-- **The kind of stop never gets slower.** -/
lemma speed_le_step (st : SftpUploaderAndRenamerQueue) (x : Event) :
    st.state.speed ≤ (st.step x).state.speed := by
  have hsame {st' : SftpUploaderAndRenamerQueue} (h : st'.state = st.state) :
      st.state.speed ≤ st'.state.speed :=
    Nat.le_of_eq (congrArg QueueState.speed h.symm)
  unfold SftpUploaderAndRenamerQueue.step
  cases x with
  | enqueueFileForUploadAndRename dest src => exact hsame (same_tryDequeue _).state
  | changeState new =>
      dsimp only
      rw [state_changeState]
      exact speed_le_set
  | retryTimerTimedOut =>
      dsimp only
      split
      · exact hsame (same_tryDequeue st).state
      · exact hsame rfl
  | invoked =>
      dsimp only
      split
      · exact hsame rfl
      · exact hsame (same_tryDequeue _).state
  | restartTimerTimedOut =>
      dsimp only [startSftpProcessInBatchMode]
      split
      · exact hsame rfl
      · split
        · exact hsame rfl
        · exact hsame rfl
  | killerTimerTimedOut =>
      dsimp only
      split
      · split
        · exact hsame rfl
        · exact hsame rfl
      · exact hsame rfl
  | processStarted finishes =>
      dsimp only [handleSftpProcessStarted]
      split
      · split
        · exact (by cases st.state <;> decide : st.state.speed ≤ QueueState.stopNow.speed)
        · cases st.state <;> simp [QueueState.speed]
      · exact hsame rfl
  | echo =>
      dsimp only
      split
      · exact hsame (same_echo st).state
      · exact hsame rfl
  | execute succeeds =>
      dsimp only [SftpUploaderAndRenamerQueue.execute]
      split
      · split
        · exact hsame rfl
        · split
          · split
            · exact hsame rfl
            · exact hsame rfl
            · exact hsame rfl
          · exact hsame rfl
      · exact hsame rfl
  | lost =>
      dsimp only
      split
      · exact hsame rfl
      · exact hsame rfl
  | readLine =>
      dsimp only [readLine]
      split
      · exact hsame rfl
      · exact hsame (state_processLine _ _)
  | processFinished =>
      dsimp only
      split
      · exact hsame (state_finish st)
      · exact hsame rfl

end Functions

/-- **A request to stop cannot get stuck**, in a run where somebody can be told: the kind of stop
never gets slower, and until it is said that the queue has stopped there is something to be done or
somebody who was told.

That a stop does not get slower has no condition and holds of every state, reachable or not.  The
second half is a safety statement that carries the liveness: as long as the queue has not stopped,
there is an upload to be made, a process that was told, or a start that will tell the next one. -/
theorem stops_in_the_end (queued : List (String × String)) (events : List Event) :
    (∀ (st : SftpUploaderAndRenamerQueue) (x : Event),
      st.state.speed ≤ (st.step x).state.speed) ∧
      (Machine.StaysWithin step CanBeTold ((start queued).step (.processStarted false)) events →
        Machine.HoldsThroughout step StopsInTheEnd
          ((start queued).step (.processStarted false)) events) := by
  refine ⟨speed_le_step, fun hok => ?_⟩
  have hstopping : Machine.HoldsThroughout step (fun st => st.Stopping ∧ st.Told)
      ((start queued).step (.processStarted false)) events :=
    Machine.holdsThroughout_of_staysWithin (fun st x hst hx => hst.1.step hst.2 hx)
      (stopping_started queued) hok
  exact hstopping.imp fun st hst => ⟨hst.1.stopped, fun hrequested hstopped =>
    (hst.2 hrequested hstopped).imp_right Or.inl⟩

/-- A stop is requested while uploads are left, and one is finished. -/
def stopsWhenFinished : List Event :=
  [.enqueueFileForUploadAndRename "1.ogg" "a.ogg",
    .changeState .stopWhenAllUploadsFinishSuccessfully, .echo, .execute true, .echo, .execute true,
    .readLine, .readLine, .echo, .execute true, .readLine, .processFinished]

theorem stops_in_the_end_stopsWhenFinished :
    Machine.HoldsThroughout step StopsInTheEnd ((start []).step (.processStarted false))
      stopsWhenFinished :=
  (stops_in_the_end [] stopsWhenFinished).2 (by decide +kernel)

/-- The connection is lost, and a stop is requested before the process is started again. -/
def stopWhileThereIsNoProcess : List Event :=
  [.lost, .processFinished, .changeState .stopWhenAllUploadsFinishSuccessfully,
    .restartTimerTimedOut, .processStarted false, .invoked]

theorem not_stops_in_the_end : ¬ ∀ queued events,
    Machine.HoldsThroughout step StopsInTheEnd
      ((start queued).step (.processStarted false)) events := by
  intro hstops
  rcases (hstops [] stopWhileThereIsNoProcess).run.told (by decide +kernel) (by decide +kernel)
    with hfiles | hprocess | hretry | hrestart
  · exact absurd hfiles.1 (by decide +kernel)
  · exact absurd hprocess.2 (by decide +kernel)
  · exact absurd hretry.1 (by decide +kernel)
  · exact absurd hrestart.1 (by decide +kernel)

end SftpUploaderAndRenamerQueue

end Autobackup.SftpQueue
