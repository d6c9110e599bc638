import Autobackup.Foundation.Machine
import Autobackup.SftpQueue.Queue
import Mathlib.Data.List.Nodup

/-!
# No enqueued upload is lost

The echo of a rename is taken for its success, and the segment leaves the queue.  As sftp echoes a
command before it executes it, a segment is neither queued nor renamed for as long as that takes,
and it is lost if the rename never happens.  Nothing else loses one (`noUploadLost_iff`).

sftp works off its commands in order, writes an echo and then executes, and may break off anywhere.
Its output is read line by line, some time after it was written.  Left out are the texts of commands
and quoting, lines that arrive in parts, and the standard error.
-/

namespace Autobackup.SftpQueue

/-- The segments of the renames among commands. -/
def renames (commands : List Command) : List Segment :=
  commands.filterMap fun
    | .rename s => some s
    | _ => none

@[simp] lemma renames_nil : renames [] = [] := rfl

@[simp] lemma renames_append (commands commands' : List Command) :
    renames (commands ++ commands') = renames commands ++ renames commands' :=
  List.filterMap_append

lemma renames_cons (c : Command) (commands : List Command) :
    renames (c :: commands) = renames [c] ++ renames commands :=
  renames_append [c] commands

namespace SftpUploaderAndRenamerQueue

/-- The put/rename pairs that the process was sent and has not executed. -/
def outstanding (st : SftpUploaderAndRenamerQueue) : List Segment :=
  renames (st.sftpProcess.executing.toList ++ st.sftpProcess.stdin)

/-- **No enqueued upload is lost**, at most one is outstanding, and they are reported in order.
Renamed is what the remote host says, and not what the queue believes. -/
structure NoUploadLost (st : SftpUploaderAndRenamerQueue) : Prop where
  queued_or_renamed : ∀ s ∈ st.enqueued, s ∈ st.segmentsQueuedForUpload ∨ s ∈ st.renamed
  outstanding : st.outstanding.length ≤ 1
  in_order : st.fileUploadAndRenameSuccess ++ st.segmentsQueuedForUpload = st.enqueued

/-- The condition: the echo of a rename is read after the rename was executed.  Only the line that
is read next is looked at; what is behind it in the pipe may be ahead of sftp. -/
def RenamedWhenRead (st : SftpUploaderAndRenamerQueue) : Event → Prop
  | .readLine => ∀ s ∈ renames st.sftpProcess.stdout.head?.toList, s ∈ st.renamed
  | _ => True

/-! ## The pair that is on its way -/

/-- What matters of a state for the segments. -/
structure Flow where
  queue : List Segment
  enqueued : List Segment
  reported : List Segment
  renamed : List Segment
  ready : Bool
  inProgress : Bool
  process : ProcessState
  stdin : List Segment
  executing : List Segment
  stdout : List Command

def flow (st : SftpUploaderAndRenamerQueue) : Flow where
  queue := st.segmentsQueuedForUpload
  enqueued := st.enqueued
  reported := st.fileUploadAndRenameSuccess
  renamed := st.renamed
  ready := st.sftpIsReadyForCommands
  inProgress := st.sftpPutInProgressSoWatchForRenameCommandEcho
  process := st.sftpProcess.state
  stdin := renames st.sftpProcess.stdin
  executing := renames st.sftpProcess.executing.toList
  stdout := st.sftpProcess.stdout

namespace Flow

/-- The rename of the segment is to be echoed, or never will be. -/
structure Sent (f : Flow) (s : Segment) : Prop where
  stdout : renames f.stdout = []
  executing : f.executing = []
  stdin : f.stdin = [] ∨ f.stdin = [s]
  renamed : ∀ s' ∈ f.renamed, s' ∈ f.reported

/-- The rename of the segment was echoed, and it is executed or going to be, or never will be. -/
structure Echoed (f : Flow) (s : Segment) : Prop where
  stdout : renames f.stdout = [s]
  stdin : f.stdin = []
  executing : f.executing = [] ∨ f.executing = [s]
  renamed : ∀ s' ∈ f.renamed, s' ∈ f.reported ∨ s' = s ∧ f.executing = []

/-- What holds in every state. -/
structure Sound (f : Flow) : Prop where
  numbered : f.enqueued.map (·.number) = List.range f.enqueued.length
  in_order : f.reported ++ f.queue = f.enqueued
  reported : ∀ s ∈ f.reported, s ∈ f.renamed
  idle : f.process = .notRunning ∨ f.process = .starting →
    f.ready = false ∧ f.inProgress = false ∧ f.stdout = []
  ready : f.process = .running ∨ f.process = .ended → f.ready = true
  /-- Nothing is on its way. -/
  none : f.inProgress = false → f.stdin = [] ∧ f.executing = [] ∧ renames f.stdout = [] ∧
    ∀ s ∈ f.renamed, s ∈ f.reported
  /-- The first segment of the queue is. -/
  one : f.inProgress = true → ∃ s rest, f.queue = s :: rest ∧ (f.Sent s ∨ f.Echoed s)

namespace Sound

variable {f : Flow}

lemma noUploadLost (h : f.Sound) : (∀ s ∈ f.enqueued, s ∈ f.queue ∨ s ∈ f.renamed) ∧
    (f.executing ++ f.stdin).length ≤ 1 := by
  constructor
  · intro s hs
    rw [← h.in_order] at hs
    exact (List.mem_append.1 hs).symm.imp_right (h.reported s)
  · cases hprogress : f.inProgress with
    | false =>
        obtain ⟨hstdin, hexecuting, -⟩ := h.none hprogress
        simp [hstdin, hexecuting]
    | true =>
        obtain ⟨s, rest, -, hsent | hechoed⟩ := h.one hprogress
        · rcases hsent.stdin with hstdin | hstdin
          · simp [hstdin, hsent.executing]
          · simp [hstdin, hsent.executing]
        · rcases hechoed.executing with hexecuting | hexecuting
          · simp [hexecuting, hechoed.stdin]
          · simp [hexecuting, hechoed.stdin]

/-- A segment is enqueued once. -/
lemma nodup (h : f.Sound) : (f.reported ++ f.queue).Nodup := by
  rw [h.in_order]
  refine List.Nodup.of_map (·.number) ?_
  rw [h.numbered]
  exact List.nodup_range

/-- What is queued was not reported. -/
lemma notMem_reported (h : f.Sound) {s : Segment} {rest : List Segment}
    (hqueue : f.queue = s :: rest) : s ∉ f.reported := fun hs =>
  (List.nodup_append.1 h.nodup).2.2 s hs s (by simp [hqueue]) rfl

lemma enqueue (h : f.Sound) {s : Segment} (hs : s.number = f.enqueued.length) :
    { f with queue := f.queue ++ [s], enqueued := f.enqueued ++ [s] }.Sound := by
  refine ⟨?_, ?_, h.reported, h.idle, h.ready, h.none, fun hprogress => ?_⟩
  · simp [h.numbered, hs, List.range_succ]
  · rw [← List.append_assoc, h.in_order]
  · obtain ⟨s', rest, hqueue, hpair⟩ := h.one hprogress
    refine ⟨s', rest ++ [s], by simp [hqueue], hpair.imp (fun hsent => ?_) fun hechoed => ?_⟩
    · exact ⟨hsent.stdout, hsent.executing, hsent.stdin, hsent.renamed⟩
    · exact ⟨hechoed.stdout, hechoed.stdin, hechoed.executing, hechoed.renamed⟩

/-- **The first segment of the queue is sent** to the process. -/
lemma send (h : f.Sound) {s : Segment} {rest : List Segment} (hqueue : f.queue = s :: rest)
    (hprogress : f.inProgress = false) (hready : f.ready = true) {stdin : List Segment}
    (hstdin : stdin = [] ∨ stdin = [s]) :
    { f with inProgress := true, stdin := stdin }.Sound := by
  obtain ⟨-, hexecuting, hstdout, hrenamed⟩ := h.none hprogress
  refine ⟨h.numbered, h.in_order, h.reported, fun hidle => ?_, h.ready, by simp, fun _ => ?_⟩
  · rw [(h.idle hidle).1] at hready
    cases hready
  · exact ⟨s, rest, hqueue, .inl ⟨hstdout, hexecuting, hstdin, hrenamed⟩⟩

/-- **The process ends**: the rename is not executed any more. -/
lemma ends (h : f.Sound) (hrunning : f.process = .running) :
    { f with process := .ended, stdin := [], executing := [] }.Sound := by
  refine ⟨h.numbered, h.in_order, h.reported, by simp, fun _ => h.ready (.inl hrunning),
    fun hprogress => ?_, fun hprogress => ?_⟩
  · obtain ⟨-, -, hstdout, hrenamed⟩ := h.none hprogress
    exact ⟨rfl, rfl, hstdout, hrenamed⟩
  · obtain ⟨s, rest, hqueue, hpair⟩ := h.one hprogress
    refine ⟨s, rest, hqueue, hpair.imp (fun hsent => ?_) fun hechoed => ?_⟩
    · exact ⟨hsent.stdout, rfl, .inl rfl, hsent.renamed⟩
    · exact ⟨hechoed.stdout, rfl, .inl rfl, fun s' hs' =>
        (hechoed.renamed s' hs').imp_right fun hs' => ⟨hs'.1, rfl⟩⟩

/-- **The process has finished**, and what it wrote was read. -/
lemma finish (h : f.Sound) (hstdout : f.stdout = []) :
    { f with
      process := .notRunning, ready := false, inProgress := false,
      stdin := [], executing := [] }.Sound := by
  refine ⟨h.numbered, h.in_order, h.reported, fun _ => ⟨rfl, rfl, hstdout⟩, by simp,
    fun _ => ⟨rfl, rfl, by simp [hstdout], ?_⟩, by simp⟩
  cases hprogress : f.inProgress with
  | false => exact (h.none hprogress).2.2.2
  | true =>
      obtain ⟨s, rest, -, hsent | hechoed⟩ := h.one hprogress
      · exact hsent.renamed
      · have hnil := hechoed.stdout
        rw [hstdout] at hnil
        cases hnil

lemma start (h : f.Sound) (hidle : f.process = .notRunning) :
    { f with process := .starting, stdin := [], executing := [], stdout := [] }.Sound := by
  obtain ⟨hready, hprogress, -⟩ := h.idle (.inl hidle)
  exact ⟨h.numbered, h.in_order, h.reported, fun _ => ⟨hready, hprogress, rfl⟩, by simp,
    fun _ => ⟨rfl, rfl, rfl, (h.none hprogress).2.2.2⟩, by simp [hprogress]⟩

lemma started (h : f.Sound) (hidle : f.process = .starting) :
    { f with process := .running, ready := true }.Sound :=
  ⟨h.numbered, h.in_order, h.reported, by simp, fun _ => rfl, h.none, fun hprogress => by
    rw [(h.idle (.inr hidle)).2.1] at hprogress
    cases hprogress⟩

/-- **The process echoes a command.** -/
lemma echo (h : f.Sound) (hrunning : f.process = .running) {c : Command} {stdin : List Segment}
    (hstdin : f.stdin = renames [c] ++ stdin) :
    { f with stdin := stdin, executing := renames [c], stdout := f.stdout ++ [c] }.Sound := by
  have hidle (hidle : f.process = .notRunning ∨ f.process = .starting) : False := by
    rw [hrunning] at hidle
    exact hidle.elim nofun nofun
  cases hprogress : f.inProgress with
  | false =>
      obtain ⟨hnil, -, hstdout, hrenamed⟩ := h.none hprogress
      rw [hstdin, List.append_eq_nil_iff] at hnil
      exact ⟨h.numbered, h.in_order, h.reported, fun h' => (hidle h').elim, h.ready,
        fun _ => ⟨hnil.2, hnil.1, by simp [hstdout, hnil.1], hrenamed⟩, by simp⟩
  | true =>
      refine ⟨h.numbered, h.in_order, h.reported, fun h' => (hidle h').elim, h.ready, by simp,
        fun _ => ?_⟩
      obtain ⟨s, rest, hqueue, hpair⟩ := h.one hprogress
      refine ⟨s, rest, hqueue, ?_⟩
      cases hc : renames [c] with
      | nil =>
          rw [hc, List.nil_append] at hstdin
          have hstdout : renames (f.stdout ++ [c]) = renames f.stdout := by simp [hc]
          refine hpair.imp (fun hsent => ?_) fun hechoed => ?_
          · exact ⟨hstdout.trans hsent.stdout, rfl, hstdin ▸ hsent.stdin, hsent.renamed⟩
          · exact ⟨hstdout.trans hechoed.stdout, hstdin ▸ hechoed.stdin, .inl rfl,
              fun s' hs' => (hechoed.renamed s' hs').imp_right fun hs' => ⟨hs'.1, rfl⟩⟩
      | cons s' others =>
          rw [hc, List.cons_append] at hstdin
          obtain hsent | hechoed := hpair
          · -- it is the one that was sent
            have hone : f.stdin = [s] := hsent.stdin.resolve_left (by simp [hstdin])
            rw [hstdin, List.cons.injEq, List.append_eq_nil_iff] at hone
            obtain ⟨rfl, rfl, rfl⟩ := hone
            exact .inr ⟨by simp [hc, hsent.stdout], rfl, .inr rfl,
              fun s hs => .inl (hsent.renamed s hs)⟩
          · rw [hechoed.stdin] at hstdin
            cases hstdin

/-- **The rename is executed.** -/
lemma execute (h : f.Sound) {s : Segment} (hexecuting : f.executing = [s]) :
    { f with executing := [], renamed := f.renamed ++ [s] }.Sound := by
  have hprogress : f.inProgress = true := by
    by_contra hnot
    have hnil := (h.none (Bool.eq_false_iff.2 hnot)).2.1
    rw [hexecuting] at hnil
    cases hnil
  obtain ⟨s', rest, hqueue, hsent | hechoed⟩ := h.one hprogress
  · rw [hsent.executing] at hexecuting
    cases hexecuting
  · have hone : f.executing = [s'] := hechoed.executing.resolve_left (by simp [hexecuting])
    rw [hexecuting] at hone
    cases hone
    refine ⟨h.numbered, h.in_order, fun s hs => List.mem_append_left _ (h.reported s hs), h.idle,
      h.ready, by simp [hprogress], fun _ =>
        ⟨s, rest, hqueue, .inr ⟨hechoed.stdout, hechoed.stdin, .inl rfl, fun s hs => ?_⟩⟩⟩
    rcases List.mem_append.1 hs with hs | hs
    · rcases hechoed.renamed s hs with hs | hs
      · exact .inl hs
      · rw [hexecuting] at hs
        cases hs.2
    · exact .inr ⟨List.mem_singleton.1 hs, rfl⟩

/-- Whose echo it is that can be read. -/
lemma echoed_of_stdout (h : f.Sound) {s : Segment} {stdout : List Command}
    (hstdout : f.stdout = .rename s :: stdout) :
    f.inProgress = true ∧ (∃ rest, f.queue = s :: rest) ∧ f.Echoed s := by
  have hmem : renames f.stdout = s :: renames stdout := by rw [hstdout]; rfl
  have hprogress : f.inProgress = true := by
    by_contra hnot
    have hnil := (h.none (Bool.eq_false_iff.2 hnot)).2.2.1
    rw [hmem] at hnil
    cases hnil
  obtain ⟨s', rest, hqueue, hsent | hechoed⟩ := h.one hprogress
  · have hnil := hsent.stdout
    rw [hmem] at hnil
    cases hnil
  · have hone := hechoed.stdout
    rw [hmem, List.cons.injEq] at hone
    obtain ⟨rfl, -⟩ := hone
    exact ⟨hprogress, ⟨rest, hqueue⟩, hechoed⟩

/-- **The echo is read** and the segment reported, which is sound if it was renamed. -/
lemma read (h : f.Sound) {s : Segment} {rest : List Segment} {stdout : List Command}
    (hqueue : f.queue = s :: rest) (hstdout : f.stdout = .rename s :: stdout)
    (hrenamed : s ∈ f.renamed) :
    { f with
      inProgress := false, queue := rest, reported := f.reported ++ [s],
      stdout := stdout }.Sound := by
  obtain ⟨-, -, hechoed⟩ := h.echoed_of_stdout hstdout
  have hexecuting : f.executing = [] := by
    rcases hechoed.renamed s hrenamed with hs | hs
    · exact absurd hs (h.notMem_reported hqueue)
    · exact hs.2
  have hrest : renames stdout = [] := by
    have hone := hechoed.stdout
    rw [hstdout] at hone
    exact (List.cons.inj hone).2
  refine ⟨h.numbered, ?_, fun s' hs' => ?_, fun hidle => ?_, h.ready,
    fun _ => ⟨hechoed.stdin, hexecuting, hrest, fun s' hs' => ?_⟩, by simp⟩
  · rw [List.append_assoc, List.singleton_append, ← hqueue]
    exact h.in_order
  · rcases List.mem_append.1 hs' with hs' | hs'
    · exact h.reported s' hs'
    · exact List.mem_singleton.1 hs' ▸ hrenamed
  · have hnil := (h.idle hidle).2.2
    rw [hstdout] at hnil
    cases hnil
  · rcases hechoed.renamed s' hs' with hs' | hs'
    · exact List.mem_append_left _ hs'
    · exact List.mem_append_right _ (List.mem_singleton.2 hs'.1)

/-- Another line is read. -/
lemma skip (h : f.Sound) {c : Command} {stdout : List Command} (hstdout : f.stdout = c :: stdout)
    (hc : renames [c] = []) : { f with stdout := stdout }.Sound := by
  have hsame : renames f.stdout = renames stdout := by
    rw [hstdout, renames_cons, hc, List.nil_append]
  refine ⟨h.numbered, h.in_order, h.reported, fun hidle => ?_, h.ready, fun hprogress => ?_,
    fun hprogress => ?_⟩
  · have hnil := (h.idle hidle).2.2
    rw [hstdout] at hnil
    cases hnil
  · obtain ⟨hstdin, hexecuting, hnil, hrenamed⟩ := h.none hprogress
    exact ⟨hstdin, hexecuting, hsame ▸ hnil, hrenamed⟩
  · obtain ⟨s, rest, hqueue, hpair⟩ := h.one hprogress
    refine ⟨s, rest, hqueue, hpair.imp (fun hsent => ?_) fun hechoed => ?_⟩
    · exact ⟨hsame ▸ hsent.stdout, hsent.executing, hsent.stdin, hsent.renamed⟩
    · exact ⟨hsame ▸ hechoed.stdout, hechoed.stdin, hechoed.executing, hechoed.renamed⟩

end Sound

end Flow

/-! ## The functions of the queue -/

section Functions

variable {st : SftpUploaderAndRenamerQueue}

lemma noUploadLost_of_sound (h : st.flow.Sound) : st.NoUploadLost := by
  refine ⟨h.noUploadLost.1, ?_, h.in_order⟩
  rw [outstanding, renames_append]
  exact h.noUploadLost.2

lemma NoUploadLost.flow (h : st.NoUploadLost) :
    ∀ s ∈ st.flow.enqueued, s ∈ st.flow.queue ∨ s ∈ st.flow.renamed :=
  h.queued_or_renamed

/-- No rename is written: not to somebody who is going to stop. -/
@[simp] lemma flow_stopSftpProcess (st : SftpUploaderAndRenamerQueue) :
    st.stopSftpProcess.flow = st.flow := by
  unfold stopSftpProcess write
  split
  · split
    · simp [flow, renames]
    · rfl
  · split
    · rfl
    · rfl

lemma sound_tryDequeue (h : st.flow.Sound) : st.tryDequeueAndUploadSingleSegment.flow.Sound := by
  unfold tryDequeueAndUploadSingleSegment
  dsimp only
  split
  · split
    · rw [flow_stopSftpProcess]
      exact h
    · exact h
  · next head rest hqueue =>
      split
      · exact h
      · next hprogress =>
          split
          · next hready =>
              have hstdin := (h.none (Bool.eq_false_iff.2 hprogress)).1
              unfold write
              split
              · have hsent :
                    renames (st.sftpProcess.stdin ++ [.put head, .rename head]) = [head] := by
                  rw [renames_append]
                  exact (congrArg (· ++ [head]) hstdin).trans rfl
                exact h.send hqueue (Bool.eq_false_iff.2 hprogress) hready (.inr hsent)
              · exact h.send hqueue (Bool.eq_false_iff.2 hprogress) hready (.inl hstdin)
          · split
            · exact h
            · exact h

lemma sound_enqueue (h : st.flow.Sound) (dest src : String) :
    (st.enqueueFileForUploadAndRename dest src).flow.Sound :=
  sound_tryDequeue (h.enqueue rfl)

lemma sound_changeState (h : st.flow.Sound) (new : QueueState) :
    (st.changeSftpUploaderAndRenamerQueueState new).flow.Sound := by
  unfold changeSftpUploaderAndRenamerQueueState
  dsimp only
  split
  · rw [flow_stopSftpProcess]
    exact h
  · split
    · rw [flow_stopSftpProcess]
      exact h
    · exact h

lemma flow_handleFinished (st : SftpUploaderAndRenamerQueue) : st.handleSftpProcessFinished.flow =
    { st.flow with ready := false, inProgress := false } := by
  unfold handleSftpProcessFinished
  dsimp only
  split
  · rfl
  · rfl
  · split
    · rfl
    · rfl
  · rfl
  · rfl

lemma sound_finish (h : st.flow.Sound) (hstdout : st.sftpProcess.stdout = []) :
    st.finish.flow.Sound := by
  have hfinish := h.finish hstdout
  unfold SftpUploaderAndRenamerQueue.finish
  rw [flow_handleFinished]
  simpa [flow, hstdout] using hfinish

lemma sound_started (h : st.flow.Sound) (hstarting : st.sftpProcess.state = .starting)
    (finishes : Bool) : (st.handleSftpProcessStarted finishes).flow.Sound := by
  unfold handleSftpProcessStarted
  split
  · have hready : st.finish.sftpIsReadyForCommands = false :=
      congrArg Flow.ready (flow_handleFinished { st with sftpProcess := {} })
    have hsame : { st.finish with sftpIsReadyForCommands := false, state := .stopNow }.flow =
        st.finish.flow := by
      simp [flow, hready]
    rw [hsame]
    exact sound_finish h (h.idle (.inr hstarting)).2.2
  · exact h.started hstarting

lemma sound_processEnds (h : st.flow.Sound) (hrunning : st.sftpProcess.state = .running) :
    st.processEnds.flow.Sound :=
  h.ends hrunning

lemma sound_echo (h : st.flow.Sound) (hrunning : st.sftpProcess.state = .running) :
    st.echo.flow.Sound := by
  unfold SftpUploaderAndRenamerQueue.echo
  split
  · next command rest _ hstdin =>
      exact h.echo hrunning ((congrArg renames hstdin).trans (renames_cons command rest))
  · exact h

lemma sound_execute (h : st.flow.Sound) (hrunning : st.sftpProcess.state = .running)
    (succeeds : Bool) : (st.execute succeeds).flow.Sound := by
  unfold SftpUploaderAndRenamerQueue.execute
  split
  · exact h
  · next command hexecuting =>
      split
      · cases command with
        | put s =>
            convert h using 1
            simp [flow, renames, hexecuting]
        | rename s =>
            exact h.execute
              (congrArg (fun command : Option Command => renames command.toList) hexecuting)
        | bye => exact sound_processEnds h hrunning
      · exact sound_processEnds h hrunning

/-- A line that is no echo of a rename is disregarded. -/
lemma processLine_of_renames {line : Command} (hline : renames [line] = []) :
    st.processLine line = st := by
  unfold processLine
  cases line with
  | put s => simp
  | rename s => cases hline
  | bye => simp

/-- **The echo of a rename is read.** -/
lemma flow_dequeue (st : SftpUploaderAndRenamerQueue) {s : Segment} {rest : List Segment}
    (hqueue : st.segmentsQueuedForUpload = s :: rest) : st.dequeueUploadedAndRenamed.flow =
      { st.flow with
        inProgress := false, queue := rest
        reported := st.flow.reported ++ [s] } := by
  unfold dequeueUploadedAndRenamed
  rw [hqueue]
  dsimp only
  split
  · rw [flow_stopSftpProcess]
    rfl
  · rfl

/-- **A line is read**: no upload is lost exactly if the line is not the echo of a rename that was
not executed, and then the state is sound. -/
lemma readLine_iff (h : st.flow.Sound) :
    (st.RenamedWhenRead .readLine → st.readLine.flow.Sound) ∧
      (st.readLine.NoUploadLost → st.RenamedWhenRead .readLine) := by
  unfold RenamedWhenRead readLine
  cases hstdout : st.sftpProcess.stdout with
  | nil => exact ⟨fun _ => h, fun _ s hs => by simp at hs⟩
  | cons line stdout =>
      dsimp only
      cases hline : renames [line] with
      | nil =>
          rw [processLine_of_renames hline]
          exact ⟨fun _ => h.skip hstdout hline, fun _ s hs => by simp [hline] at hs⟩
      | cons s others =>
          obtain ⟨rfl, rfl⟩ : line = .rename s ∧ others = [] := by
            cases line <;> simp_all [renames]
          obtain ⟨hprogress, ⟨rest, hqueue⟩, -⟩ := h.echoed_of_stdout hstdout
          have hready : st.sftpIsReadyForCommands = true := by
            have hrunning : st.sftpProcess.state = .running ∨ st.sftpProcess.state = .ended := by
              have hidle (hidle : st.sftpProcess.state = .notRunning ∨
                  st.sftpProcess.state = .starting) : False := by
                have hnil : st.sftpProcess.stdout = [] := (h.idle hidle).2.2
                rw [hstdout] at hnil
                cases hnil
              cases hstate : st.sftpProcess.state with
              | notRunning => exact (hidle (.inl hstate)).elim
              | starting => exact (hidle (.inr hstate)).elim
              | running => exact .inl rfl
              | ended => exact .inr rfl
            exact h.ready hrunning
          have hprocess : { st with sftpProcess.stdout := stdout }.processLine (.rename s) =
              { st with sftpProcess.stdout := stdout }.dequeueUploadedAndRenamed := by
            unfold processLine
            rw [if_pos hready]
            exact if_pos hprogress
          have hflow := flow_dequeue { st with sftpProcess.stdout := stdout } hqueue
          rw [hprocess]
          constructor
          · intro hrenamed
            rw [hflow]
            exact h.read hqueue hstdout (hrenamed s (by simp [hline]))
          · intro hlost s' hs'
            obtain rfl : s' = s := by simpa [hline] using hs'
            have hqueue' : st.segmentsQueuedForUpload = s' :: rest := hqueue
            have henqueued : s' ∈ st.enqueued := by
              have horder : st.fileUploadAndRenameSuccess ++ st.segmentsQueuedForUpload =
                  st.enqueued := h.in_order
              rw [← horder, hqueue']
              exact List.mem_append_right _ List.mem_cons_self
            have hkept := hlost.flow
            rw [hflow] at hkept
            have hnodup : (s' :: rest).Nodup := hqueue ▸ (List.nodup_append.1 h.nodup).2.1
            exact (hkept s' henqueued).resolve_left (List.nodup_cons.1 hnodup).1

/-- **The step lemma**: a step is sound, apart from lines that are read. -/
lemma sound_step (h : st.flow.Sound) {x : Event} (hx : st.RenamedWhenRead x) :
    (st.step x).flow.Sound := by
  unfold step
  cases x with
  | enqueueFileForUploadAndRename dest src => exact sound_enqueue h dest src
  | changeState new => exact sound_changeState h new
  | retryTimerTimedOut =>
      dsimp only
      split
      · exact sound_tryDequeue h
      · exact h
  | invoked =>
      dsimp only
      split
      · exact h
      · have hrest : { st with invocations := st.invocations - 1 }.flow.Sound := h
        exact sound_tryDequeue hrest
  | restartTimerTimedOut =>
      dsimp only
      split
      · exact h
      · unfold startSftpProcessInBatchMode
        split
        · next hidle => exact h.start hidle
        · exact h
  | killerTimerTimedOut =>
      dsimp only
      split
      · split
        · next hrunning => exact sound_processEnds h hrunning
        · exact h
      · exact h
  | processStarted finishes =>
      dsimp only
      split
      · next hstarting => exact sound_started h hstarting finishes
      · exact h
  | echo =>
      dsimp only
      split
      · next hrunning => exact sound_echo h hrunning
      · exact h
  | execute succeeds =>
      dsimp only
      split
      · next hrunning => exact sound_execute h hrunning succeeds
      · exact h
  | lost =>
      dsimp only
      split
      · next hrunning => exact sound_processEnds h hrunning
      · exact h
  | readLine => exact (readLine_iff h).1 hx
  | processFinished =>
      dsimp only
      split
      · next hended => exact sound_finish h hended.2
      · exact h

/-- Only a line that is read can lose an upload. -/
lemma step_iff (h : st.flow.Sound) (x : Event) :
    (st.step x).NoUploadLost ↔ st.RenamedWhenRead x := by
  refine ⟨fun hlost => ?_, fun hx => noUploadLost_of_sound (sound_step h hx)⟩
  cases x with
  | readLine => exact (readLine_iff h).2 hlost
  | _ => trivial

lemma sound_start (queued : List (String × String)) : (start queued).flow.Sound := by
  have hnumbers : (queued.mapIdx fun i names => (⟨names.1, names.2, i⟩ : Segment)).map (·.number) =
      List.range (queued.mapIdx fun i names => (⟨names.1, names.2, i⟩ : Segment)).length := by
    refine List.ext_getElem (by simp) fun i _ _ => ?_
    simp
  exact ⟨hnumbers, rfl, nofun, fun _ => ⟨rfl, rfl, rfl⟩, fun hprocess => hprocess.elim nofun nofun,
    fun _ => ⟨rfl, rfl, rfl, nofun⟩, nofun⟩

end Functions

/-- **No enqueued upload is lost**, in every state of a run, if and only if no echo of a rename is
read before the rename is executed.

The condition is on the moment at which a line is read, and is met whenever sftp is faster than the
reader.  It is necessary because the segment has then left the queue, and nothing remembers it if
the process ends before the rename. -/
theorem noUploadLost_iff (queued : List (String × String)) (events : List Event) :
    Machine.HoldsThroughout step NoUploadLost (start queued) events ↔
      Machine.StaysWithin step RenamedWhenRead (start queued) events :=
  Machine.holdsThroughout_iff_staysWithin (I := fun st => st.flow.Sound) (fun _ => True)
    (fun _ _ _ h _ hx => sound_step h hx) (fun _ x _ h _ => step_iff h x) (fun _ _ => trivial)
    (sound_start queued) (noUploadLost_of_sound (sound_start queued))

/-- The connection is lost when the rename is echoed and not yet executed. -/
def lostAfterEcho : List Event :=
  [.processStarted false, .enqueueFileForUploadAndRename "1.ogg" "a.ogg", .echo, .execute true,
    .echo, .readLine, .readLine, .lost, .processFinished]

theorem not_noUploadLost : ¬ ∀ queued events,
    Machine.HoldsThroughout step NoUploadLost (start queued) events := by
  intro hkept
  have hfinal := (hkept [] lostAfterEcho).run.queued_or_renamed ⟨"1.ogg", "a.ogg", 0⟩
    (by decide +kernel)
  exact absurd hfinal (by decide +kernel)

end SftpUploaderAndRenamerQueue

end Autobackup.SftpQueue
