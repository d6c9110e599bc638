import Autobackup.Foundation.TextLines
import Mathlib.Data.List.Nodup

/-!
# The segments of ffmpeg

ffmpeg adds the name of every finished segment to a list, which `FfmpegSegmentUploader` watches.  It
answers a notification by reading *one* line of the list, whatever is there: a second name is left
for the next notification, and a name that is not written completely is taken for a whole one.  So
all goes well if each notification finds one name (`enqueued_exactly_once_iff`).

The list is opened at the first notification, and that this succeeds is taken for granted.  A
character of the model is a byte of the list.

Notifications may be late or come together, which is why their number and what is written between
them are free.  Left out are the process of ffmpeg, the timer that warns when no segment comes, and
what the queue does with a segment (`Autobackup.SftpQueue.Queue`).
-/

namespace Autobackup.SegmentUploader

open QString

/-- What `enqueueFileForUploadAndRename` is called with. -/
structure Segment where
  destFilenameToRenameToAfterUpload : Text
  srcFilenameToUpload : Text
  deriving DecidableEq, Repr

structure FfmpegSegmentUploader where
  segmentLengthSeconds : ℤ
  ffmpegSegmentUploaderSessionPath : Text
  /-- What ffmpeg has written to the list. -/
  segmentsEntryList : Text := []
  /-- The position of the text stream, once the list is opened. -/
  ffmpegSegmentsEntryListFileTextStream : Option ℕ := none
  enqueued : List Segment := []
  deriving Repr

inductive Event
  | write (text : Text)
  /-- The watcher notifies of a change, at this time. -/
  | changed (currentMSecsSinceEpoch : ℤ)
  deriving DecidableEq, Repr

/-- The line at a position of a text stream, as far as it is there, and the position after it. -/
def readLine (text : Text) (position : ℕ) : Text × ℕ :=
  let line := (text.drop position).takeWhile (· ≠ '\n')
  (line, min text.length (position + line.length + 1))

/-- The second in which a segment has begun that is finished now. -/
def beginSecs (segmentLengthSeconds currentMSecsSinceEpoch : ℤ) : ℤ :=
  (currentMSecsSinceEpoch - 1000 * segmentLengthSeconds).tdiv 1000

namespace FfmpegSegmentUploader

/-- `newPair` -/
def newPair (st : FfmpegSegmentUploader) (currentMSecsSinceEpoch : ℤ) (newLine : Text) :
    Segment where
  destFilenameToRenameToAfterUpload :=
    number (beginSecs st.segmentLengthSeconds currentMSecsSinceEpoch) ++ ".ogg".toList
  srcFilenameToUpload := st.ffmpegSegmentUploaderSessionPath ++ newLine

def handleSegmentsEntryListFileModified (st : FfmpegSegmentUploader)
    (currentMSecsSinceEpoch : ℤ) : FfmpegSegmentUploader :=
  match st.ffmpegSegmentsEntryListFileTextStream with
  | none => st
  | some position =>
      let (newLine, position) := readLine (readAsText st.segmentsEntryList) position
      let st := { st with ffmpegSegmentsEntryListFileTextStream := some position }
      if newLine = [] then st
      else { st with enqueued := st.enqueued ++ [st.newPair currentMSecsSinceEpoch newLine] }

/-- The directory is watched until the list is there, and from then on the list. -/
def handleFfmpegSessionDirChangedSoMaybeTransformIntoFileWatcher (st : FfmpegSegmentUploader)
    (currentMSecsSinceEpoch : ℤ) : FfmpegSegmentUploader :=
  { st with ffmpegSegmentsEntryListFileTextStream := some 0
    }.handleSegmentsEntryListFileModified currentMSecsSinceEpoch

def step (st : FfmpegSegmentUploader) : Event → FfmpegSegmentUploader
  | .write text => { st with segmentsEntryList := st.segmentsEntryList ++ text }
  | .changed now =>
      match st.ffmpegSegmentsEntryListFileTextStream with
      | none => st.handleFfmpegSessionDirChangedSoMaybeTransformIntoFileWatcher now
      | some _ => st.handleSegmentsEntryListFileModified now

end FfmpegSegmentUploader

/-! ## Histories -/

/-- What is written to the list. -/
def written (events : List Event) : Text :=
  events.flatMap fun
    | .write text => text
    | .changed _ => []

/-- What happens from the creation of the list on.  Names are not empty. -/
structure History where
  segmentLengthSeconds : ℤ
  ffmpegSegmentUploaderSessionPath : Text
  events : List Event
  names : ∀ name ∈ completeLines (written events), name ≠ []

/-- No writes since the last notification: all notifications were handled, and none is owed. -/
def IsQuiet (events : List Event) : Prop := ∀ text, events.getLast? ≠ some (.write text)

namespace History

variable (h : History)

/-- The uploader after some of the events. -/
def run (events : List Event) : FfmpegSegmentUploader :=
  events.foldl FfmpegSegmentUploader.step
    { segmentLengthSeconds := h.segmentLengthSeconds
      ffmpegSegmentUploaderSessionPath := h.ffmpegSegmentUploaderSessionPath }

/-- The segments that were finished are enqueued, with different remote names. -/
structure Correct (events : List Event) : Prop where
  src : (h.run events).enqueued.map Segment.srcFilenameToUpload =
    (completeLines (written events)).map (h.ffmpegSegmentUploaderSessionPath ++ ·)
  dest : ((h.run events).enqueued.map Segment.destFilenameToRenameToAfterUpload).Nodup

/-- **Every finished segment is enqueued exactly once** whenever the notifications were handled. -/
def EnqueuedExactlyOnce : Prop :=
  ∀ before after, h.events = before ++ after → IsQuiet before → h.Correct before

end History

/-! ## What the notifications find -/

/-- What there is to read. -/
structure Heard where
  /-- What follows the names that were complete at the last notification. -/
  unread : Text := []
  /-- The times of the notifications that found something. -/
  times : List ℤ := []

def Heard.hear (heard : Heard) : Event → Heard
  | .write text => { heard with unread := heard.unread ++ readAsText text }
  | .changed now =>
      if heard.unread = [] then heard
      else { unread := unfinishedLine heard.unread, times := heard.times ++ [now] }

def heard (events : List Event) : Heard := events.foldl Heard.hear {}

/-- A notification that comes now finds nothing, or one name and perhaps the beginning of the next.
Carriage returns would be lost. -/
structure FindsOneName (before : List Event) : Prop where
  one : (heard before).unread = [] ∨ (completeLines (heard before).unread).length = 1
  carriageReturn : ∀ name ∈ completeLines (written before), '\r' ∉ name

/-! ## The uploader reads along -/

namespace FfmpegSegmentUploader

/-- A notification, whether or not it is the first one. -/
lemma step_changed (st : FfmpegSegmentUploader) (now : ℤ) :
    st.step (.changed now) =
      let (newLine, position) := readLine (readAsText st.segmentsEntryList)
        (st.ffmpegSegmentsEntryListFileTextStream.getD 0)
      { st with
        ffmpegSegmentsEntryListFileTextStream := some position
        enqueued := st.enqueued ++ if newLine = [] then [] else [st.newPair now newLine] } := by
  have hstep : st.step (.changed now) =
      { st with
        ffmpegSegmentsEntryListFileTextStream :=
          some (st.ffmpegSegmentsEntryListFileTextStream.getD 0)
        }.handleSegmentsEntryListFileModified now := by
    obtain ⟨_, _, _, stream, _⟩ := st
    cases stream <;> rfl
  rw [hstep, handleSegmentsEntryListFileModified]
  simp only
  split
  · rw [List.append_nil]
  · rfl

end FfmpegSegmentUploader

variable {h : History} {events : List Event} {event : Event} {names : List Text} {now : ℤ}
  {text unread : Text}

lemma heard_concat : heard (events ++ [event]) = (heard events).hear event := by
  rw [heard, heard, List.foldl_append, List.foldl_cons, List.foldl_nil]

lemma times_sublist (events after : List Event) :
    ((heard events).times).Sublist (heard (events ++ after)).times := by
  induction after using List.reverseRecOn with
  | nil => rw [List.append_nil]
  | append_singleton after event ih =>
      rw [← List.append_assoc, heard_concat]
      refine ih.trans ?_
      cases event with
      | write text => exact List.Sublist.refl _
      | changed now =>
          rw [Heard.hear]
          split
          · exact List.Sublist.refl _
          · exact List.sublist_append_left _ _

lemma written_append (events after : List Event) :
    written (events ++ after) = written events ++ written after :=
  List.flatMap_append

lemma written_concat_write : written (events ++ [.write text]) = written events ++ text := by
  simp [written]

lemma written_concat_changed : written (events ++ [.changed now]) = written events := by
  simp [written]

namespace History

lemma run_concat : h.run (events ++ [event]) = (h.run events).step event := by
  rw [run, run, List.foldl_append, List.foldl_cons, List.foldl_nil]

/-- What no event changes, and what ffmpeg has written. -/
structure Frame (st : FfmpegSegmentUploader) (h : History) (events : List Event) : Prop where
  segmentLengthSeconds : st.segmentLengthSeconds = h.segmentLengthSeconds
  sessionPath : st.ffmpegSegmentUploaderSessionPath = h.ffmpegSegmentUploaderSessionPath
  segmentsEntryList : st.segmentsEntryList = written events

lemma frame (h : History) (events : List Event) : Frame (h.run events) h events := by
  induction events using List.reverseRecOn with
  | nil => exact ⟨rfl, rfl, rfl⟩
  | append_singleton events event ih =>
      obtain ⟨hlength, hpath, hlist⟩ := ih
      rw [run_concat]
      cases event with
      | write text =>
          refine ⟨hlength, hpath, ?_⟩
          rw [written_concat_write, ← hlist]
          rfl
      | changed now =>
          rw [FfmpegSegmentUploader.step_changed]
          refine ⟨hlength, hpath, ?_⟩
          rw [written_concat_changed]
          exact hlist

/-- The remote name of a segment that is found at this time. -/
def remoteName (h : History) (now : ℤ) : Text :=
  number (beginSecs h.segmentLengthSeconds now) ++ ".ogg".toList

/-- The names that were complete at the last notification are enqueued, and the text stream is
behind them. -/
structure Reads (h : History) (events : List Event) (names : List Text) : Prop where
  written : readAsText (written events) = joinLines names ++ (heard events).unread
  newline : ∀ name ∈ names, '\n' ∉ name
  position : (h.run events).ffmpegSegmentsEntryListFileTextStream.getD 0 = (joinLines names).length
  src : (h.run events).enqueued.map Segment.srcFilenameToUpload =
    names.map (h.ffmpegSegmentUploaderSessionPath ++ ·)
  dest : (h.run events).enqueued.map Segment.destFilenameToRenameToAfterUpload =
    (heard events).times.map h.remoteName

lemma reads_nil : h.Reads [] [] := ⟨rfl, nofun, rfl, rfl, rfl⟩

lemma Reads.write (hreads : h.Reads events names) : h.Reads (events ++ [.write text]) names := by
  refine ⟨?_, hreads.newline, ?_, ?_, ?_⟩
  · rw [written_concat_write, readAsText_append, hreads.written, heard_concat, List.append_assoc]
    rfl
  · rw [run_concat]
    exact hreads.position
  · rw [run_concat]
    exact hreads.src
  · rw [run_concat, heard_concat]
    exact hreads.dest

/-- A notification reads the first line of what is unread. -/
lemma Reads.run_changed (hreads : h.Reads events names) (now : ℤ) :
    h.run (events ++ [.changed now]) =
      let line := (heard events).unread.takeWhile (· ≠ '\n')
      { h.run events with
        ffmpegSegmentsEntryListFileTextStream := some (min
          (joinLines names ++ (heard events).unread).length
          ((joinLines names).length + line.length + 1))
        enqueued := (h.run events).enqueued ++ if line = [] then [] else
          [⟨h.remoteName now, h.ffmpegSegmentUploaderSessionPath ++ line⟩] } := by
  have hframe := h.frame events
  rw [run_concat, FfmpegSegmentUploader.step_changed, hframe.segmentsEntryList, hreads.position,
    hreads.written, readLine, List.drop_left]
  simp only [FfmpegSegmentUploader.newPair, hframe.sessionPath, hframe.segmentLengthSeconds,
    hframe.segmentsEntryList, remoteName]

lemma Reads.src_changed (hreads : h.Reads events names) (now : ℤ) :
    (h.run (events ++ [.changed now])).enqueued.map Segment.srcFilenameToUpload =
      (names ++ if (heard events).unread.takeWhile (· ≠ '\n') = [] then [] else
        [(heard events).unread.takeWhile (· ≠ '\n')]).map
          (h.ffmpegSegmentUploaderSessionPath ++ ·) := by
  rw [hreads.run_changed, List.map_append, List.map_append, hreads.src]
  split <;> rfl

/-- Nothing new. -/
lemma Reads.changed_of_nil (hreads : h.Reads events names) (hunread : (heard events).unread = []) :
    h.Reads (events ++ [.changed now]) names := by
  have hrun := hreads.run_changed now
  have hheard : heard (events ++ [.changed now]) = heard events := by
    rw [heard_concat, Heard.hear, if_pos hunread]
  simp only [hunread, List.takeWhile_nil, if_true, List.append_nil, List.length_nil] at hrun
  refine ⟨?_, hreads.newline, ?_, ?_, ?_⟩
  · rw [written_concat_changed, hheard]
    exact hreads.written
  · rw [hrun]
    exact Nat.min_eq_left (Nat.le_succ _)
  · rw [hrun]
    exact hreads.src
  · rw [hrun, hheard]
    exact hreads.dest

lemma takeWhile_append {name rest : Text} (hname : '\n' ∉ name) :
    (name ++ '\n' :: rest).takeWhile (· ≠ '\n') = name := by
  rw [List.takeWhile_append_of_pos, List.takeWhile_cons_of_neg (by simp), List.append_nil]
  exact fun c hc => decide_eq_true fun heq => hname (heq ▸ hc)

/-- One more name. -/
lemma Reads.changed_of_name (hreads : h.Reads events names) {name rest : Text}
    (hunread : (heard events).unread = name ++ '\n' :: rest) (hname : '\n' ∉ name)
    (hrest : '\n' ∉ rest) (hne : name ≠ []) :
    h.Reads (events ++ [.changed now]) (names ++ [name]) := by
  have hrun := hreads.run_changed now
  have hheard : heard (events ++ [.changed now]) =
      { unread := rest, times := (heard events).times ++ [now] } := by
    rw [heard_concat, Heard.hear, if_neg (by simp [hunread]), hunread, unfinishedLine_append hname,
      unfinishedLine_of_not_mem hrest]
  simp only [hunread, takeWhile_append hname, if_neg hne] at hrun
  refine ⟨?_, ?_, ?_, ?_, ?_⟩
  · rw [written_concat_changed, hheard, hreads.written, hunread]
    simp
  · intro line hline
    rcases List.mem_append.1 hline with hline | hline
    · exact hreads.newline line hline
    · rw [List.mem_singleton.1 hline]
      exact hname
  · rw [hrun]
    simp
    omega
  · rw [hrun, List.map_append, List.map_append, hreads.src]
    rfl
  · rw [hrun, hheard, List.map_append, List.map_append, hreads.dest]
    rfl

end History

/-! ## One name at a time -/

/-- All notifications find one name. -/
def OneNameAtATime (events : List Event) : Prop :=
  ∀ before now after, events = before ++ .changed now :: after → FindsOneName before

lemma concat_eq_append_cons {before after : List Event} {last : Event}
    (heq : events ++ [last] = before ++ event :: after) :
    events = before ∧ last = event ∨ ∃ rest, events = before ++ event :: rest := by
  rcases List.eq_nil_or_concat after with rfl | ⟨rest, last', rfl⟩
  · obtain ⟨hevents, hlast⟩ := List.append_inj' heq rfl
    exact .inl ⟨hevents, List.cons.inj hlast |>.1⟩
  · rw [List.concat_eq_append, ← List.cons_append, ← List.append_assoc] at heq
    exact .inr ⟨rest, (List.append_inj' heq rfl).1⟩

lemma OneNameAtATime.of_append {after : List Event} (hone : OneNameAtATime (events ++ after)) :
    OneNameAtATime events := fun before now rest heq =>
  hone before now (rest ++ after) (by rw [heq, List.append_assoc, List.cons_append])

lemma OneNameAtATime.write (hone : OneNameAtATime events) :
    OneNameAtATime (events ++ [.write text]) := by
  intro before now after heq
  rcases concat_eq_append_cons heq with ⟨-, hlast⟩ | ⟨rest, hevents⟩
  · exact Event.noConfusion hlast
  · exact hone before now rest hevents

lemma OneNameAtATime.changed (hone : OneNameAtATime events) (hfinds : FindsOneName events) :
    OneNameAtATime (events ++ [.changed now]) := by
  intro before now after heq
  rcases concat_eq_append_cons heq with ⟨rfl, -⟩ | ⟨rest, hevents⟩
  · exact hfinds
  · exact hone before now rest hevents

namespace History

/-- The names of the model, if none has a carriage return. -/
lemma Reads.completeLines_eq (hreads : h.Reads events names) :
    (completeLines (SegmentUploader.written events)).map readAsText =
      names ++ completeLines (heard events).unread := by
  rw [← completeLines_readAsText, hreads.written, completeLines_joinLines_append hreads.newline]

lemma map_readAsText {names : List Text} (hcr : ∀ name ∈ names, '\r' ∉ name) :
    names.map readAsText = names :=
  (List.map_congr_left fun name hname => readAsText_eq_self (hcr name hname)).trans
    (List.map_id names)

/-- A notification that finds nothing or one name. -/
lemma Reads.changed (hreads : h.Reads events names) (now : ℤ) (hfinds : FindsOneName events)
    (hnames : ∀ name ∈ completeLines (SegmentUploader.written events), name ≠ []) :
    ∃ names, h.Reads (events ++ [.changed now]) names ∧
      completeLines (SegmentUploader.written events) = names := by
  have hcomplete := hreads.completeLines_eq
  rw [map_readAsText hfinds.carriageReturn] at hcomplete
  by_cases hunread : (heard events).unread = []
  · rw [hunread, completeLines_of_not_mem List.not_mem_nil, List.append_nil] at hcomplete
    exact ⟨names, hreads.changed_of_nil hunread, hcomplete⟩
  · obtain ⟨name, hname⟩ := List.length_eq_one_iff.1 (hfinds.one.resolve_left hunread)
    obtain ⟨hparts, hrest⟩ := exists_eq_joinLines (heard events).unread
    rw [hname, joinLines_cons, joinLines_nil, List.append_assoc, List.cons_append,
      List.nil_append] at hparts
    rw [hname] at hcomplete
    have hnewline : '\n' ∉ name := newline_not_mem_completeLines name
      (hname ▸ List.mem_singleton_self name)
    have hne : name ≠ [] := hnames name (hcomplete ▸ by simp)
    exact ⟨names ++ [name], hreads.changed_of_name hparts hnewline hrest hne, hcomplete⟩

/-- The history begins with these events. -/
def Begins (h : History) (events : List Event) : Prop := ∃ after, h.events = events ++ after

lemma Begins.of_concat (hbegins : h.Begins (events ++ [event])) : h.Begins events := by
  obtain ⟨after, heq⟩ := hbegins
  exact ⟨event :: after, by rw [heq, List.append_assoc, List.singleton_append]⟩

lemma Begins.names_ne_nil (hbegins : h.Begins events) :
    ∀ name ∈ completeLines (SegmentUploader.written events), name ≠ [] := by
  obtain ⟨after, heq⟩ := hbegins
  intro name hname
  refine h.names name ?_
  rw [heq, written_append, completeLines_append_text]
  exact List.mem_append_left _ hname

lemma exists_reads (hbegins : h.Begins events) (hone : OneNameAtATime events) :
    ∃ names, h.Reads events names := by
  induction events using List.reverseRecOn with
  | nil => exact ⟨[], reads_nil⟩
  | append_singleton events event ih =>
      obtain ⟨names, hreads⟩ := ih hbegins.of_concat hone.of_append
      cases event with
      | write text => exact ⟨names, hreads.write⟩
      | changed now =>
          obtain ⟨names, hreads, -⟩ :=
            hreads.changed now (hone events now [] rfl) hbegins.of_concat.names_ne_nil
          exact ⟨names, hreads⟩

/-! ### What is enqueued -/

lemma remoteName_nodup_iff {times : List ℤ} :
    (times.map h.remoteName).Nodup ↔ (times.map (beginSecs h.segmentLengthSeconds)).Nodup := by
  have hinjective : Function.Injective fun secs : ℤ => number secs ++ ".ogg".toList :=
    fun secs secs' heq => number_injective (List.append_cancel_right heq)
  rw [← List.nodup_map_iff hinjective, List.map_map]
  rfl

lemma Reads.correct_changed (hreads : h.Reads events names) (hfinds : FindsOneName events)
    (hnames : ∀ name ∈ completeLines (SegmentUploader.written events), name ≠ [])
    (htimes : ((heard (events ++ [.changed now])).times.map
      (beginSecs h.segmentLengthSeconds)).Nodup) :
    h.Correct (events ++ [.changed now]) := by
  obtain ⟨names, hreads, hcomplete⟩ := hreads.changed now hfinds hnames
  refine ⟨?_, ?_⟩
  · rw [hreads.src, written_concat_changed, hcomplete]
  · rw [hreads.dest, remoteName_nodup_iff]
    exact htimes

/-- What is read has no carriage returns. -/
lemma Reads.carriageReturn (hreads : h.Reads events names) :
    (∀ name ∈ names, '\r' ∉ name) ∧ '\r' ∉ (heard events).unread := by
  have hnot : '\r' ∉ joinLines names ++ (heard events).unread := by
    rw [← hreads.written]
    exact carriageReturn_not_mem_readAsText
  rw [List.mem_append, not_or] at hnot
  refine ⟨fun name hname hmem => hnot.1 ?_, hnot.2⟩
  exact List.mem_flatMap.2 ⟨name, hname, List.mem_append_left _ hmem⟩

lemma Reads.findsOneName (hreads : h.Reads events names)
    (hcorrect : h.Correct (events ++ [.changed now])) : FindsOneName events := by
  obtain ⟨hnamesCr, hunreadCr⟩ := hreads.carriageReturn
  have hsrc := hcorrect.src
  rw [hreads.src_changed, written_concat_changed] at hsrc
  have hcomplete := List.map_injective_iff.2 (List.append_right_injective _) hsrc
  have hcr : ∀ name ∈ completeLines (SegmentUploader.written events), '\r' ∉ name := by
    rw [← hcomplete]
    intro name hname
    rcases List.mem_append.1 hname with hname | hname
    · exact hnamesCr name hname
    · split at hname
      · exact absurd hname List.not_mem_nil
      · rw [List.mem_singleton.1 hname]
        exact fun hmem => hunreadCr (List.takeWhile_subset _ hmem)
  refine ⟨?_, hcr⟩
  have hlines := hreads.completeLines_eq
  rw [map_readAsText hcr, ← hcomplete] at hlines
  have hlines := List.append_cancel_left hlines
  split at hlines
  · next hnil =>
      left
      have hnewline := newline_not_mem_of_completeLines_eq_nil hlines.symm
      rw [← hnil]
      refine (List.takeWhile_eq_self_iff.2 fun c hc => decide_eq_true ?_).symm
      rintro rfl
      exact hnewline hc
  · right
    rw [← hlines]
    rfl

lemma Reads.nodup (hreads : h.Reads events names) (hcorrect : h.Correct events) :
    ((heard events).times.map (beginSecs h.segmentLengthSeconds)).Nodup := by
  have hdest := hcorrect.dest
  rwa [hreads.dest, remoteName_nodup_iff] at hdest

/-- What goes well up to some event went well before. -/
lemma oneNameAtATime_of_enqueuedExactlyOnce (henqueued : h.EnqueuedExactlyOnce)
    (hbegins : h.Begins events) : OneNameAtATime events ∧
      ((heard events).times.map (beginSecs h.segmentLengthSeconds)).Nodup := by
  induction events using List.reverseRecOn with
  | nil => exact ⟨fun before now after heq => by simp at heq, List.nodup_nil⟩
  | append_singleton events event ih =>
      obtain ⟨hone, hnodup⟩ := ih hbegins.of_concat
      cases event with
      | write text =>
          refine ⟨hone.write, ?_⟩
          rw [heard_concat]
          exact hnodup
      | changed now =>
          obtain ⟨names, hreads⟩ := exists_reads hbegins.of_concat hone
          obtain ⟨after, hevents⟩ := hbegins
          have hcorrect : h.Correct (events ++ [.changed now]) :=
            henqueued _ after hevents (by simp [IsQuiet])
          have hfinds := hreads.findsOneName hcorrect
          obtain ⟨names, hreads, -⟩ :=
            hreads.changed now hfinds (Begins.of_concat ⟨after, hevents⟩).names_ne_nil
          exact ⟨hone.changed hfinds, hreads.nodup hcorrect⟩

/-- **Every finished segment is enqueued exactly once, under a name of its own**, if and only if
each notification finds one name at most, and those that find one come in different seconds.

The remote name is made of the second at which a segment is noticed, minus the length of a segment,
so two that are noticed within one second overwrite each other at the other end.  A history is any
order of what ffmpeg writes and what is notified. -/
theorem enqueued_exactly_once_iff (h : History) :
    h.EnqueuedExactlyOnce ↔ OneNameAtATime h.events ∧
      ((heard h.events).times.map (beginSecs h.segmentLengthSeconds)).Nodup := by
  constructor
  · exact fun henqueued => oneNameAtATime_of_enqueuedExactlyOnce henqueued ⟨[], by simp⟩
  · rintro ⟨hone, hnodup⟩ before after hevents hquiet
    rcases List.eq_nil_or_concat before with rfl | ⟨events, event, rfl⟩
    · exact ⟨rfl, List.nodup_nil⟩
    · rw [List.concat_eq_append] at hevents hquiet ⊢
      cases event with
      | write text => exact absurd (List.getLast?_concat) (hquiet text)
      | changed now =>
          have hbegins : h.Begins events :=
            ⟨.changed now :: after, by rw [hevents, List.append_assoc, List.singleton_append]⟩
          rw [hevents] at hone hnodup
          have hfinds : FindsOneName events := hone events now after (by simp)
          obtain ⟨names, hreads⟩ := exists_reads hbegins hone.of_append.of_append
          refine hreads.correct_changed hfinds hbegins.names_ne_nil (hnodup.sublist ?_)
          exact (times_sublist _ after).map _

/-- Two segments are finished before the watcher notifies. -/
def twoSegments : History where
  segmentLengthSeconds := 10
  ffmpegSegmentUploaderSessionPath := "/session/".toList
  events := [.write "0.ogg\n1.ogg\n".toList, .changed 20000]
  names := by decide +kernel

/-- Only the first one is enqueued. -/
theorem not_enqueuedExactlyOnce_twoSegments : ¬ twoSegments.EnqueuedExactlyOnce := by
  intro henqueued
  have hquiet : IsQuiet twoSegments.events := by simp [IsQuiet, twoSegments]
  have hcorrect := henqueued twoSegments.events [] (List.append_nil _).symm hquiet
  have hlength := congrArg List.length hcorrect.src
  revert hlength
  decide +kernel

end History

end Autobackup.SegmentUploader
