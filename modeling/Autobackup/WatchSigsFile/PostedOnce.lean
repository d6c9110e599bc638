import Autobackup.WatchSigsFile.PostedFiles

/-!
# Every file is posted completely and once

Whatever happens in whatever order, postnews has one post at most, a file is noted once, and its
Message-IDs are those of the posts of its parts, in their order (`postsEachFileOnce`).  The
invariant says how far the current file is: what was posted of it and what the iterator still has
are all of its parts.

Two things are by design.  An empty file is noted although nothing is posted, and the queue is not
kept for the next start, which reads the sigs file as it is then.

The surroundings of an event are the file system and what postnews does at that moment, and an event
may be any of the signals.  The settings keep what was posted, and a restart begins with them and
with an empty queue.  Left out are the text of a post and failures to write the settings.
-/

namespace Autobackup.WatchSigsFile

open QString RecursiveGpgTools

/-! ## The parts of a file -/

/-- The volumes, with their numbers. -/
def numbered (numParts : ℤ) : ℕ → List DirEntry → List Part
  | _, [] => []
  | number, entry :: rest =>
      .volume entry.fileName number numParts :: numbered numParts (number + 1) rest

/-- The volumes of a file that is split. -/
def FileOnDisk.volumes (file : FileOnDisk) : List Part :=
  numbered ((file.sevenZip.getD []).length - 1) 1
    ((file.sevenZip.getD []).filter DirEntry.isVolume)

/-- What is posted of a file. -/
def FileOnDisk.parts (file : FileOnDisk) : List Part :=
  if maxSinglePartSize < file.size then file.volumes
  else if 0 < file.size then [.single] else []

/-- All volumes, or the single post that any other file is. -/
def FileOnDisk.volumesOrSingle (file : FileOnDisk) : List Part :=
  if maxSinglePartSize < file.size then file.volumes else [.single]

namespace Watcher

variable {s t : Watcher} {c : CurrentFile} {env : Surroundings} {next : Watcher → Watcher}
  {order : HashOrder (Σ _ : Text, FileMeta)}

/-- The parts that were posted of a file that was begun, and the Message-IDs. -/
def postsOf (s : Watcher) (upload : ℕ) : List (Part × MessageId) :=
  (s.posted.filter (·.upload = upload)).map fun post => (post.part, post.messageId)

/-- The Message-IDs are those of the posts of all parts. -/
def IsComplete (partsOf : FileOnDisk → List Part) (s : Watcher) (file : PostedFile) : Prop :=
  ∃ u upload, s.uploads[u]? = some upload ∧ upload.filePath = file.filePath ∧
    (partsOf upload.file).length = file.messageIds.length ∧
    s.postsOf u = (partsOf upload.file).zip file.messageIds

/-- What is read is posted or enqueued; the file that is in progress still is in the queue. -/
def Keeps (s : Watcher) (filePath : Text) : Prop := s.IsPosted filePath ∨ filePath ∈ s.filesEnqueued

/-- **Each file is posted completely and once.**

What was begun, posted and noted is recorded beside the members, so that a file that was posted
twice shows even if it is noted once. -/
structure PostsEachFileOnce (s : Watcher) : Prop where
  one : s.postnews.length ≤ 1
  inProgress : ∀ post ∈ s.postnews, ∃ c, s.current = some c ∧ post.filePath = c.fileMeta.filePath
  notedOnce : (s.alreadyPostedFiles.map PostedFile.filePath).Nodup
  complete : ∀ file ∈ s.alreadyPostedFiles, s.IsComplete FileOnDisk.parts file
  keeps : ∀ read ∈ s.read, read.1 = s.starts → s.Keeps read.2
  noPostBehindQuit : ∀ post ∈ s.started, post.quitRequested = false

/-! ## The invariant -/

/-- What holds of everything but the file that is in progress. -/
structure Settled (s : Watcher) : Prop where
  notedOnce : (s.alreadyPostedFiles.map PostedFile.filePath).Nodup
  complete : ∀ file ∈ s.alreadyPostedFiles, s.IsComplete FileOnDisk.parts file
  notPosted : ∀ filePath ∈ s.filesEnqueued, ¬s.IsPosted filePath
  keys : KeptByPath s.filesEnqueued
  begun : ∀ post ∈ s.posted, post.upload < s.uploads.length
  noPostBehindQuit : ∀ post ∈ s.started, post.quitRequested = false
  keeps : ∀ read ∈ s.read, read.1 = s.starts → s.Keeps read.2
  starts : ∀ read ∈ s.read, read.1 ≤ s.starts

/-- Nothing is being posted, nor will it be by itself. -/
def Quiet (s : Watcher) : Prop := s.postnews = [] ∧ s.retryTimer = false

/-- All parts of the file but the last ones are posted. -/
def Partway (s : Watcher) (c : CurrentFile) (rest : List Part) : Prop :=
  ∃ upload before, s.uploads[c.upload]? = some upload ∧
    upload.filePath = c.fileMeta.filePath ∧ upload.file.parts = before ++ rest ∧
    before.length = c.successfullyPostedMessageIds.length ∧
    s.postsOf c.upload = before.zip c.successfullyPostedMessageIds

/-- The parts that the iterator still has. -/
def left (s : Watcher) : List Part :=
  if s.volumesTempDir.isSome then
    numbered s.numPartsInCurrentSplitUpload s.currentPartInSplitUpload
      ((s.volumesTempDirIterator.getD []).filter DirEntry.isVolume)
  else []

/-- The part is the next one of the file. -/
structure InProgress (s : Watcher) (c : CurrentFile) (part : Part) : Prop where
  partway : s.Partway c (part :: s.left)
  iterating : s.volumesTempDirIterator.isSome = s.volumesTempDir.isSome

/-- The post of the current part. -/
def post (c : CurrentFile) : Post := ⟨c.upload, c.fileMeta.filePath, c.part, c.messageId, false⟩

/-- What holds between events. -/
structure Consistent (s : Watcher) : Prop where
  settled : s.Settled
  enqueued : ∀ c, s.current = some c → c.fileMeta.filePath ∈ s.filesEnqueued
  idle : s.current = none → s.Quiet ∧ s.volumesTempDir = none ∧ s.volumesTempDirIterator = none
  busy : ¬s.Quiet → ∃ c, s.current = some c ∧ s.InProgress c c.part
  one : s.postnews = [] ∨ s.retryTimer = false ∧ ∃ c, s.current = some c ∧ s.postnews = [post c]
  done : s.done = true → s.Quiet ∧ (s.cleanQuitRequested = true ∨ s.current ≠ none)

lemma Consistent.isPosted (h : s.Consistent) : s.PostsEachFileOnce where
  one := by
    rcases h.one with hnone | ⟨-, c, -, hone⟩
    · rw [hnone]
      exact Nat.zero_le 1
    · rw [hone]
      exact Nat.le_refl 1
  inProgress sent hsent := by
    rcases h.one with hnone | ⟨-, c, hc, hone⟩
    · rw [hnone] at hsent
      exact absurd hsent List.not_mem_nil
    · rw [hone] at hsent
      exact ⟨c, hc, congrArg Post.filePath (List.mem_singleton.1 hsent)⟩
  notedOnce := h.settled.notedOnce
  complete := h.settled.complete
  keeps := h.settled.keeps
  noPostBehindQuit := h.settled.noPostBehindQuit

lemma consistent_initial : initial.Consistent where
  settled :=
    { notedOnce := List.nodup_nil
      complete := fun _ h => absurd h List.not_mem_nil
      notPosted := fun _ _ h => absurd h List.not_mem_nil
      keys := fun _ _ h => absurd h (by simp [initial])
      begun := fun _ h => absurd h List.not_mem_nil
      noPostBehindQuit := fun _ h => absurd h List.not_mem_nil
      keeps := fun _ h => absurd h List.not_mem_nil
      starts := fun _ h => absurd h List.not_mem_nil }
  enqueued _ h := absurd h (Option.some_ne_none _).symm
  idle _ := ⟨⟨rfl, rfl⟩, rfl, rfl⟩
  busy h := absurd ⟨rfl, rfl⟩ h
  one := .inl rfl
  done _ := ⟨⟨rfl, rfl⟩, .inl rfl⟩

/-! ## Starting a post -/

/-- What is needed to go on with a file. -/
structure Ready (s : Watcher) (c : CurrentFile) : Prop where
  settled : s.Settled
  enqueued : c.fileMeta.filePath ∈ s.filesEnqueued
  quiet : s.Quiet
  notDone : s.done = false

/-- **A post is started**, unless the program quits. -/
lemma consistent_generate (hready : s.Ready c) (hc : s.current = some c)
    (hprogress : s.InProgress c c.part) :
    (generateMessageIdAndPostToUsenet env s c).Consistent := by
  obtain ⟨hsettled, henqueued, hquiet, hnotDone⟩ := hready
  unfold generateMessageIdAndPostToUsenet
  by_cases hquit : s.cleanQuitRequested = true
  · rw [if_pos hquit]
    refine
      { settled := ⟨hsettled.1, hsettled.2, hsettled.3, hsettled.4, hsettled.5, hsettled.6,
          hsettled.7, hsettled.8⟩
        enqueued := fun c' hc' => ?_
        idle := fun hnone => absurd (hc.symm.trans hnone) (Option.some_ne_none c)
        busy := fun hbusy => absurd hquiet hbusy
        one := .inl hquiet.1
        done := fun _ => ⟨hquiet, .inl hquit⟩ }
    obtain rfl := Option.some.inj (hc.symm.trans hc')
    exact henqueued
  · have hfalse : s.cleanQuitRequested = false := Bool.eq_false_iff.2 hquit
    rw [if_neg hquit]
    exact
      { settled :=
          { notedOnce := hsettled.notedOnce
            complete := hsettled.complete
            notPosted := hsettled.notPosted
            keys := hsettled.keys
            begun := hsettled.begun
            keeps := hsettled.keeps
            starts := hsettled.starts
            noPostBehindQuit := by
              intro sent hsent
              rcases List.mem_append.1 hsent with hsent | hsent
              · exact hsettled.noPostBehindQuit sent hsent
              · rw [List.mem_singleton.1 hsent]
                exact hfalse }
        enqueued := fun c' hc' => by
          rw [← Option.some.inj hc']
          exact henqueued
        idle := fun hnone => absurd hnone (Option.some_ne_none _)
        busy := fun _ => ⟨_, rfl, hprogress.partway, hprogress.iterating⟩
        one := .inr ⟨hquiet.2, _, rfl, by rw [hquiet.1, hfalse]; rfl⟩
        done := fun hdone => absurd hdone (by rw [hnotDone]; exact Bool.false_ne_true) }

lemma consistent_begin {part : Part} (hready : s.Ready c) (hprogress : s.InProgress c part) :
    (beginPostingToUsenet env s c part).Consistent := by
  obtain ⟨hsettled, henqueued, hquiet, hnotDone⟩ := hready
  apply consistent_generate
  · exact ⟨⟨hsettled.1, hsettled.2, hsettled.3, hsettled.4, hsettled.5, hsettled.6, hsettled.7,
      hsettled.8⟩, henqueued, hquiet, hnotDone⟩
  · rfl
  · exact ⟨hprogress.partway, hprogress.iterating⟩

/-! ## A file that is posted -/

/-- A file of which all parts are posted is noted and leaves the queue. -/
lemma consistent_handleFullFile (hnext : ∀ t : Watcher, t.Consistent → (next t).Consistent)
    (hready : s.Ready c) (hparts : s.Partway c []) (hdir : s.volumesTempDir = none)
    (hiterator : s.volumesTempDirIterator = none) :
    (handleFullFilePostedToUsenet next s c).Consistent := by
  obtain ⟨hsettled, henqueued, hquiet, hnotDone⟩ := hready
  have hposted : ∀ filePath,
      filePath ∈ (s.alreadyPostedFiles ++ [(⟨c.fileMeta.filePath, c.postTimestampInSeconds,
        c.successfullyPostedMessageIds⟩ : PostedFile)]).map PostedFile.filePath ↔
        s.IsPosted filePath ∨ filePath = c.fileMeta.filePath := by
    intro filePath
    rw [List.map_append, List.mem_append, List.map_singleton, List.mem_singleton]
    rfl
  refine hnext _
    { settled :=
        { notedOnce := ?_
          complete := ?_
          notPosted := ?_
          keys := ?_
          begun := hsettled.begun
          noPostBehindQuit := hsettled.noPostBehindQuit
          keeps := ?_
          starts := hsettled.starts }
      enqueued := fun _ hnone => absurd hnone (Option.some_ne_none _).symm
      idle := fun _ => ⟨hquiet, hdir, hiterator⟩
      busy := fun hbusy => absurd hquiet hbusy
      one := .inl hquiet.1
      done := fun hdone => absurd hdone (by rw [hnotDone]; exact Bool.false_ne_true) }
  · rw [List.map_append, List.map_singleton]
    exact hsettled.notedOnce.append (List.nodup_singleton _)
      (List.disjoint_singleton.2 (hsettled.notPosted _ henqueued))
  · intro file hfile
    rcases List.mem_append.1 hfile with hfile | hfile
    · exact hsettled.complete file hfile
    · obtain ⟨upload, before, hupload, hpath, hall, hlength, hposts⟩ := hparts
      rw [List.append_nil] at hall
      rw [List.mem_singleton.1 hfile]
      exact ⟨c.upload, upload, hupload, hpath, hall ▸ hlength, hall ▸ hposts⟩
  · intro filePath hmem hnow
    obtain ⟨hne, hold⟩ := AList.mem_erase.1 hmem
    rcases (hposted filePath).1 hnow with hnow | hnow
    · exact hsettled.notPosted filePath hold hnow
    · exact hne hnow
  · exact hsettled.keys.erase _
  · intro read hread hstarts
    by_cases heq : read.2 = c.fileMeta.filePath
    · exact .inl ((hposted read.2).2 (.inr heq))
    · rcases hsettled.keeps read hread hstarts with hnow | hnow
      · exact .inl ((hposted read.2).2 (.inl hnow))
      · exact .inr (AList.mem_erase.2 ⟨heq, hnow⟩)

/-! ## Volumes -/

/-- The iterator goes on to the first of the volumes that are left. -/
lemma nextVolume_cases (entries : List DirEntry) :
    (nextVolume entries = none ∧ entries.filter DirEntry.isVolume = []) ∨
      ∃ entry rest, nextVolume entries = some (entry, rest) ∧
        entries.filter DirEntry.isVolume = entry :: rest.filter DirEntry.isVolume := by
  induction entries with
  | nil => exact .inl ⟨rfl, rfl⟩
  | cons entry rest ih =>
      rw [nextVolume]
      by_cases hvolume : entry.isVolume = true
      · exact .inr ⟨entry, rest, if_pos hvolume, List.filter_cons_of_pos hvolume⟩
      · rw [if_neg hvolume, List.filter_cons_of_neg hvolume]
        exact ih

/-- **The next volume is posted, or the file is done.** -/
lemma consistent_postNextVolume {dir : List DirEntry}
    (hnext : ∀ t : Watcher, t.Consistent → (next t).Consistent)
    (hready : (s.startIterating dir).Ready c)
    (hdir : (s.startIterating dir).volumesTempDir.isSome = true)
    (hparts : (s.startIterating dir).Partway c (s.startIterating dir).left) :
    (postNextVolumePartInDir env next s c dir).Consistent := by
  unfold postNextVolumePartInDir
  generalize s.startIterating dir = s' at *
  obtain ⟨hsettled, henqueued, hquiet, hnotDone⟩ := hready
  rw [left, if_pos hdir] at hparts
  rcases nextVolume_cases (s'.volumesTempDirIterator.getD []) with
    ⟨hnone, hleft⟩ | ⟨entry, rest, hsome, hleft⟩
  · rw [hleft] at hparts
    simp only [hnone]
    apply consistent_handleFullFile hnext
    · exact ⟨⟨hsettled.1, hsettled.2, hsettled.3, hsettled.4, hsettled.5, hsettled.6, hsettled.7,
        hsettled.8⟩, henqueued, hquiet, hnotDone⟩
    · exact hparts
    · rfl
    · rfl
  · rw [hleft] at hparts
    simp only [hsome]
    apply consistent_begin
    · exact ⟨⟨hsettled.1, hsettled.2, hsettled.3, hsettled.4, hsettled.5, hsettled.6, hsettled.7,
        hsettled.8⟩, henqueued, hquiet, hnotDone⟩
    · refine ⟨?_, hdir.symm⟩
      rw [left, if_pos hdir]
      exact hparts

lemma startIterating_of_some {dir : List DirEntry}
    (h : s.volumesTempDirIterator.isSome = true) : s.startIterating dir = s := by
  unfold startIterating
  rw [if_neg (by rw [Option.isNone_iff_eq_none]; exact Option.isSome_iff_ne_none.1 h)]

lemma startIterating_of_none {dir : List DirEntry} (h : s.volumesTempDirIterator = none) :
    s.startIterating dir =
      { s with
        numPartsInCurrentSplitUpload := dir.length - 1
        currentPartInSplitUpload := 1
        volumesTempDirIterator := some dir } := by
  unfold startIterating
  rw [if_pos (by rw [h]; rfl)]

/-- The first volume of a file. -/
lemma consistent_postFirstVolume {dir : List DirEntry}
    (hnext : ∀ t : Watcher, t.Consistent → (next t).Consistent) (hready : s.Ready c)
    (hdir : s.volumesTempDir.isSome = true) (hiterator : s.volumesTempDirIterator = none)
    (hparts : s.Partway c (numbered (dir.length - 1) 1 (dir.filter DirEntry.isVolume))) :
    (postNextVolumePartInDir env next s c dir).Consistent := by
  obtain ⟨hsettled, henqueued, hquiet, hnotDone⟩ := hready
  apply consistent_postNextVolume hnext
  · rw [startIterating_of_none hiterator]
    exact ⟨⟨hsettled.1, hsettled.2, hsettled.3, hsettled.4, hsettled.5, hsettled.6, hsettled.7,
      hsettled.8⟩, henqueued, hquiet, hnotDone⟩
  · rw [startIterating_of_none hiterator]
    exact hdir
  · rw [startIterating_of_none hiterator, left, if_pos hdir]
    exact hparts

/-- A later one. -/
lemma consistent_postLaterVolume {dir : List DirEntry}
    (hnext : ∀ t : Watcher, t.Consistent → (next t).Consistent) (hready : s.Ready c)
    (hdir : s.volumesTempDir.isSome = true) (hiterator : s.volumesTempDirIterator.isSome = true)
    (hparts : s.Partway c s.left) : (postNextVolumePartInDir env next s c dir).Consistent := by
  apply consistent_postNextVolume hnext
  · rw [startIterating_of_some hiterator]
    exact hready
  · rw [startIterating_of_some hiterator]
    exact hdir
  · rw [startIterating_of_some hiterator]
    exact hparts

/-! ## The next file -/

/-- What is complete stays complete when a file is begun. -/
lemma IsComplete.begin {partsOf : FileOnDisk → List Part} {file : PostedFile} {upload : Upload}
    (h : s.IsComplete partsOf file) (ht : t.uploads = s.uploads ++ [upload])
    (hposted : t.posted = s.posted) : t.IsComplete partsOf file := by
  obtain ⟨u, upload', hupload, hpath, hlength, hposts⟩ := h
  have hlt := (List.getElem?_eq_some_iff.1 hupload).1
  refine ⟨u, upload', ?_, hpath, hlength, ?_⟩
  · rw [ht, List.getElem?_append_left hlt]
    exact hupload
  · rw [postsOf, hposted]
    exact hposts

/-- **A file is begun.** -/
lemma consistent_postToUsenet {nextFile : FileMeta}
    (hnext : ∀ t : Watcher, t.Consistent → (next t).Consistent) (h : s.Consistent)
    (hidle : s.current = none) (hnotDone : s.done = false)
    (hmem : nextFile.filePath ∈ s.filesEnqueued) :
    (postToUsenet env next s nextFile).Consistent := by
  obtain ⟨hquiet, hdir, hiterator⟩ := h.idle hidle
  -- nothing was posted of it yet
  have hposts : s.postsOf s.uploads.length = [] := by
    rw [postsOf, List.map_eq_nil_iff, List.filter_eq_nil_iff]
    intro sent hsent
    simpa using (h.settled.begun sent hsent).ne
  have hsettled : ∀ t : Watcher, t.alreadyPostedFiles = s.alreadyPostedFiles →
      t.uploads = s.uploads ++ [⟨nextFile.filePath, env.disk nextFile.filePath⟩] →
      t.posted = s.posted → t.filesEnqueued = s.filesEnqueued → t.started = s.started →
      t.read = s.read → t.starts = s.starts → t.Settled := by
    intro t halready huploads hposted hqueue hstarted hread hstarts
    refine ⟨halready ▸ h.settled.notedOnce, fun file hfile => ?_, fun filePath hpath => ?_,
      hqueue ▸ h.settled.keys, fun sent hsent => ?_, hstarted ▸ h.settled.noPostBehindQuit,
      fun read hmem hnow => ?_, hread ▸ hstarts ▸ h.settled.starts⟩
    · exact (h.settled.complete file (halready ▸ hfile)).begin huploads hposted
    · rw [IsPosted, halready]
      exact h.settled.notPosted filePath (hqueue ▸ hpath)
    · rw [huploads, List.length_append]
      exact Nat.lt_add_right _ (h.settled.begun sent (hposted ▸ hsent))
    · rw [Keeps, IsPosted, halready, hqueue]
      exact h.settled.keeps read (hread ▸ hmem) (hstarts ▸ hnow)
  have hpartway : ∀ t : Watcher,
      t.uploads = s.uploads ++ [⟨nextFile.filePath, env.disk nextFile.filePath⟩] →
      t.posted = s.posted →
      t.Partway (s.beginFile env nextFile) (env.disk nextFile.filePath).parts := by
    intro t huploads hposted
    refine ⟨⟨nextFile.filePath, env.disk nextFile.filePath⟩, [], ?_, rfl, rfl, rfl, ?_⟩
    · rw [huploads]
      exact List.getElem?_concat_length
    · rw [postsOf, hposted]
      exact hposts
  have hfails : ∀ t : Watcher, t.Settled → t.current = some (s.beginFile env nextFile) →
      t.filesEnqueued = s.filesEnqueued → t.Quiet → t.Consistent := by
    intro t ht hcurrent hqueue hquiet'
    refine ⟨ht, fun c hc => ?_, fun hnone => ?_, fun hbusy => absurd hquiet' hbusy,
      .inl hquiet'.1, fun _ => ⟨hquiet', .inr ?_⟩⟩
    · obtain rfl := Option.some.inj (hcurrent.symm.trans hc)
      exact hqueue ▸ hmem
    · exact absurd (hcurrent.symm.trans hnone) (Option.some_ne_none _)
    · rw [hcurrent]
      exact Option.some_ne_none _
  unfold postToUsenet
  by_cases hreadable : (env.disk nextFile.filePath).readable = true
  · simp only [hreadable, Bool.not_true, Bool.false_eq_true, if_false]
    by_cases hlarge : maxSinglePartSize < (env.disk nextFile.filePath).size
    · simp only [if_pos hlarge]
      cases hsplit : (env.disk nextFile.filePath).sevenZip with
      | none => exact hfails _ (hsettled _ rfl rfl rfl rfl rfl rfl rfl) rfl rfl hquiet
      | some dir =>
          apply consistent_postFirstVolume hnext
          · exact ⟨hsettled _ rfl rfl rfl rfl rfl rfl rfl, hmem, hquiet, hnotDone⟩
          · rfl
          · exact hiterator
          · have hall : (env.disk nextFile.filePath).parts =
                numbered (dir.length - 1) 1 (dir.filter DirEntry.isVolume) := by
              rw [FileOnDisk.parts, if_pos hlarge, FileOnDisk.volumes, hsplit]
              rfl
            rw [← hall]
            exact hpartway _ rfl rfl
    · simp only [if_neg hlarge]
      have hleft : ∀ t : Watcher, t.volumesTempDir = none → t.left = [] := by
        intro t ht
        rw [left, ht]
        rfl
      by_cases hnonempty : 0 < (env.disk nextFile.filePath).size
      · simp only [if_pos hnonempty]
        apply consistent_begin
        · exact ⟨hsettled _ rfl rfl rfl rfl rfl rfl rfl, hmem, hquiet, hnotDone⟩
        · refine ⟨?_, by rw [hdir, hiterator]⟩
          have hall : (env.disk nextFile.filePath).parts = [.single] := by
            rw [FileOnDisk.parts, if_neg hlarge, if_pos hnonempty]
          rw [hleft]
          · rw [← hall]
            exact hpartway _ rfl rfl
          · exact hdir
      · simp only [if_neg hnonempty]
        apply consistent_handleFullFile hnext
        · exact ⟨hsettled _ rfl rfl rfl rfl rfl rfl rfl, hmem, hquiet, hnotDone⟩
        · have hall : (env.disk nextFile.filePath).parts = [] := by
            rw [FileOnDisk.parts, if_neg hlarge, if_neg hnonempty]
          rw [← hall]
          exact hpartway _ rfl rfl
        · exact hdir
        · exact hiterator
  · simp only [hreadable, Bool.not_false, if_true]
    exact hfails _ (hsettled _ rfl rfl rfl rfl rfl rfl rfl) rfl rfl hquiet

lemma Consistent.doCleanQuitTasks (h : s.Consistent) (hidle : s.current = none)
    (hquit : s.cleanQuitRequested = true) : s.doCleanQuitTasks.Consistent where
  settled := ⟨h.settled.1, h.settled.2, h.settled.3, h.settled.4, h.settled.5, h.settled.6,
    h.settled.7, h.settled.8⟩
  enqueued := h.enqueued
  idle := h.idle
  busy hbusy := absurd (h.idle hidle).1 hbusy
  one := .inl (h.idle hidle).1.1
  done _ := ⟨(h.idle hidle).1, .inl hquit⟩

/-- **The next files of the queue**, by induction on how many there are in a row. -/
lemma consistent_postAnEnqueuedFile (files : ℕ) (s : Watcher) (h : s.Consistent) :
    (postAnEnqueuedFile order env files s).Consistent := by
  induction files generalizing s with
  | zero => exact h
  | succ files ih =>
      rw [postAnEnqueuedFile]
      by_cases hbusy : s.current.isSome = true
      · rw [if_pos hbusy]
        exact h
      · have hidle : s.current = none := by simpa using hbusy
        rw [if_neg hbusy]
        by_cases hquit : s.cleanQuitRequested = true
        · rw [if_pos hquit]
          exact h.doCleanQuitTasks hidle hquit
        · rw [if_neg hquit]
          cases hhead : (order.order s.filesEnqueued.entries).head? with
          | none => exact h
          | some nextFile =>
              have hnotDone : s.done = false := Bool.eq_false_iff.2 fun hdone =>
                (h.done hdone).2.elim hquit fun hne => hne hidle
              exact consistent_postToUsenet ih h hidle hnotDone
                (mem_of_head_order hhead h.settled.keys)

/-! ## Reading the sigs file -/

lemma mem_newSigs {sigs : Sigs} {e : Σ _ : Text, FileMeta} (h : e ∈ (s.newSigs sigs).entries) :
    e ∈ sigs.entries ∧ e.1 ∉ s.filesEnqueued ∧ ¬s.IsPosted e.1 := by
  obtain ⟨hmem, hnew⟩ := List.mem_filter.1 h
  simp only [Bool.not_or, Bool.and_eq_true, Bool.not_eq_true', decide_eq_false_iff_not] at hnew
  exact ⟨hmem, hnew⟩

/-- A path that is not new is enqueued or posted. -/
lemma mem_newSigs_of_mem {sigs : Sigs} {filePath : Text} (h : filePath ∈ sigs) :
    s.Keeps filePath ∨ filePath ∈ s.newSigs sigs := by
  obtain ⟨fileMeta, hlookup⟩ := Option.isSome_iff_exists.1 (AList.lookup_isSome.2 h)
  have hentry : (⟨filePath, fileMeta⟩ : Σ _ : Text, FileMeta) ∈ sigs.entries :=
    AList.mem_lookup_iff.1 hlookup
  by_cases hqueue : filePath ∈ s.filesEnqueued
  · exact .inl (.inr hqueue)
  · by_cases hposted : s.IsPosted filePath
    · exact .inl (.inl hposted)
    · right
      have hnew : (⟨filePath, fileMeta⟩ : Σ _ : Text, FileMeta) ∈ (s.newSigs sigs).entries := by
        refine List.mem_filter.2 ⟨hentry, ?_⟩
        simp only [hqueue, hposted, decide_false, Bool.or_self, Bool.not_false]
      exact List.mem_keys_of_mem hnew

/-- **A sigs file is read.** -/
lemma consistent_readInSigsFile (sigsText : Text) (h : s.Consistent) :
    (s.readInSigsFileAndPostAllNewEntries order env sigsText).Consistent := by
  apply consistent_postAnEnqueuedFile
  obtain ⟨hsettled, henqueued, hidle, hbusy, hone, hdone⟩ := h
  refine ⟨⟨hsettled.notedOnce, hsettled.complete, ?_, ?_, hsettled.begun,
    hsettled.noPostBehindQuit, ?_, ?_⟩, ?_, hidle, ?_, hone, hdone⟩
  · intro filePath hmem
    rcases AList.mem_union.1 hmem with hold | hnew
    · exact hsettled.notPosted filePath hold
    · obtain ⟨fileMeta, hlookup⟩ := Option.isSome_iff_exists.1 (AList.lookup_isSome.2 hnew)
      exact (mem_newSigs (AList.mem_lookup_iff.1 hlookup)).2.2
  · intro filePath fileMeta hlookup
    rcases AList.mem_lookup_union.1 hlookup with hold | ⟨-, hnew⟩
    · exact hsettled.keys filePath fileMeta hold
    · have hread := (mem_newSigs (AList.mem_lookup_iff.1 hnew)).1
      exact (mem_of_lookup_recorded (AList.mem_lookup_iff.2 hread)).2
  · intro read hread hstarts
    have hgrows : s.Keeps read.2 → s.IsPosted read.2 ∨
        read.2 ∈ s.filesEnqueued ∪ s.newSigs (recorded (some sigsText)) :=
      Or.imp_right fun hold => AList.mem_union.2 (.inl hold)
    rcases List.mem_append.1 hread with hread | hread
    · exact hgrows (hsettled.keeps read hread hstarts)
    · obtain ⟨filePath, hpath, rfl⟩ := List.mem_map.1 hread
      rcases mem_newSigs_of_mem (AList.mem_keys.1 hpath) with hold | hnew
      · exact hgrows hold
      · exact .inr (AList.mem_union.2 (.inr hnew))
  · intro read hread
    rcases List.mem_append.1 hread with hread | hread
    · exact hsettled.starts read hread
    · obtain ⟨filePath, -, rfl⟩ := List.mem_map.1 hread
      exact Nat.le_refl _
  · intro c hc
    exact AList.mem_union.2 (.inl (henqueued c hc))
  · intro hnow
    obtain ⟨c, hc, hprogress⟩ := hbusy hnow
    exact ⟨c, hc, hprogress.partway, hprogress.iterating⟩

/-! ## Postnews -/

/-- What was given to postnews is the post of the current part. -/
lemma Consistent.ready {sent : Post} {rest : List Post} (h : s.Consistent)
    (hpostnews : s.postnews = sent :: rest) :
    ∃ c, s.current = some c ∧ sent = post c ∧ rest = [] ∧ s.retryTimer = false ∧
      s.done = false ∧ s.InProgress c c.part := by
  have hbusy : ¬s.Quiet := fun hquiet => List.cons_ne_nil _ _ (hpostnews.symm.trans hquiet.1)
  obtain ⟨c, hc, hprogress⟩ := h.busy hbusy
  rcases h.one with hnone | ⟨hretry, c', hc', hone⟩
  · exact absurd (hpostnews.symm.trans hnone) (List.cons_ne_nil _ _)
  · obtain rfl := Option.some.inj (hc.symm.trans hc')
    obtain ⟨hsent, hrest⟩ := List.cons.inj (hpostnews.symm.trans hone)
    exact ⟨c, hc, hsent, hrest, hretry,
      Bool.eq_false_iff.2 fun hdone => hbusy (h.done hdone).1, hprogress⟩

/-- A successful post is one of the current file, and the others stay as they are. -/
lemma postsOf_snoc (ht : t.posted = s.posted ++ [post c]) (u : ℕ) :
    t.postsOf u = s.postsOf u ++ if c.upload = u then [(c.part, c.messageId)] else [] := by
  rw [postsOf, postsOf, ht, List.filter_append, List.map_append]
  congr 1
  by_cases heq : c.upload = u
  · rw [if_pos heq,
      List.filter_cons_of_pos (p := fun sent : Post => sent.upload = u) (decide_eq_true heq)]
    rfl
  · rw [if_neg heq, List.filter_cons_of_neg (p := fun sent : Post => sent.upload = u)
      fun hnow => heq (of_decide_eq_true hnow)]
    rfl

/-- **A post has succeeded.** -/
lemma Partway.success {rest : List Part} (h : s.Partway c (c.part :: rest))
    (huploads : t.uploads = s.uploads) (hposted : t.posted = s.posted ++ [post c]) :
    t.Partway
      { c with
        successfullyPostedMessageIds := c.successfullyPostedMessageIds ++ [c.messageId] }
      rest := by
  obtain ⟨upload, before, hupload, hpath, hall, hlength, hposts⟩ := h
  refine ⟨upload, before ++ [c.part], huploads ▸ hupload, hpath, ?_, ?_, ?_⟩
  · rw [hall, List.append_assoc, List.singleton_append]
  · rw [List.length_append, List.length_append, hlength]
    rfl
  · show t.postsOf c.upload = _
    rw [postsOf_snoc hposted, if_pos rfl, hposts, List.zip_append hlength]
    rfl

/-- The posts of the current file are not those of one that is noted. -/
lemma Settled.success {rest : List Part} (h : s.Settled)
    (henqueued : c.fileMeta.filePath ∈ s.filesEnqueued) (hparts : s.Partway c rest)
    (halready : t.alreadyPostedFiles = s.alreadyPostedFiles) (huploads : t.uploads = s.uploads)
    (hposted : t.posted = s.posted ++ [post c]) (hqueue : t.filesEnqueued = s.filesEnqueued)
    (hstarted : t.started = s.started) (hread : t.read = s.read) (hstarts : t.starts = s.starts) :
    t.Settled := by
  obtain ⟨current, before, hcurrent, hpath, -⟩ := hparts
  refine ⟨halready ▸ h.notedOnce, fun file hfile => ?_, fun filePath hmem => ?_, hqueue ▸ h.keys,
    fun sent hsent => ?_, hstarted ▸ h.noPostBehindQuit, fun read hmem hnow => ?_,
    hread ▸ hstarts ▸ h.starts⟩
  · obtain ⟨u, upload, hupload, hfilePath, hlength, hposts⟩ := h.complete file (halready ▸ hfile)
    have hne : c.upload ≠ u := by
      rintro rfl
      obtain rfl := Option.some.inj (hcurrent.symm.trans hupload)
      apply h.notPosted _ henqueued
      rw [← hpath, hfilePath]
      exact List.mem_map_of_mem (halready ▸ hfile)
    refine ⟨u, upload, huploads ▸ hupload, hfilePath, hlength, ?_⟩
    rw [postsOf_snoc hposted, if_neg hne, List.append_nil]
    exact hposts
  · rw [IsPosted, halready]
    exact h.notPosted filePath (hqueue ▸ hmem)
  · rw [huploads]
    rw [hposted] at hsent
    rcases List.mem_append.1 hsent with hsent | hsent
    · exact h.begun sent hsent
    · rw [List.mem_singleton.1 hsent]
      exact (List.getElem?_eq_some_iff.1 hcurrent).1
  · rw [Keeps, IsPosted, halready, hqueue]
    exact h.keeps read (hread ▸ hmem) (hstarts ▸ hnow)

/-- **Postnews is finished**, with any result. -/
lemma consistent_postnewsFinished {result : PostnewsResult} (h : s.Consistent)
    (hc : s.current = some c) (hretry : s.retryTimer = false)
    (hnotDone : s.done = false) (hprogress : s.InProgress c c.part) :
    ({ s with postnews := [] }.handlePostnewsProcessFinished order env c (post c)
      result).Consistent := by
  have hsettled := h.settled
  have henqueued := h.enqueued c hc
  cases result with
  | notUnique =>
      apply consistent_generate
      · exact ⟨⟨hsettled.1, hsettled.2, hsettled.3, hsettled.4, hsettled.5, hsettled.6,
          hsettled.7, hsettled.8⟩, henqueued, ⟨rfl, hretry⟩, hnotDone⟩
      · exact hc
      · exact ⟨hprogress.partway, hprogress.iterating⟩
  | failure =>
      exact
        { settled := ⟨hsettled.1, hsettled.2, hsettled.3, hsettled.4, hsettled.5, hsettled.6,
            hsettled.7, hsettled.8⟩
          enqueued := h.enqueued
          idle := fun hnone => absurd (hc.symm.trans hnone) (Option.some_ne_none c)
          busy := fun _ => ⟨c, hc, hprogress.partway, hprogress.iterating⟩
          one := .inl rfl
          done := fun hdone => absurd (hnotDone.symm.trans hdone) Bool.false_ne_true }
  | success =>
      -- the state behind the post, in front of the next one
      have hready : ∀ t : Watcher, t.alreadyPostedFiles = s.alreadyPostedFiles →
          t.uploads = s.uploads → t.posted = s.posted ++ [post c] →
          t.filesEnqueued = s.filesEnqueued → t.started = s.started → t.read = s.read →
          t.starts = s.starts → t.postnews = [] → t.retryTimer = s.retryTimer → t.done = s.done →
          t.Ready
            { c with
              successfullyPostedMessageIds :=
                c.successfullyPostedMessageIds ++ [c.messageId] } := by
        intro t h1 h2 h3 h4 h5 h6 h7 h8 h9 h10
        exact ⟨hsettled.success henqueued hprogress.partway h1 h2 h3 h4 h5 h6 h7,
          h4 ▸ henqueued, ⟨h8, h9.trans hretry⟩, h10.trans hnotDone⟩
      unfold handlePostnewsProcessFinished
      cases hdir : s.volumesTempDir with
      | some dir =>
          have hiterator : s.volumesTempDirIterator.isSome = true := by
            rw [hprogress.iterating, hdir]
            rfl
          apply consistent_postLaterVolume (consistent_postAnEnqueuedFile _)
          · exact hready _ rfl rfl rfl rfl rfl rfl rfl rfl rfl rfl
          · rfl
          · exact hiterator
          · apply Partway.success
            · have hparts := hprogress.partway
              rw [left, hdir] at hparts
              exact hparts
            · rfl
            · rfl
      | none =>
          apply consistent_handleFullFile (consistent_postAnEnqueuedFile _)
          · exact hready _ rfl rfl rfl rfl rfl rfl rfl rfl rfl rfl
          · have hparts := hprogress.partway
            rw [left, hdir] at hparts
            exact hparts.success rfl rfl
          · rfl
          · have hnone := hprogress.iterating
            rw [hdir] at hnone
            exact Option.not_isSome_iff_eq_none.1 fun hsome =>
              Bool.false_ne_true (hnone.symm.trans hsome)

/-! ## Runs -/

/-- The program is started when nothing is posted any more. -/
lemma consistent_restarted (h : s.Consistent) (hdone : s.done = true) :
    s.restarted.Consistent := by
  have hquiet := (h.done hdone).1
  refine ⟨⟨h.settled.notedOnce, h.settled.complete, ?_, ?_, h.settled.begun,
    h.settled.noPostBehindQuit, ?_, ?_⟩, ?_, fun _ => ⟨hquiet, rfl, rfl⟩,
    fun hbusy => absurd hquiet hbusy, .inl hquiet.1, ?_⟩
  · exact fun _ hmem => absurd hmem List.not_mem_nil
  · intro filePath fileMeta hlookup
    exact absurd (AList.lookup_empty filePath ▸ hlookup) (Option.some_ne_none _).symm
  · -- what was read, was read before
    intro read hread hnow
    have hle := h.settled.starts read hread
    have hnew : read.1 = s.starts + 1 := hnow
    omega
  · exact fun read hread => Nat.le_succ_of_le (h.settled.starts read hread)
  · exact fun _ hnone => absurd hnone (Option.some_ne_none _).symm
  · exact fun hnow => absurd hnow Bool.false_ne_true

/-- **One event** is handled, and keeps the invariant. -/
lemma exists_handle (event : WatcherEvent) (h : s.Consistent) :
    ∃ t, s.handle order env event = some t ∧ t.Consistent := by
  cases event with
  | sigsFileChanged sigsFile => exact ⟨_, rfl, consistent_readInSigsFile _ h⟩
  | postnewsFinished result =>
      cases hpostnews : s.postnews with
      | nil => exact ⟨s, by simp only [handle, hpostnews], h⟩
      | cons sent rest =>
          obtain ⟨c, hc, rfl, rfl, hretry, hnotDone, hprogress⟩ := h.ready hpostnews
          refine ⟨{ s with postnews := [] }.handlePostnewsProcessFinished order env c (post c)
            result, ?_, consistent_postnewsFinished h hc hretry hnotDone hprogress⟩
          simp only [handle, hpostnews, hc, Option.map_some]
  | retryTimeout =>
      by_cases hretry : s.retryTimer = true
      · have hbusy : ¬s.Quiet := fun hquiet =>
          Bool.false_ne_true (hquiet.2.symm.trans hretry)
        obtain ⟨c, hc, hprogress⟩ := h.busy hbusy
        have hnone : s.postnews = [] := h.one.resolve_right fun hboth =>
          Bool.false_ne_true (hboth.1.symm.trans hretry)
        have hnotDone : s.done = false :=
          Bool.eq_false_iff.2 fun hdone => hbusy (h.done hdone).1
        refine ⟨{ s with retryTimer := false }.generateMessageIdAndPostToUsenet env c, ?_, ?_⟩
        · simp only [handle, if_pos hretry, hc, Option.map_some]
        · apply consistent_generate
          · exact ⟨⟨h.settled.1, h.settled.2, h.settled.3, h.settled.4, h.settled.5, h.settled.6,
              h.settled.7, h.settled.8⟩, h.enqueued c hc, ⟨hnone, rfl⟩, hnotDone⟩
          · exact hc
          · exact ⟨hprogress.partway, hprogress.iterating⟩
      · exact ⟨s, by simp only [handle, if_neg hretry], h⟩
  | quitCleanly =>
      refine ⟨_, rfl, consistent_postAnEnqueuedFile _ _ ?_⟩
      exact ⟨⟨h.settled.1, h.settled.2, h.settled.3, h.settled.4, h.settled.5, h.settled.6,
        h.settled.7, h.settled.8⟩, h.enqueued, h.idle,
        fun hbusy => (h.busy hbusy).imp fun c hboth =>
          ⟨hboth.1, hboth.2.partway, hboth.2.iterating⟩,
        h.one, fun hdone => ⟨(h.done hdone).1, .inl rfl⟩⟩
  | restart sigsFile =>
      by_cases hdone : s.done = true
      · refine ⟨s.restarted.readInSigsFileAndPostAllNewEntries order env sigsFile.text, ?_,
          consistent_readInSigsFile _ (consistent_restarted h hdone)⟩
        simp only [handle, if_pos hdone]
      · exact ⟨s, by simp only [handle, if_neg hdone], h⟩

/-- **Each file is posted completely and once**, in every run: no null pointer is followed, there is
one post at a time, a file is noted once and with the Message-IDs of the posts of its parts in their
order, what was read since the last start is posted or enqueued, and nothing is posted behind the
request to quit.

The state is `none` where the source would follow a null pointer, so that the first part of the
statement is that no run gets there.  Posting is slow and public: what was posted twice cannot be
taken back, and what is noted without its parts is lost for good. -/
theorem postsEachFileOnce (order : HashOrder (Σ _ : Text, FileMeta))
    (events : List (Surroundings × WatcherEvent)) :
    Machine.HoldsThroughout (step order) (fun s => ∃ t, s = some t ∧ t.PostsEachFileOnce)
      (some initial) events := by
  have hinv : Machine.HoldsThroughout (step order) (fun s => ∃ t, s = some t ∧ t.Consistent)
      (some initial) events := by
    apply Machine.holdsThroughout_of_step
    · rintro - ⟨env, event⟩ ⟨s, rfl, h⟩
      exact exists_handle event h
    · exact ⟨initial, rfl, consistent_initial⟩
  exact hinv.imp fun _ ⟨t, ht, h⟩ => ⟨t, ht, h.isPosted⟩

/-- A sigs file with one path. -/
def sigsOfA : SigsFile where
  text := "a:5\n-----END PGP SIGNATURE-----\n".toList
  readable := by
    unfold IsReadable
    decide +kernel

/-- One without a path. -/
def noSigs : SigsFile where
  text := []
  readable := by
    unfold IsReadable
    decide +kernel

/-- All files have this size. -/
def sized (size : ℕ) : Surroundings := ⟨fun _ => ⟨true, size, none⟩, 0, ['m']⟩

/-- An empty file is noted without a post, and a path that is read and not posted when the program
quits is forgotten if it is not in the sigs file any more. -/
theorem notPosted_of_empty_and_forgotten :
    ¬Machine.HoldsThroughout (step HashOrder.inserted) (fun s => ∃ t, s = some t ∧
        ∀ file ∈ t.alreadyPostedFiles, t.IsComplete FileOnDisk.volumesOrSingle file)
      (some initial) [(sized 0, .restart sigsOfA)] ∧
    ¬Machine.HoldsThroughout (step HashOrder.inserted) (fun s => ∃ t, s = some t ∧
        ∀ read ∈ t.read, t.Keeps read.2)
      (some initial)
      [(sized 1, .restart sigsOfA), (sized 1, .quitCleanly), (sized 1, .postnewsFinished .failure),
        (sized 1, .retryTimeout), (sized 1, .restart noSigs)] := by
  constructor
  · intro h
    obtain ⟨t, hrun, hcomplete⟩ := h.run
    have hstate : ((Machine.run (step HashOrder.inserted) (some initial)
        [(sized 0, .restart sigsOfA)]).map fun t =>
          (t.alreadyPostedFiles.map fun file => file.messageIds.length,
            t.uploads.map fun upload => upload.file.volumesOrSingle.length)) = some ([0], [1]) := by
      decide +kernel
    rw [hrun, Option.map_some, Option.some_inj, Prod.mk.injEq] at hstate
    obtain ⟨hposted, huploads⟩ := hstate
    obtain ⟨file, hfile, hnone⟩ := List.mem_map.1 (hposted ▸ List.mem_singleton_self 0)
    obtain ⟨u, upload, hupload, -, hlength, -⟩ := hcomplete file hfile
    have hone := List.mem_map_of_mem
      (f := fun upload : Upload => upload.file.volumesOrSingle.length)
      (List.mem_of_getElem? hupload)
    rw [huploads, List.mem_singleton] at hone
    exact absurd (hone.symm.trans (hlength.trans hnone)) Nat.one_ne_zero
  · intro h
    obtain ⟨t, hrun, hkeeps⟩ := h.run
    have hstate : ((Machine.run (step HashOrder.inserted) (some initial)
        [(sized 1, .restart sigsOfA), (sized 1, .quitCleanly),
          (sized 1, .postnewsFinished .failure), (sized 1, .retryTimeout),
          (sized 1, .restart noSigs)]).map fun t =>
        (t.read, decide (t.IsPosted ['a'] ∨ ['a'] ∈ t.filesEnqueued))) =
          some ([(1, ['a'])], false) := by
      decide +kernel
    rw [hrun, Option.map_some, Option.some_inj, Prod.mk.injEq] at hstate
    obtain ⟨hread, hlost⟩ := hstate
    exact of_decide_eq_false hlost (hkeeps (1, ['a']) (hread ▸ List.mem_singleton_self _))

end Watcher

end Autobackup.WatchSigsFile
