import Autobackup.Foundation.SortedMap
import Mathlib.Algebra.Order.Group.Int
import Mathlib.Data.List.Pairwise

/-!
# The audio track of a video file

`muxSyncCurrentVideoFile` builds the audio track of a video file from the audio files that were
recorded meanwhile: it goes through them by their start, puts silence up to the start of each,
leaves out with `-ss` what is before the video, and stops with `-t` where the video ends.

`-t` is left out if it is 0.  A file that starts at the very end of the video, which counts as
intersecting, has a `-t` of 0, and is appended whole (`muxesInSync_iff`).

Times are milliseconds, and a sample is one millisecond of sound, so a track is a list.  Left out
are the file of the delays, the arguments of ffmpeg other than `-ss` and `-t`, and its failures.
-/

namespace Autobackup.MuxerSyncer

variable {Sample : Type}

/-- An audio file, by the time it starts and its samples, one a millisecond. -/
structure AudioFile (Sample : Type) where
  startTimestampMs : ℤ
  samples : List Sample
  samples_ne_nil : samples ≠ []

structure VideoFile where
  startTimestampMs : ℤ
  durationMs : ℕ

namespace AudioFile

variable (file : AudioFile Sample)

def durationMs : ℕ := file.samples.length

def endTimestampMs : ℤ := file.startTimestampMs + file.durationMs

def Covers (ms : ℤ) : Prop := file.startTimestampMs ≤ ms ∧ ms < file.endTimestampMs

def OverlapsNowhere (file' : AudioFile Sample) : Prop :=
  file.endTimestampMs ≤ file'.startTimestampMs ∨ file'.endTimestampMs ≤ file.startTimestampMs

instance : Std.Symm (@OverlapsNowhere Sample) := ⟨fun _ _ h => h.symm⟩

end AudioFile

def VideoFile.endTimestampMs (video : VideoFile) : ℤ := video.startTimestampMs + video.durationMs

/-- Audio files in any order, of which no two overlap. -/
structure AudioFileMetas (Sample : Type) where
  files : List (AudioFile Sample)
  nowhereOverlapping : files.Pairwise AudioFile.OverlapsNowhere

/-! ## The code -/

def timespansIntersect (timespan_0_StartTimeMs timespan_0_DurationInMillseconds
    timespan_1_StartTimeMs timespan_1_DurationInMillseconds : ℤ) : Bool :=
  -- strictly, so that two that only touch intersect
  if timespan_0_StartTimeMs + timespan_0_DurationInMillseconds < timespan_1_StartTimeMs then false
  else if timespan_0_StartTimeMs > timespan_1_StartTimeMs + timespan_1_DurationInMillseconds then
    false
  else true

/-- The intersecting audio files by their start; `none` if two start at the same time. -/
def findIntersectingAudioFiles (video : VideoFile) : List (AudioFile Sample) →
    SortedMap ℤ (AudioFile Sample) → Option (SortedMap ℤ (AudioFile Sample))
  | [], intersectingAudioFiles => some intersectingAudioFiles
  | file :: files, intersectingAudioFiles =>
      if timespansIntersect video.startTimestampMs video.durationMs file.startTimestampMs
          file.durationMs then
        match intersectingAudioFiles.lookup file.startTimestampMs with
        | some _ => none
        | none => findIntersectingAudioFiles video files
            (intersectingAudioFiles.insert file.startTimestampMs file)
      else findIntersectingAudioFiles video files intersectingAudioFiles

/-- `CONCAT_ONTO_OR_BECOME_AUDIO_FILE`, where `none` is a file that does not exist. -/
def concatOntoOrBecome (toConcatOntoOrBecome : Option (List Sample)) (audioSegment : List Sample) :
    Option (List Sample) :=
  match toConcatOntoOrBecome with
  | some built => some (built ++ audioSegment)
  | none => some audioSegment

structure AudioBeingBuilt (Sample : Type) where
  audioFileBeingBuilt : Option (List Sample)
  haveAudioUpToTimestampMs : ℤ

namespace AudioBeingBuilt

/-- Silence is appended up to the start of an audio file. -/
def appendSilence (silence : Sample) (st : AudioBeingBuilt Sample) (audioStartTimestampMs : ℤ) :
    AudioBeingBuilt Sample :=
  if st.haveAudioUpToTimestampMs < audioStartTimestampMs then
    -- there is no audio for a while
    let silenceMs := audioStartTimestampMs - st.haveAudioUpToTimestampMs
    ⟨concatOntoOrBecome st.audioFileBeingBuilt (List.replicate silenceMs.toNat silence),
      st.haveAudioUpToTimestampMs + silenceMs⟩
  else st

/-- What `ffmpeg` makes of an audio file, with `-ss` and `-t` where they are given. -/
def audioSegment (video : VideoFile) (audioStartTimestampMs t_Ms : ℤ) (samples : List Sample) :
    List Sample :=
  let samples := if audioStartTimestampMs < video.startTimestampMs then
      samples.drop (video.startTimestampMs - audioStartTimestampMs).toNat
    else samples
  if t_Ms ≠ 0 then samples.take t_Ms.toNat else samples

/-- One round of the loop. -/
def addAudioFile (silence : Sample) (video : VideoFile) (st : AudioBeingBuilt Sample)
    (currentAudioFile : ℤ × AudioFile Sample) : AudioBeingBuilt Sample :=
  let audioStartTimestampMs := currentAudioFile.1
  let audioEndTimestampMs := audioStartTimestampMs + currentAudioFile.2.durationMs
  let st := st.appendSilence silence audioStartTimestampMs
  -- what is behind the end of the video is cut off
  let t_Ms := if audioEndTimestampMs > video.endTimestampMs then
      video.endTimestampMs - st.haveAudioUpToTimestampMs
    else 0
  let haveAudioUpToTimestampMs := if audioEndTimestampMs > video.endTimestampMs then
      st.haveAudioUpToTimestampMs + t_Ms
    else st.haveAudioUpToTimestampMs + (audioEndTimestampMs - st.haveAudioUpToTimestampMs)
  ⟨concatOntoOrBecome st.audioFileBeingBuilt
    (audioSegment video audioStartTimestampMs t_Ms currentAudioFile.2.samples),
    haveAudioUpToTimestampMs⟩

end AudioBeingBuilt

/-- The audio track; `some none` is `-an`, and `none` that two audio files start at the same time.
-/
def muxSyncCurrentVideoFile (silence : Sample) (video : VideoFile)
    (audioFileMetas : List (AudioFile Sample)) : Option (Option (List Sample)) :=
  (findIntersectingAudioFiles video audioFileMetas .empty).map fun intersectingAudioFiles =>
    if intersectingAudioFiles.entries.isEmpty then none
    else (intersectingAudioFiles.entries.foldl (AudioBeingBuilt.addAudioFile silence video)
      ⟨none, video.startTimestampMs⟩).audioFileBeingBuilt

/-! ## What it is for -/

section Spec

variable (silence : Sample) (files : List (AudioFile Sample))

/-- The sample of the audio file that covers a time, or silence if none does. -/
def IsSampleAt (ms : ℤ) (sample : Sample) : Prop :=
  (∃ file ∈ files, file.Covers ms ∧
    file.samples[(ms - file.startTimestampMs).toNat]? = some sample) ∨
  (∀ file ∈ files, ¬ file.Covers ms) ∧ sample = silence

/-- Each sample is that of its time. -/
def IsInSyncFrom (begin : ℤ) (track : List Sample) : Prop :=
  ∀ (x : ℕ) sample, track[x]? = some sample → IsSampleAt silence files (begin + x) sample

structure IsMuxedInSync (video : VideoFile) (track : List Sample) : Prop where
  inSync : IsInSyncFrom silence files video.startTimestampMs track
  hasAllAudio : ∀ file ∈ files, ∀ ms, file.Covers ms → video.startTimestampMs ≤ ms →
    ms < video.endTimestampMs → ms - video.startTimestampMs < track.length
  notLonger : track.length ≤ video.durationMs

/-- **The muxed audio is in sync.**  A video without an audio track has an empty one here. -/
def MuxesInSync (video : VideoFile) : Prop :=
  ∃ track, muxSyncCurrentVideoFile silence video files = some track ∧
    IsMuxedInSync silence files video (track.getD [])

end Spec

/-! ## Audio files in order -/

variable {silence : Sample} {files rest before : List (AudioFile Sample)} {file : AudioFile Sample}
  {video : VideoFile} {begin : ℤ} {track segment : List Sample} {st : AudioBeingBuilt Sample}

namespace AudioFile

lemma durationMs_pos (file : AudioFile Sample) : 0 < file.durationMs :=
  List.length_pos_of_ne_nil file.samples_ne_nil

lemma start_lt_end (file : AudioFile Sample) : file.startTimestampMs < file.endTimestampMs := by
  have hpos := file.durationMs_pos
  unfold endTimestampMs
  omega

/-- Touching is intersecting. -/
def Intersects (file : AudioFile Sample) (video : VideoFile) : Prop :=
  file.startTimestampMs ≤ video.endTimestampMs ∧ video.startTimestampMs ≤ file.endTimestampMs

lemma timespansIntersect_iff : timespansIntersect video.startTimestampMs video.durationMs
    file.startTimestampMs file.durationMs = true ↔ file.Intersects video := by
  unfold timespansIntersect Intersects AudioFile.endTimestampMs VideoFile.endTimestampMs
  split_ifs <;> simp only [true_iff, false_iff] <;> omega

end AudioFile

/-- What no intersecting file covers is outside of the video. -/
lemma AudioFile.Covers.intersects {ms : ℤ} (h : file.Covers ms)
    (hstart : video.startTimestampMs ≤ ms) (hend : ms < video.endTimestampMs) :
    file.Intersects video :=
  ⟨le_trans h.1 (le_of_lt hend), le_trans hstart (le_of_lt h.2)⟩

/-- The intersecting files, by their start. -/
structure IsInOrder (video : VideoFile) (files ordered : List (AudioFile Sample)) : Prop where
  sorted : ordered.Pairwise fun file file' => file.endTimestampMs ≤ file'.startTimestampMs
  mem_iff : ∀ file, file ∈ ordered ↔ file ∈ files ∧ file.Intersects video

lemma findIntersectingAudioFiles_eq (video : VideoFile) : ∀ {files : List (AudioFile Sample)}
    {m : SortedMap ℤ (AudioFile Sample)},
    (files.Pairwise fun file file' => file.startTimestampMs ≠ file'.startTimestampMs) →
    (∀ file ∈ files, m.lookup file.startTimestampMs = none) →
    ∃ m', findIntersectingAudioFiles video files m = some m' ∧
      ∀ e, e ∈ m'.entries ↔ e ∈ m.entries ∨
        ∃ file ∈ files, file.Intersects video ∧ e = (file.startTimestampMs, file) := by
  intro files
  induction files with
  | nil =>
      intro m _ _
      refine ⟨m, rfl, fun e => ⟨.inl, ?_⟩⟩
      rintro (h | ⟨file, hfile, -⟩)
      · exact h
      · exact absurd hfile List.not_mem_nil
  | cons file files ih =>
      intro m hdistinct hnew
      obtain ⟨hfirst, hdistinct⟩ := List.pairwise_cons.1 hdistinct
      have hfile := hnew file List.mem_cons_self
      have hnew := fun file' hfile' => hnew file' (List.mem_cons_of_mem file hfile')
      by_cases hintersects : file.Intersects video
      · have hnew' : ∀ file' ∈ files,
            (m.insert file.startTimestampMs file).lookup file'.startTimestampMs = none := by
          intro file' hfile'
          refine Option.eq_none_iff_forall_ne_some.2 fun found hfound => ?_
          rcases (SortedMap.lookup_insert_eq_some hfile).1 hfound with ⟨heq, -⟩ | hfound
          · exact hfirst file' hfile' heq.symm
          · exact absurd ((hnew file' hfile').symm.trans hfound) nofun
        obtain ⟨m', hm', hmem⟩ := ih hdistinct hnew'
        refine ⟨m', ?_, fun e => ?_⟩
        · rw [findIntersectingAudioFiles, if_pos (AudioFile.timespansIntersect_iff.2 hintersects),
            hfile]
          exact hm'
        · rw [hmem, (SortedMap.insert_perm hfile).mem_iff, List.mem_cons, List.exists_mem_cons_iff]
          constructor
          · rintro ((h | h) | h)
            · exact .inr (.inl ⟨hintersects, h⟩)
            · exact .inl h
            · exact .inr (.inr h)
          · rintro (h | ⟨-, h⟩ | h)
            · exact .inl (.inr h)
            · exact .inl (.inl h)
            · exact .inr h
      · obtain ⟨m', hm', hmem⟩ := ih hdistinct hnew
        refine ⟨m', ?_, fun e => ?_⟩
        · rw [findIntersectingAudioFiles,
            if_neg fun h => hintersects (AudioFile.timespansIntersect_iff.1 h)]
          exact hm'
        · rw [hmem, List.exists_mem_cons_iff]
          constructor
          · rintro (h | h)
            · exact .inl h
            · exact .inr (.inr h)
          · rintro (h | ⟨h, -⟩ | h)
            · exact .inl h
            · exact absurd h hintersects
            · exact .inr h

/-- Files of which no two overlap are one behind the other. -/
lemma exists_isInOrder (silence : Sample) (metas : AudioFileMetas Sample) (video : VideoFile) :
    ∃ ordered, IsInOrder video metas.files ordered ∧
      muxSyncCurrentVideoFile silence video metas.files = some (if ordered.isEmpty then none
        else ((ordered.map fun file => (file.startTimestampMs, file)).foldl
          (AudioBeingBuilt.addAudioFile silence video)
          ⟨none, video.startTimestampMs⟩).audioFileBeingBuilt) := by
  have hdistinct : metas.files.Pairwise fun file file' =>
      file.startTimestampMs ≠ file'.startTimestampMs := by
    refine metas.nowhereOverlapping.imp fun {file file'} h heq => ?_
    have hproper := file.start_lt_end
    have hproper' := file'.start_lt_end
    unfold AudioFile.OverlapsNowhere at h
    omega
  obtain ⟨m, hm, hmem⟩ := findIntersectingAudioFiles_eq video hdistinct
    fun file _ => (rfl : SortedMap.empty.lookup file.startTimestampMs = none)
  have hentry : ∀ e, e ∈ m.entries ↔ (e.2 ∈ metas.files ∧ e.2.Intersects video) ∧
      e = (e.2.startTimestampMs, e.2) := by
    intro e
    rw [hmem]
    constructor
    · rintro (h | ⟨file, hfile, hintersects, rfl⟩)
      · exact absurd h List.not_mem_nil
      · exact ⟨⟨hfile, hintersects⟩, rfl⟩
    · rintro ⟨⟨hfile, hintersects⟩, he⟩
      exact .inr ⟨e.2, hfile, hintersects, he⟩
  have hmap : (m.entries.map Prod.snd).map (fun file => (file.startTimestampMs, file)) =
      m.entries := by
    rw [List.map_map]
    refine (List.map_congr_left fun e he => ?_).trans (List.map_id _)
    exact ((hentry e).1 he).2.symm
  refine ⟨m.entries.map Prod.snd, ⟨?_, fun file => ?_⟩, ?_⟩
  · rw [List.pairwise_map]
    refine m.sorted.imp_of_mem fun {e e'} he he' hlt => ?_
    obtain ⟨⟨hfile, -⟩, heq⟩ := (hentry e).1 he
    obtain ⟨⟨hfile', -⟩, heq'⟩ := (hentry e').1 he'
    rw [heq, heq'] at hlt
    have hne : e.2 ≠ e'.2 := fun h => by
      rw [h] at hlt
      exact lt_irrefl _ hlt
    have hapart := metas.nowhereOverlapping.forall hfile hfile' hne
    have hproper' := e'.2.start_lt_end
    have hlt : e.2.startTimestampMs < e'.2.startTimestampMs := hlt
    unfold AudioFile.OverlapsNowhere at hapart
    omega
  · rw [List.mem_map]
    constructor
    · rintro ⟨e, he, rfl⟩
      exact ((hentry e).1 he).1
    · intro h
      exact ⟨(file.startTimestampMs, file), (hentry _).2 ⟨h, rfl⟩, rfl⟩
  · rw [muxSyncCurrentVideoFile, hm, hmap, Option.map_some, List.isEmpty_map]

/-! ## Pieces that are in sync -/

lemma IsInSyncFrom.append (h : IsInSyncFrom silence files begin track)
    (hsegment : IsInSyncFrom silence files (begin + track.length) segment) :
    IsInSyncFrom silence files begin (track ++ segment) := by
  intro x sample hx
  by_cases hlt : x < track.length
  · rw [List.getElem?_append_left hlt] at hx
    exact h x sample hx
  · rw [List.getElem?_append_right (by omega)] at hx
    have hat := hsegment _ sample hx
    have heq : begin + track.length + (x - track.length : ℕ) = begin + x := by omega
    exact heq ▸ hat

lemma IsInSyncFrom.take (h : IsInSyncFrom silence files begin track) (n : ℕ) :
    IsInSyncFrom silence files begin (track.take n) := by
  intro x sample hx
  apply h x sample
  rw [List.getElem?_take] at hx
  split_ifs at hx
  exact hx

/-- Silence, where there is nothing else. -/
lemma isInSyncFrom_replicate {n : ℕ}
    (h : ∀ ms, begin ≤ ms → ms < begin + n → ∀ file ∈ files, ¬ file.Covers ms) :
    IsInSyncFrom silence files begin (List.replicate n silence) := by
  intro x sample hx
  obtain ⟨hlt, heq⟩ := List.getElem?_eq_some_iff.1 hx
  rw [List.length_replicate] at hlt
  rw [List.getElem_replicate] at heq
  exact .inr ⟨h (begin + x) (by omega) (by omega), heq.symm⟩

/-- The samples of a file from the beginning of the video on. -/
lemma isInSyncFrom_drop (hfile : file ∈ files) : IsInSyncFrom silence files
    (max video.startTimestampMs file.startTimestampMs)
    (file.samples.drop (video.startTimestampMs - file.startTimestampMs).toNat) := by
  intro x sample hx
  rw [List.getElem?_drop] at hx
  obtain ⟨hlt, -⟩ := List.getElem?_eq_some_iff.1 hx
  refine .inl ⟨file, hfile, ⟨by omega, ?_⟩, ?_⟩
  · unfold AudioFile.endTimestampMs AudioFile.durationMs
    omega
  · rw [← hx]
    congr 1
    omega

/-! ## One round of the loop -/

/-- Where it is in front of the files that are to come. -/
structure IsBuiltUpTo (silence : Sample) (files : List (AudioFile Sample)) (video : VideoFile)
    (before rest : List (AudioFile Sample)) (st : AudioBeingBuilt Sample) : Prop where
  inSync : IsInSyncFrom silence files video.startTimestampMs (st.audioFileBeingBuilt.getD [])
  length : ((st.audioFileBeingBuilt.getD []).length : ℤ) =
    st.haveAudioUpToTimestampMs - video.startTimestampMs
  notLonger : st.haveAudioUpToTimestampMs ≤ video.endTimestampMs
  hasBefore : ∀ file ∈ before,
    min file.endTimestampMs video.endTimestampMs ≤ st.haveAudioUpToTimestampMs
  rest : ∀ file ∈ rest,
    st.haveAudioUpToTimestampMs ≤ max video.startTimestampMs file.startTimestampMs

namespace AudioBeingBuilt

lemma getD_concatOntoOrBecome {built : Option (List Sample)} :
    (concatOntoOrBecome built segment).getD [] = built.getD [] ++ segment := by
  cases built with
  | none => rfl
  | some built => rfl

/-- The silence ends where the file starts, or where the video does. -/
lemma appendSilence_eq (silence : Sample) (st : AudioBeingBuilt Sample)
    (audioStartTimestampMs : ℤ) :
    ((st.appendSilence silence audioStartTimestampMs).audioFileBeingBuilt.getD [] =
      st.audioFileBeingBuilt.getD [] ++ List.replicate
        (audioStartTimestampMs - st.haveAudioUpToTimestampMs).toNat silence) ∧
    (st.appendSilence silence audioStartTimestampMs).haveAudioUpToTimestampMs =
      max st.haveAudioUpToTimestampMs audioStartTimestampMs := by
  unfold appendSilence
  by_cases hlt : st.haveAudioUpToTimestampMs < audioStartTimestampMs
  · rw [if_pos hlt]
    refine ⟨getD_concatOntoOrBecome, ?_⟩
    show st.haveAudioUpToTimestampMs + (audioStartTimestampMs - st.haveAudioUpToTimestampMs) = _
    omega
  · rw [if_neg hlt, Int.toNat_of_nonpos (by omega), List.replicate_zero, List.append_nil]
    exact ⟨rfl, by omega⟩

lemma audioSegment_eq {audioStartTimestampMs t_Ms : ℤ} {samples : List Sample} :
    audioSegment video audioStartTimestampMs t_Ms samples =
      if t_Ms ≠ 0 then
        (samples.drop (video.startTimestampMs - audioStartTimestampMs).toNat).take t_Ms.toNat
      else samples.drop (video.startTimestampMs - audioStartTimestampMs).toNat := by
  unfold audioSegment
  by_cases hlt : audioStartTimestampMs < video.startTimestampMs
  · rw [if_pos hlt]
  · have hnone : (video.startTimestampMs - audioStartTimestampMs).toNat = 0 := by omega
    rw [if_neg hlt, hnone, List.drop_zero]

/-- `-t` is used for a file that goes on behind the video. -/
lemma addAudioFile_of_gt (silence : Sample) (st : AudioBeingBuilt Sample)
    (h : file.endTimestampMs > video.endTimestampMs) :
    ((st.addAudioFile silence video (file.startTimestampMs, file)).audioFileBeingBuilt.getD [] =
      (st.appendSilence silence file.startTimestampMs).audioFileBeingBuilt.getD [] ++
        audioSegment video file.startTimestampMs (video.endTimestampMs -
          (st.appendSilence silence file.startTimestampMs).haveAudioUpToTimestampMs)
          file.samples) ∧
    (st.addAudioFile silence video (file.startTimestampMs, file)).haveAudioUpToTimestampMs =
      video.endTimestampMs := by
  have h : file.startTimestampMs + (file.durationMs : ℤ) > video.endTimestampMs := h
  refine ⟨?_, ?_⟩
  · simp only [addAudioFile, if_pos h]
    exact getD_concatOntoOrBecome
  · simp only [addAudioFile, if_pos h]
    omega

lemma addAudioFile_of_not_gt (silence : Sample) (st : AudioBeingBuilt Sample)
    (h : ¬ file.endTimestampMs > video.endTimestampMs) :
    ((st.addAudioFile silence video (file.startTimestampMs, file)).audioFileBeingBuilt.getD [] =
      (st.appendSilence silence file.startTimestampMs).audioFileBeingBuilt.getD [] ++
        audioSegment video file.startTimestampMs 0 file.samples) ∧
    (st.addAudioFile silence video (file.startTimestampMs, file)).haveAudioUpToTimestampMs =
      file.endTimestampMs := by
  have h : ¬ file.startTimestampMs + (file.durationMs : ℤ) > video.endTimestampMs := h
  refine ⟨?_, ?_⟩
  · simp only [addAudioFile, if_neg h]
    exact getD_concatOntoOrBecome
  · simp only [addAudioFile, if_neg h, AudioFile.endTimestampMs]
    omega

end AudioBeingBuilt

variable {ordered : List (AudioFile Sample)}

/-- Nothing covers the time between what was built and the next file. -/
lemma IsBuiltUpTo.not_covers (h : IsBuiltUpTo silence files video before (file :: rest) st)
    (horder : IsInOrder video files (before ++ file :: rest)) {ms : ℤ}
    (hbegin : st.haveAudioUpToTimestampMs ≤ ms) (hend : ms < file.startTimestampMs) :
    ∀ other ∈ files, ¬ other.Covers ms := by
  intro other hother hcovers
  obtain ⟨-, hintersects⟩ := (horder.mem_iff file).1
    (List.mem_append_right before List.mem_cons_self)
  have hfrom : video.startTimestampMs ≤ st.haveAudioUpToTimestampMs := by
    have hlength := h.length
    omega
  have hto : ms < video.endTimestampMs := lt_of_lt_of_le hend hintersects.1
  have hmem := (horder.mem_iff other).2
    ⟨hother, hcovers.intersects (le_trans hfrom hbegin) hto⟩
  rcases List.mem_append.1 hmem with hbefore | hrest
  · have hhas := h.hasBefore other hbefore
    have hlt := hcovers.2
    omega
  · rcases List.mem_cons.1 hrest with rfl | hrest
    · exact absurd hcovers.1 (by omega)
    · have hsorted := (List.pairwise_append.1 horder.sorted).2.1
      have hle := (List.pairwise_cons.1 hsorted).1 other hrest
      have hproper := file.start_lt_end
      have hge := hcovers.1
      omega

/-- Silence is appended up to the file, and what there is is in sync. -/
lemma IsBuiltUpTo.appendSilence (h : IsBuiltUpTo silence files video before (file :: rest) st)
    (horder : IsInOrder video files (before ++ file :: rest)) :
    IsInSyncFrom silence files video.startTimestampMs
      ((st.appendSilence silence file.startTimestampMs).audioFileBeingBuilt.getD []) ∧
    (((st.appendSilence silence file.startTimestampMs).audioFileBeingBuilt.getD []).length : ℤ) =
      max video.startTimestampMs file.startTimestampMs - video.startTimestampMs ∧
    (st.appendSilence silence file.startTimestampMs).haveAudioUpToTimestampMs =
      max video.startTimestampMs file.startTimestampMs := by
  obtain ⟨hbuilt, hhave⟩ := AudioBeingBuilt.appendSilence_eq silence st file.startTimestampMs
  have hlength := h.length
  have hrest := h.rest file List.mem_cons_self
  refine ⟨?_, ?_, ?_⟩
  · rw [hbuilt]
    refine h.inSync.append (isInSyncFrom_replicate fun ms hbegin hend => ?_)
    exact h.not_covers horder (by omega) (by omega)
  · rw [hbuilt, List.length_append, List.length_replicate]
    omega
  · rw [hhave]
    omega

/-- The samples of a file that are not before the video. -/
lemma AudioFile.length_drop (h : file.Intersects video) :
    ((file.samples.drop (video.startTimestampMs - file.startTimestampMs).toNat).length : ℤ) =
      file.endTimestampMs - max video.startTimestampMs file.startTimestampMs := by
  have hend := h.2
  unfold AudioFile.endTimestampMs AudioFile.durationMs at hend ⊢
  rw [List.length_drop]
  omega

/-- A file that begins at the very end of the video, or that covers a video without a length. -/
def AudioFile.BeginsWhereItEnds (file : AudioFile Sample) (video : VideoFile) : Prop :=
  video.endTimestampMs < file.endTimestampMs ∧
    max video.startTimestampMs file.startTimestampMs = video.endTimestampMs

/-- **What one round does**, if there is something of the file before the end of the video. -/
lemma IsBuiltUpTo.addAudioFile (h : IsBuiltUpTo silence files video before (file :: rest) st)
    (horder : IsInOrder video files (before ++ file :: rest))
    (hgood : ¬ file.BeginsWhereItEnds video) :
    IsBuiltUpTo silence files video (before ++ [file]) rest
      (st.addAudioFile silence video (file.startTimestampMs, file)) := by
  obtain ⟨hfile, hintersects⟩ := (horder.mem_iff file).1
    (List.mem_append_right before List.mem_cons_self)
  obtain ⟨hinSync, hlength, hhave⟩ := h.appendSilence horder
  have hbehind := (List.pairwise_cons.1 (List.pairwise_append.1 horder.sorted).2.1).1
  have hdrop := AudioFile.length_drop hintersects
  have hsamples : IsInSyncFrom silence files
      (video.startTimestampMs + ((st.appendSilence silence
        file.startTimestampMs).audioFileBeingBuilt.getD []).length)
      (file.samples.drop (video.startTimestampMs - file.startTimestampMs).toNat) := by
    rw [hlength, add_sub_cancel]
    exact isInSyncFrom_drop hfile
  have hbefore := h.hasBefore
  have hold := h.notLonger
  have hstart := hintersects.1
  by_cases hmore : file.endTimestampMs > video.endTimestampMs
  · -- it goes on when the video ends, and so it is the last one
    have hroom : video.endTimestampMs - max video.startTimestampMs file.startTimestampMs ≠ 0 :=
      fun hzero => hgood ⟨hmore, by omega⟩
    have hleft : 0 ≤ video.endTimestampMs - max video.startTimestampMs file.startTimestampMs := by
      unfold VideoFile.endTimestampMs at hstart ⊢
      omega
    obtain ⟨hbuilt, hupTo⟩ := AudioBeingBuilt.addAudioFile_of_gt silence st hmore
    rw [hhave, AudioBeingBuilt.audioSegment_eq, if_pos hroom] at hbuilt
    refine ⟨?_, ?_, ?_, fun other hother => ?_, fun other hother => ?_⟩
    · rw [hbuilt]
      exact hinSync.append (hsamples.take _)
    · rw [hbuilt, hupTo, List.length_append, List.length_take]
      omega
    · rw [hupTo]
    · rw [hupTo]
      exact min_le_right _ _
    · rw [hupTo]
      have hle := hbehind other hother
      omega
  · obtain ⟨hbuilt, hupTo⟩ := AudioBeingBuilt.addAudioFile_of_not_gt silence st hmore
    rw [AudioBeingBuilt.audioSegment_eq, if_neg (not_not.2 rfl)] at hbuilt
    have hover := hintersects.2
    refine ⟨?_, ?_, ?_, fun other hother => ?_, fun other hother => ?_⟩
    · rw [hbuilt]
      exact hinSync.append hsamples
    · rw [hbuilt, hupTo, List.length_append]
      omega
    · rw [hupTo]
      omega
    · rw [hupTo]
      rcases List.mem_append.1 hother with hother | hother
      · have hold := h.hasBefore other hother
        have hrest := h.rest file List.mem_cons_self
        have hproper := file.start_lt_end
        omega
      · rw [List.mem_singleton.1 hother]
        exact min_le_left _ _
    · rw [hupTo]
      have hle := hbehind other hother
      omega

/-- **What the rounds do**, up to some file. -/
lemma IsBuiltUpTo.foldl : ∀ {good before : List (AudioFile Sample)} {st : AudioBeingBuilt Sample},
    IsBuiltUpTo silence files video before (good ++ rest) st →
    IsInOrder video files (before ++ (good ++ rest)) →
    (∀ file ∈ good, ¬ file.BeginsWhereItEnds video) →
    IsBuiltUpTo silence files video (before ++ good) rest
      ((good.map fun file => (file.startTimestampMs, file)).foldl
        (AudioBeingBuilt.addAudioFile silence video) st) := by
  intro good
  induction good with
  | nil =>
      intro before st h _ _
      rw [List.append_nil]
      exact h
  | cons file good ih =>
      intro before st h horder hgood
      have hround := h.addAudioFile horder (hgood file List.mem_cons_self)
      have hassoc : before ++ (file :: good ++ rest) = (before ++ [file]) ++ (good ++ rest) := by
        rw [List.append_assoc]
        rfl
      have hrounds := ih hround (hassoc ▸ horder)
        fun file' hfile' => hgood file' (List.mem_cons_of_mem file hfile')
      rw [List.append_assoc] at hrounds
      exact hrounds

lemma isBuiltUpTo_start :
    IsBuiltUpTo silence files video [] ordered ⟨none, video.startTimestampMs⟩ where
  inSync x sample hx := absurd hx nofun
  length := (sub_self video.startTimestampMs).symm
  notLonger := by
    show video.startTimestampMs ≤ video.startTimestampMs + video.durationMs
    omega
  hasBefore file hfile := absurd hfile List.not_mem_nil
  rest file _ := le_max_left _ _

/-- Behind the last file, all is there. -/
lemma IsBuiltUpTo.isMuxedInSync (h : IsBuiltUpTo silence files video ordered [] st)
    (horder : IsInOrder video files ordered) :
    IsMuxedInSync silence files video (st.audioFileBeingBuilt.getD []) := by
  have hlength := h.length
  refine ⟨h.inSync, fun file hfile ms hcovers hstart hend => ?_, ?_⟩
  · have hintersects := hcovers.intersects hstart hend
    have hhas := h.hasBefore file ((horder.mem_iff file).2 ⟨hfile, hintersects⟩)
    have hlt := hcovers.2
    omega
  · have hnotLonger := h.notLonger
    unfold VideoFile.endTimestampMs at hnotLonger
    omega

/-- A file that begins where the video ends is the last one, and it is appended whole. -/
lemma IsInOrder.length_lt (silence : Sample) (horder : IsInOrder video files ordered)
    (hfile : file ∈ files) (hbad : file.BeginsWhereItEnds video) :
    video.durationMs < (((ordered.map fun file => (file.startTimestampMs, file)).foldl
      (AudioBeingBuilt.addAudioFile silence video)
      ⟨none, video.startTimestampMs⟩).audioFileBeingBuilt.getD []).length := by
  obtain ⟨hmore, hends⟩ := hbad
  have hintersects : file.Intersects video := ⟨by omega, by omega⟩
  obtain ⟨before, behind, hordered⟩ :=
    List.append_of_mem ((horder.mem_iff file).2 ⟨hfile, hintersects⟩)
  subst hordered
  obtain ⟨-, hsorted, hbefore⟩ := List.pairwise_append.1 horder.sorted
  have hlast : behind = [] := by
    refine List.eq_nil_iff_forall_not_mem.2 fun other hother => ?_
    have hle := (List.pairwise_cons.1 hsorted).1 other hother
    obtain ⟨-, hstart, -⟩ := (horder.mem_iff other).1
      (List.mem_append_right before (List.mem_cons_of_mem file hother))
    omega
  subst hlast
  have hgood : ∀ other ∈ before, ¬ other.BeginsWhereItEnds video := by
    intro other hother hbad
    have hle := hbefore other hother file List.mem_cons_self
    have hgt := hbad.1
    omega
  have hstart : IsBuiltUpTo silence files video [] (before ++ [file])
      ⟨none, video.startTimestampMs⟩ := isBuiltUpTo_start
  have hbuilt := hstart.foldl horder hgood
  rw [List.nil_append] at hbuilt
  obtain ⟨-, hlength, hhave⟩ := hbuilt.appendSilence horder
  have hdrop := AudioFile.length_drop hintersects
  rw [List.map_append, List.foldl_append, List.map_singleton, List.foldl_cons, List.foldl_nil,
    (AudioBeingBuilt.addAudioFile_of_gt silence _ hmore).1, hhave, hends, sub_self,
    AudioBeingBuilt.audioSegment_eq, if_neg (not_not.2 rfl), List.length_append]
  unfold VideoFile.endTimestampMs at hends hmore
  omega

/-- **The muxed audio is in sync if and only if** no audio file begins where the video ends.

In sync means that the sample at every moment of the video is the one that was recorded then, and
silence where nothing was, and that the track is as long as the video.  The source says that
touching is not counted as intersecting, and its comparison counts it. -/
theorem muxesInSync_iff (silence : Sample) (video : VideoFile) (metas : AudioFileMetas Sample) :
    MuxesInSync silence metas.files video ↔
      ∀ file ∈ metas.files, video.endTimestampMs < file.endTimestampMs →
        max video.startTimestampMs file.startTimestampMs ≠ video.endTimestampMs := by
  obtain ⟨ordered, horder, hmux⟩ := exists_isInOrder silence metas video
  have hbuilt : (if ordered.isEmpty then none
      else ((ordered.map fun file => (file.startTimestampMs, file)).foldl
        (AudioBeingBuilt.addAudioFile silence video)
        ⟨none, video.startTimestampMs⟩).audioFileBeingBuilt) =
      ((ordered.map fun file => (file.startTimestampMs, file)).foldl
        (AudioBeingBuilt.addAudioFile silence video)
        ⟨none, video.startTimestampMs⟩).audioFileBeingBuilt := by
    cases ordered with
    | nil => rfl
    | cons file ordered => rfl
  rw [hbuilt] at hmux
  constructor
  · rintro ⟨track, htrack, hsync⟩ file hfile hmore hends
    obtain rfl := Option.some.inj (hmux.symm.trans htrack)
    have hlonger := horder.length_lt silence hfile ⟨hmore, hends⟩
    exact absurd hsync.notLonger (by omega)
  · intro h
    refine ⟨_, hmux, ?_⟩
    have hgood : ∀ file ∈ ordered, ¬ file.BeginsWhereItEnds video := fun file hfile hbad =>
      h file ((horder.mem_iff file).1 hfile).1 hbad.1 hbad.2
    have hall : IsInOrder video metas.files ([] ++ (ordered ++ [])) := by
      rw [List.nil_append, List.append_nil]
      exact horder
    exact (isBuiltUpTo_start.foldl hall hgood).isMuxedInSync horder

/-- A video of two milliseconds, and an audio file of three that starts when it ends. -/
theorem not_muxesInSync_startsAtTheEnd :
    ¬ ∀ (video : VideoFile) (metas : AudioFileMetas ℕ), MuxesInSync 0 metas.files video := by
  intro h
  obtain ⟨track, htrack, hsync⟩ := h ⟨0, 2⟩
    ⟨[⟨2, [1, 2, 3], List.cons_ne_nil _ _⟩], List.pairwise_singleton _ _⟩
  obtain rfl := Option.some.inj htrack
  have hlonger := hsync.notLonger
  exact absurd hlonger (by decide +kernel)

end Autobackup.MuxerSyncer
