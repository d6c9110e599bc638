import Autobackup.LossyCopier.CopyOperations

/-!
# When the lossy copy loses no file

An operation touches its destination path and the one with its conversion extension.  Unless a
source file has the name of another one with an extension of a conversion, no two operations touch
the same path, and what an operation has reached holds whatever the others do (`Reached`).  If there
are two such files, there is a schedule that loses one of them: the conversion comes first, and the
copy then finds its destination taken.

Any number of operations runs at once, and the order of their steps is the schedule.  Whether a
conversion succeeds is up to the schedule too; one that fails falls back to copying.  Left out are
the arguments of ffmpeg and directories that cannot be made.
-/

namespace Autobackup.LossyCopier

open QString DirectoryTree

variable {r : Request} {s : State} {op op' : CopyOperation} {outcome : Outcome} {files : Files}
  {directories : List Text} {operations : List CopyOperation} {phase : Phase} {i j : ℕ}
  {path : Text}

lemma length_conversionExtension {t : CopyOperationTypes} {extension : Text}
    (h : conversionExtension t = some extension) : extension.length = 5 := by
  cases t with
  | copyFallback => cases h
  | stillImage => cases h; rfl
  | audio => cases h; rfl
  | rawPcm22050s16leAudio => cases h; rfl
  | video => cases h; rfl

/-! ## Paths of the operations -/

/-- What the operations of a request have in common: their paths are distinct, and none of them is
a directory. -/
structure Distinct (directories : List Text) (operations : List CopyOperation) : Prop where
  nodup : operations.Nodup
  source_injective : ∀ op ∈ operations, ∀ op' ∈ operations,
    op.sourceFilePath = op'.sourceFilePath → op = op'
  destination_injective : ∀ op ∈ operations, ∀ op' ∈ operations,
    op.destinationFilePath = op'.destinationFilePath → op = op'
  not_directory : ∀ op ∈ operations, op.destinationFilePath ∉ directories

/-- No destination is the converted one of another operation. -/
def Apart (operations : List CopyOperation) : Prop :=
  ∀ op ∈ operations, ∀ op' ∈ operations, ∀ extension,
    conversionExtension op.copyOperationType = some extension →
      op.destinationFilePath ++ extension ≠ op'.destinationFilePath

lemma listed_path {file : Listed Unit} (h : file ∈ r.listed) : ∃ relative,
    file.path = withSlashAppended r.sourceDir ++ relative ∧
    r.destinationAbsoluteFilePath file.path = withSlashAppended r.destinationDir ++ relative := by
  obtain ⟨relative, hrelative⟩ := path_of_mem _ _ h
  refine ⟨relative, hrelative, ?_⟩
  rw [Request.destinationAbsoluteFilePath, hrelative, List.drop_left]

/-- Paths of the destination that differ by an extension come from paths of the source that do. -/
lemma append_eq_iff {file other : Listed Unit} (hfile : file ∈ r.listed) (hother : other ∈ r.listed)
    (extension : Text) :
    r.destinationAbsoluteFilePath file.path ++ extension =
        r.destinationAbsoluteFilePath other.path ↔
      file.path ++ extension = other.path := by
  obtain ⟨relative, hpath, hdestination⟩ := listed_path hfile
  obtain ⟨relative', hpath', hdestination'⟩ := listed_path hother
  rw [hdestination, hdestination', hpath, hpath', List.append_assoc, List.append_assoc,
    List.append_cancel_left_eq, List.append_cancel_left_eq]

lemma eq_of_path_eq {file other : Listed Unit} (hfile : file ∈ r.listed)
    (hother : other ∈ r.listed) (h : file.path = other.path) : file = other :=
  List.inj_on_of_nodup_map (nodup_listing _ _ r.wellFormed) hfile hother h

lemma eq_of_destination_eq {file other : Listed Unit} (hfile : file ∈ r.listed)
    (hother : other ∈ r.listed) (h : r.destinationAbsoluteFilePath file.path =
      r.destinationAbsoluteFilePath other.path) : file = other := by
  have happend := append_eq_iff hfile hother []
  rw [List.append_nil, List.append_nil] at happend
  exact eq_of_path_eq hfile hother (happend.1 h)

lemma distinct_copyOperations (r : Request) :
    Distinct r.destinationDirectories r.copyOperations where
  nodup := by
    have hlisted : r.listed.Nodup := (nodup_listing _ _ r.wellFormed).of_map _
    refine (hlisted.filter _).map_on fun file hfile other hother h => ?_
    exact eq_of_path_eq (List.mem_of_mem_filter hfile) (List.mem_of_mem_filter hother)
      (congrArg CopyOperation.sourceFilePath h)
  source_injective := fun op hop op' hop' h => by
    obtain ⟨file, hfile, rfl⟩ := List.mem_map.1 hop
    obtain ⟨other, hother, rfl⟩ := List.mem_map.1 hop'
    rw [eq_of_path_eq (List.mem_of_mem_filter hfile) (List.mem_of_mem_filter hother) h]
  destination_injective := fun op hop op' hop' h => by
    obtain ⟨file, hfile, rfl⟩ := List.mem_map.1 hop
    obtain ⟨other, hother, rfl⟩ := List.mem_map.1 hop'
    rw [eq_of_destination_eq (List.mem_of_mem_filter hfile) (List.mem_of_mem_filter hother) h]
  not_directory := fun op hop hmem => by
    obtain ⟨file, hfile, rfl⟩ := List.mem_map.1 hop
    obtain ⟨directory, hdirectory, heq⟩ := List.mem_map.1 hmem
    obtain ⟨hlisted, hnone⟩ := List.mem_filter.1 hdirectory
    obtain ⟨hlisted', hsome⟩ := List.mem_filter.1 hfile
    rw [eq_of_destination_eq hlisted hlisted' heq] at hnone
    cases hcontent : file.content with
    | none => simp [hcontent] at hsome
    | some content => simp [hcontent] at hnone

lemma apart_copyOperations (r : Request) : Apart r.copyOperations ↔ r.NoClash := by
  constructor
  · intro h file hfile other hother extension hextension heq
    refine h _ (List.mem_map_of_mem hfile) _ (List.mem_map_of_mem hother) extension hextension ?_
    exact (append_eq_iff (List.mem_of_mem_filter hfile) (List.mem_of_mem_filter hother) _).2 heq
  · intro h op hop op' hop' extension hextension heq
    obtain ⟨file, hfile, rfl⟩ := List.mem_map.1 hop
    obtain ⟨other, hother, rfl⟩ := List.mem_map.1 hop'
    refine h file hfile other hother extension hextension ?_
    exact (append_eq_iff (List.mem_of_mem_filter hfile) (List.mem_of_mem_filter hother) _).1 heq

/-! ## What one operation does -/

/-- A step changes no other paths than the two of its operation. -/
lemma lookup_advance (hdestination : path ≠ op.destinationFilePath)
    (hconverted : ∀ extension, conversionExtension op.copyOperationType = some extension →
      path ≠ op.destinationFilePath ++ extension) :
    (advance directories op outcome files phase).2.lookup path = files.lookup path := by
  have hpath : path ≠ convertedFilePath op := by
    rw [convertedFilePath]
    cases hextension : conversionExtension op.copyOperationType with
    | none =>
        rw [Option.getD_none, List.append_nil]
        exact hdestination
    | some extension => exact hconverted extension hextension
  cases phase with
  | notStarted => rfl
  | converting =>
      cases outcome with
      | succeeds =>
          rw [advance]
          split_ifs with h
          · rfl
          · exact AList.lookup_insert_ne hpath
      | fails => rfl
      | failsBeforeConversion =>
          rw [advance]
          split_ifs <;> rfl
  | written => cases outcome <;> rfl
  | deleting => rfl
  | removing => exact AList.lookup_erase_ne hpath
  | fallingBack =>
      rw [advance]
      split_ifs with h
      · rfl
      · exact AList.lookup_insert_ne hdestination
  | done => rfl

/-- What holds of the two paths of an operation, in each of its phases. -/
def Reached (op : CopyOperation) (files : Files) : Phase → Prop
  | .notStarted => files.lookup op.destinationFilePath = none
  | .converting => files.lookup op.destinationFilePath = none ∧
      op.copyOperationType ≠ .copyFallback
  | .written => files.lookup op.destinationFilePath = none ∧
      op.copyOperationType ≠ .copyFallback ∧
      files.lookup (convertedFilePath op) = some op.sourceFilePath
  | .deleting => files.lookup op.destinationFilePath = none ∧
      op.copyOperationType ≠ .copyFallback
  | .removing => files.lookup op.destinationFilePath = none ∧
      op.copyOperationType ≠ .copyFallback
  | .fallingBack => files.lookup op.destinationFilePath = none
  | .done => ∃ path ∈ outputPaths op, files.lookup path = some op.sourceFilePath

lemma convertedFilePath_of_ne (h : op.copyOperationType ≠ .copyFallback) :
    ∃ extension, conversionExtension op.copyOperationType = some extension ∧
      convertedFilePath op = op.destinationFilePath ++ extension := by
  rw [convertedFilePath]
  cases hextension : conversionExtension op.copyOperationType with
  | none =>
      refine absurd ?_ h
      cases htype : op.copyOperationType with
      | copyFallback => rfl
      | _ => rw [htype] at hextension; cases hextension
  | some extension => exact ⟨extension, rfl, rfl⟩

lemma destination_ne_converted (h : op.copyOperationType ≠ .copyFallback) :
    op.destinationFilePath ≠ convertedFilePath op := by
  obtain ⟨extension, hextension, hconverted⟩ := convertedFilePath_of_ne h
  intro heq
  have hlength := congrArg List.length (heq.trans hconverted)
  rw [List.length_append, length_conversionExtension hextension] at hlength
  omega

lemma mem_outputPaths_converted (h : op.copyOperationType ≠ .copyFallback) :
    convertedFilePath op ∈ outputPaths op := by
  obtain ⟨extension, hextension, hconverted⟩ := convertedFilePath_of_ne h
  rw [outputPaths, hextension, hconverted]
  exact List.mem_cons_of_mem _ List.mem_cons_self

lemma reached_advance (hdirectory : op.destinationFilePath ∉ directories)
    (h : Reached op files phase) :
    Reached op (advance directories op outcome files phase).2
      (advance directories op outcome files phase).1 := by
  cases phase with
  | notStarted =>
      rw [advance]
      split_ifs with htype
      · exact h
      · exact ⟨h, htype⟩
  | converting =>
      obtain ⟨hfree, htype⟩ := h
      cases outcome with
      | succeeds =>
          rw [advance]
          split_ifs with hdir
          · exact ⟨hfree, htype⟩
          · refine ⟨?_, htype, AList.lookup_insert _⟩
            rwa [AList.lookup_insert_ne (destination_ne_converted htype)]
      | fails => exact ⟨hfree, htype⟩
      | failsBeforeConversion =>
          rw [advance]
          split_ifs
          · exact hfree
          · exact ⟨hfree, htype⟩
  | written =>
      obtain ⟨hfree, htype, hwritten⟩ := h
      cases outcome with
      | succeeds => exact ⟨_, mem_outputPaths_converted htype, hwritten⟩
      | fails => exact ⟨hfree, htype⟩
      | failsBeforeConversion => exact ⟨hfree, htype⟩
  | deleting =>
      obtain ⟨hfree, htype⟩ := h
      rw [advance]
      split_ifs
      · exact ⟨hfree, htype⟩
      · exact hfree
  | removing =>
      obtain ⟨hfree, htype⟩ := h
      change AList.lookup _ (AList.erase _ _) = none
      rwa [AList.lookup_erase_ne (destination_ne_converted htype)]
  | fallingBack =>
      have hexists : fileExists directories files op.destinationFilePath = false := by
        have hmem : op.destinationFilePath ∉ files := AList.lookup_eq_none.1 h
        simp [fileExists, hmem, hdirectory]
      rw [advance, hexists]
      exact ⟨op.destinationFilePath, List.mem_cons_self, AList.lookup_insert _⟩
  | done => exact h

/-- What an operation has reached depends on its two paths. -/
lemma Reached.congr {files' : Files} (h : Reached op files phase)
    (hsame : ∀ path ∈ outputPaths op, files'.lookup path = files.lookup path) :
    Reached op files' phase := by
  have hdestination := hsame op.destinationFilePath List.mem_cons_self
  cases phase with
  | notStarted => exact hdestination.trans h
  | converting => exact ⟨hdestination.trans h.1, h.2⟩
  | written =>
      exact ⟨hdestination.trans h.1, h.2.1,
        (hsame _ (mem_outputPaths_converted h.2.1)).trans h.2.2⟩
  | deleting => exact ⟨hdestination.trans h.1, h.2⟩
  | removing => exact ⟨hdestination.trans h.1, h.2⟩
  | fallingBack => exact hdestination.trans h
  | done =>
      obtain ⟨path, hpath, hlookup⟩ := h
      exact ⟨path, hpath, (hsame path hpath).trans hlookup⟩

/-! ## Schedules without a clash -/

/-- Other operations have other paths. -/
lemma ne_of_mem_outputPaths (hdistinct : Distinct directories operations)
    (hapart : Apart operations) (hop : op ∈ operations) (hop' : op' ∈ operations) (hne : op ≠ op')
    (hpath : path ∈ outputPaths op) : path ≠ op'.destinationFilePath ∧ ∀ extension,
      conversionExtension op'.copyOperationType = some extension →
        path ≠ op'.destinationFilePath ++ extension := by
  have hdestination : op.destinationFilePath ≠ op'.destinationFilePath := fun heq =>
    hne (hdistinct.destination_injective op hop op' hop' heq)
  rw [outputPaths, List.mem_cons] at hpath
  rcases hpath with rfl | hpath
  · exact ⟨hdestination, fun extension hextension heq =>
      hapart op' hop' op hop extension hextension heq.symm⟩
  · obtain ⟨extension, hextension, rfl⟩ := Option.map_eq_some_iff.1 (Option.mem_toList.1 hpath)
    refine ⟨hapart op hop op' hop' extension hextension, fun extension' hextension' heq => ?_⟩
    have hlength : extension.length = extension'.length :=
      (length_conversionExtension hextension).trans (length_conversionExtension hextension').symm
    exact hdestination (List.append_inj_left' heq hlength)

lemma reached_step (hdistinct : Distinct directories operations) (hapart : Apart operations)
    (h : ∀ i op, operations[i]? = some op → Reached op s.files (s.phase i))
    (event : ℕ × Outcome) : ∀ i op, operations[i]? = some op →
      Reached op (step directories operations s event).files
        ((step directories operations s event).phase i) := by
  obtain ⟨j, outcome⟩ := event
  intro i op hop
  rw [step]
  cases hop' : operations[j]? with
  | none => exact h i op hop
  | some op' =>
      by_cases hij : i = j
      · obtain rfl := hij
        obtain rfl : op' = op := Option.some.inj (hop'.symm.trans hop)
        simp only [Function.update_self]
        exact reached_advance (hdistinct.not_directory op' (List.mem_of_getElem? hop)) (h i op' hop)
      · simp only [Function.update_of_ne hij]
        have hne : op ≠ op' := fun heq => hij <| by
          obtain ⟨hi, rfl⟩ := List.getElem?_eq_some_iff.1 hop
          obtain ⟨hj, hget⟩ := List.getElem?_eq_some_iff.1 hop'
          exact (List.Nodup.getElem_inj_iff hdistinct.nodup).1 (heq.trans hget.symm)
        refine (h i op hop).congr fun path hpath => ?_
        obtain ⟨hdestination, hconverted⟩ := ne_of_mem_outputPaths hdistinct hapart
          (List.mem_of_getElem? hop) (List.mem_of_getElem? hop') hne hpath
        exact lookup_advance hdestination hconverted

/-- **Without a clash no file is lost,** in whatever order and with whatever outcomes the
operations run. -/
lemma losesNoFile_of_apart (hdistinct : Distinct directories operations)
    (hapart : Apart operations) (events : List (ℕ × Outcome))
    (hdone : ∀ i < operations.length,
      (Machine.run (step directories operations) {} events).phase i = .done) :
    LosesNoFile operations (Machine.run (step directories operations) {} events).files := by
  have hthroughout : Machine.HoldsThroughout (step directories operations)
      (fun s => ∀ i op, operations[i]? = some op → Reached op s.files (s.phase i)) {} events :=
    Machine.holdsThroughout_of_step (fun _ event h => reached_step hdistinct hapart h event)
      fun _ _ _ => rfl
  have hreached := hthroughout.run
  have houtput : ∀ op ∈ operations, ∃ path ∈ outputPaths op,
      (Machine.run (step directories operations) {} events).files.lookup path =
        some op.sourceFilePath := fun op hop => by
    obtain ⟨i, hi, rfl⟩ := List.getElem_of_mem hop
    have hlast := hreached i operations[i] (List.getElem?_eq_getElem hi)
    rwa [hdone i hi] at hlast
  choose! output houtput using houtput
  refine ⟨output, houtput, fun op hop op' hop' heq => ?_⟩
  have hsource := (houtput op hop).2.symm.trans (heq ▸ (houtput op' hop').2)
  exact hdistinct.source_injective op hop op' hop' (Option.some.inj hsource)

/-! ## The schedule that loses a file -/

lemma step_of_getElem {s : State} (hop : operations[i]? = some op) :
    step directories operations s (i, outcome) =
      { phase := Function.update s.phase i
          (advance directories op outcome s.files (s.phase i)).1
        files := (advance directories op outcome s.files (s.phase i)).2 } := by
  rw [step, hop]

/-- How far an operation is from its end, if it fails. -/
def Phase.rank : Phase → ℕ
  | notStarted => 5
  | converting => 4
  | written => 4
  | deleting => 3
  | removing => 2
  | fallingBack => 1
  | done => 0

lemma Phase.eq_done_of_rank (h : phase.rank = 0) : phase = .done := by
  cases phase with
  | done => rfl
  | _ => cases h

lemma rank_advance_fails : (advance directories op .fails files phase).1.rank ≤ phase.rank - 1 := by
  cases phase with
  | notStarted =>
      rw [advance]
      split_ifs <;> simp [Phase.rank]
  | deleting =>
      rw [advance]
      split_ifs <;> simp [Phase.rank]
  | _ => exact Nat.le_refl _

lemma done_step (s : State) (event : ℕ × Outcome) (h : s.phase j = .done) :
    (step directories operations s event).phase j = .done := by
  obtain ⟨i, outcome⟩ := event
  rw [step]
  cases operations[i]? with
  | none => exact h
  | some op =>
      by_cases hij : j = i
      · rw [← hij]
        simp [h, advance]
      · simpa [Function.update_of_ne hij] using h

lemma done_run (s : State) (events : List (ℕ × Outcome)) (h : s.phase j = .done) :
    (Machine.run (step directories operations) s events).phase j = .done :=
  (Machine.holdsThroughout_of_step (fun s event h => done_step s event h) h).run

/-- An operation that fails over and over ends. -/
lemma done_replicate (hop : operations[i]? = some op) (n : ℕ) (s : State)
    (hn : (s.phase i).rank ≤ n) :
    (Machine.run (step directories operations) s (List.replicate n (i, .fails))).phase i =
      .done := by
  induction n generalizing s with
  | zero => exact Phase.eq_done_of_rank (Nat.le_zero.1 hn)
  | succ n ih =>
      rw [List.replicate_succ, Machine.run_cons]
      refine ih _ ?_
      rw [step_of_getElem hop]
      simp only [Function.update_self]
      have hrank : (advance directories op .fails s.files (s.phase i)).1.rank ≤ _ :=
        rank_advance_fails
      omega

/-- Events that bring the first operations to their end. -/
def finish (n : ℕ) : List (ℕ × Outcome) :=
  (List.range n).flatMap fun i => List.replicate 5 (i, .fails)

lemma done_finish (s : State) : ∀ i < operations.length,
    (Machine.run (step directories operations) s (finish operations.length)).phase i = .done := by
  suffices h : ∀ n ≤ operations.length, ∀ i < n,
      (Machine.run (step directories operations) s (finish n)).phase i = .done from
    h _ (Nat.le_refl _)
  intro n hn
  induction n with
  | zero => exact fun i hi => absurd hi (Nat.not_lt_zero i)
  | succ n ih =>
      intro i hi
      rw [finish, List.range_succ, List.flatMap_append, List.flatMap_singleton, Machine.run_append]
      rcases Nat.lt_succ_iff_lt_or_eq.1 hi with hlt | rfl
      · exact done_run _ _ (ih (by omega) i hlt)
      · refine done_replicate (List.getElem?_eq_getElem hn) 5 _ ?_
        generalize State.phase _ _ = phase
        cases phase <;> decide

/-- An operation that has ended without an output. -/
def Lost (op : CopyOperation) (j : ℕ) (s : State) : Prop :=
  s.phase j = .done ∧ ∀ path, s.files.lookup path ≠ some op.sourceFilePath

/-- A step brings in nothing but the file of its own operation. -/
lemma lookup_advance_eq_some {source : Text}
    (h : (advance directories op outcome files phase).2.lookup path = some source) :
    source = op.sourceFilePath ∨ files.lookup path = some source := by
  have hinsert : ∀ path', (files.insert path' op.sourceFilePath).lookup path = some source →
      source = op.sourceFilePath ∨ files.lookup path = some source := fun path' h => by
    by_cases hpath : path = path'
    · rw [hpath, AList.lookup_insert] at h
      exact .inl (Option.some.inj h).symm
    · rw [AList.lookup_insert_ne hpath] at h
      exact .inr h
  cases phase with
  | converting =>
      cases outcome with
      | succeeds =>
          rw [advance] at h
          split_ifs at h
          · exact .inr h
          · exact hinsert _ h
      | fails => exact .inr h
      | failsBeforeConversion =>
          rw [advance] at h
          split_ifs at h <;> exact .inr h
  | written => cases outcome <;> exact .inr h
  | removing =>
      by_cases hpath : path = convertedFilePath op
      · rw [advance, hpath, AList.lookup_erase] at h
        cases h
      · exact .inr ((AList.lookup_erase_ne hpath).symm.trans h)
  | fallingBack =>
      rw [advance] at h
      split_ifs at h
      · exact .inr h
      · exact hinsert _ h
  | _ => exact .inr h

lemma lost_step (hdistinct : Distinct directories operations) (hop : operations[j]? = some op)
    (s : State) (event : ℕ × Outcome) (h : Lost op j s) :
    Lost op j (step directories operations s event) := by
  refine ⟨done_step s event h.1, fun path hlookup => ?_⟩
  obtain ⟨i, outcome⟩ := event
  cases hop' : operations[i]? with
  | none =>
      rw [step, hop'] at hlookup
      exact h.2 path hlookup
  | some op' =>
      rw [step_of_getElem hop'] at hlookup
      rcases lookup_advance_eq_some hlookup with hsource | hold
      · obtain rfl := hdistinct.source_injective op (List.mem_of_getElem? hop) op'
          (List.mem_of_getElem? hop') hsource
        have hij : i = j := by
          obtain ⟨hi, heq⟩ := List.getElem?_eq_some_iff.1 hop'
          obtain ⟨hj, heq'⟩ := List.getElem?_eq_some_iff.1 hop
          exact (List.Nodup.getElem_inj_iff hdistinct.nodup).1 (heq.trans heq'.symm)
        rw [hij, h.1] at hlookup
        exact h.2 path hlookup
      · exact h.2 path hold

/-- Phases that only a conversion goes through. -/
def Phase.Converts : Phase → Prop
  | converting | deleting | removing => True
  | _ => False

/-- The operation is about to lose its file: its destination is taken. -/
structure Doomed (op : CopyOperation) (files : Files) (phase : Phase) : Prop where
  taken : files.lookup op.destinationFilePath ≠ none
  none_made : ∀ path, files.lookup path ≠ some op.sourceFilePath
  not_written : phase ≠ .written
  converts : phase.Converts → op.copyOperationType ≠ .copyFallback

lemma doomed_advance (h : Doomed op files phase) :
    Doomed op (advance directories op .fails files phase).2
      (advance directories op .fails files phase).1 := by
  obtain ⟨htaken, hnone, hwritten, hconverts⟩ := h
  cases phase with
  | notStarted =>
      rw [advance]
      split_ifs with htype
      · exact ⟨htaken, hnone, nofun, nofun⟩
      · exact ⟨htaken, hnone, nofun, fun _ => htype⟩
  | converting => exact ⟨htaken, hnone, nofun, fun _ => hconverts trivial⟩
  | written => exact absurd rfl hwritten
  | deleting =>
      rw [advance]
      split_ifs
      · exact ⟨htaken, hnone, nofun, fun _ => hconverts trivial⟩
      · exact ⟨htaken, hnone, nofun, nofun⟩
  | removing =>
      have hne := destination_ne_converted (hconverts trivial)
      refine ⟨?_, fun path => ?_, nofun, nofun⟩
      · change AList.lookup _ (AList.erase _ _) ≠ none
        rwa [AList.lookup_erase_ne hne]
      · change AList.lookup _ (AList.erase _ _) ≠ _
        by_cases hpath : path = convertedFilePath op
        · rw [hpath, AList.lookup_erase]
          exact (Option.some_ne_none _).symm
        · rw [AList.lookup_erase_ne hpath]
          exact hnone path
  | fallingBack =>
      have hexists : fileExists directories files op.destinationFilePath = true := by
        have hmem : op.destinationFilePath ∈ files := by
          rwa [← AList.lookup_isSome, Option.isSome_iff_ne_none]
        simp [fileExists, hmem]
      rw [advance, if_pos hexists]
      exact ⟨htaken, hnone, nofun, nofun⟩
  | done => exact ⟨htaken, hnone, nofun, nofun⟩

lemma doomed_run (hop : operations[j]? = some op) (n : ℕ) (s : State)
    (h : Doomed op s.files (s.phase j)) :
    Doomed op (Machine.run (step directories operations) s (List.replicate n (j, .fails))).files
      ((Machine.run (step directories operations) s (List.replicate n (j, .fails))).phase j) := by
  induction n generalizing s with
  | zero => exact h
  | succ n ih =>
      rw [List.replicate_succ, Machine.run_cons]
      refine ih _ ?_
      rw [step_of_getElem hop]
      simp only [Function.update_self]
      exact doomed_advance h

/-- A conversion that succeeds at once. -/
lemma run_succeeds (hop : operations[i]? = some op) (htype : op.copyOperationType ≠ .copyFallback)
    (hdirectory : convertedFilePath op ∉ directories) :
    (Machine.run (step directories operations) {} (List.replicate 3 (i, .succeeds))).files =
        (∅ : Files).insert (convertedFilePath op) op.sourceFilePath ∧
      ∀ j ≠ i, (Machine.run (step directories operations) {}
        (List.replicate 3 (i, .succeeds))).phase j = .notStarted := by
  have hstart : step directories operations {} (i, .succeeds) =
      { phase := Function.update (fun _ => .notStarted) i .converting, files := ∅ } := by
    rw [step_of_getElem hop, advance, if_neg htype]
  have hwrite : step directories operations (step directories operations {} (i, .succeeds))
      (i, .succeeds) =
      { phase := Function.update (fun _ => .notStarted) i .written
        files := (∅ : Files).insert (convertedFilePath op) op.sourceFilePath } := by
    rw [hstart, step_of_getElem hop]
    simp [advance, hdirectory]
  rw [List.replicate_succ, List.replicate_succ, Machine.run_cons, Machine.run_cons, hwrite,
    List.replicate_one, Machine.run_cons, Machine.run_nil, step_of_getElem hop]
  simp only [Function.update_self]
  exact ⟨rfl, fun j hj => by simp [Function.update_of_ne hj]⟩

/-- The conversion of one file comes first, then the other file fails, and then all the rest. -/
def clashingEvents (i j n : ℕ) : List (ℕ × Outcome) :=
  List.replicate 3 (i, .succeeds) ++ (List.replicate 5 (j, .fails) ++ finish n)

lemma lost_clashingEvents (hdistinct : Distinct directories operations)
    (hop : operations[i]? = some op) (hop' : operations[j]? = some op')
    (htype : op.copyOperationType ≠ .copyFallback)
    (hclash : convertedFilePath op = op'.destinationFilePath) :
    Lost op' j (Machine.run (step directories operations) {}
      (clashingEvents i j operations.length)) := by
  have hmem := List.mem_of_getElem? hop
  have hmem' := List.mem_of_getElem? hop'
  have hne : op ≠ op' := fun heq => by
    rw [heq] at hclash htype
    exact destination_ne_converted htype hclash.symm
  have hij : j ≠ i := fun h => by
    rw [h] at hop'
    exact hne (Option.some.inj (hop.symm.trans hop'))
  have hdirectory : convertedFilePath op ∉ directories :=
    hclash ▸ hdistinct.not_directory op' hmem'
  obtain ⟨hfiles, hphase⟩ := run_succeeds hop htype hdirectory
  have hdoomed : Doomed op' (Machine.run (step directories operations) {}
      (List.replicate 3 (i, .succeeds))).files ((Machine.run (step directories operations) {}
        (List.replicate 3 (i, .succeeds))).phase j) := by
    rw [hfiles, hphase j hij]
    refine ⟨?_, fun path hlookup => ?_, nofun, nofun⟩
    · rw [← hclash, AList.lookup_insert]
      exact Option.some_ne_none _
    · by_cases hpath : path = convertedFilePath op
      · rw [hpath, AList.lookup_insert] at hlookup
        exact hne (hdistinct.source_injective op hmem op' hmem' (Option.some.inj hlookup))
      · rw [AList.lookup_insert_ne hpath] at hlookup
        cases hlookup
  rw [clashingEvents, Machine.run_append, Machine.run_append]
  refine (Machine.holdsThroughout_of_step (fun s event h => lost_step hdistinct hop' s event h)
    ⟨?_, (doomed_run hop' 5 _ hdoomed).none_made⟩).run
  refine done_replicate hop' 5 _ ?_
  rw [hphase j hij]
  exact Nat.le_refl 5

/-- **The lossy copy loses no file if and only if no two names clash.**  In every run in which all
operations end, each source file has its own destination file, for precisely those source trees in
which no file has the name of another one with the extension of its conversion.

The condition is about the source tree alone, and so can be checked before anything is copied.  For
a tree that violates it not every run loses a file, but one does, and it is constructed: the
statement quantifies over all of them. -/
theorem losesNoFile_iff_noClash (r : Request) :
    (∀ events, r.AllDone (r.run events) → LosesNoFile r.copyOperations (r.run events).files) ↔
      r.NoClash := by
  have hdistinct := distinct_copyOperations r
  constructor
  · intro hall
    rw [← apart_copyOperations]
    intro op hop op' hop' extension hextension heq
    obtain ⟨i, hi, rfl⟩ := List.getElem_of_mem hop
    obtain ⟨j, hj, rfl⟩ := List.getElem_of_mem hop'
    have htype : r.copyOperations[i].copyOperationType ≠ .copyFallback := fun htype => by
      rw [htype] at hextension
      cases hextension
    have hclash : convertedFilePath r.copyOperations[i] =
        r.copyOperations[j].destinationFilePath := by
      rw [convertedFilePath, hextension]
      exact heq
    have hlost := lost_clashingEvents hdistinct (List.getElem?_eq_getElem hi)
      (List.getElem?_eq_getElem hj) htype hclash
    obtain ⟨output, houtput, -⟩ := hall (clashingEvents i j r.copyOperations.length) (by
      intro k hk
      rw [Request.run, clashingEvents, Machine.run_append, Machine.run_append]
      exact done_finish _ k hk)
    exact hlost.2 _ (houtput _ hop').2
  · intro hclash events hdone
    exact losesNoFile_of_apart hdistinct ((apart_copyOperations r).2 hclash) events hdone

/-! ### A song and a file with the name of its conversion -/

def clashingRequest : Request where
  toLower := fun text => text.map Char.toLower
  sourceDir := "/src".toList
  destinationDir := "/dst".toList
  entries := [.file "song.wav".toList (), .file "song.wav.opus".toList ()]
  wellFormed := by
    simp only [WellFormed, Entry.WellFormed, Entry.name]
    decide

/-- The song is converted first, and the other file cannot be copied then. -/
theorem not_losesNoFile_clashingRequest : ¬∀ (r : Request) (events : List (ℕ × Outcome)),
    r.AllDone (r.run events) → LosesNoFile r.copyOperations (r.run events).files := fun h => by
  have hdone : clashingRequest.AllDone (clashingRequest.run
      [(0, .succeeds), (0, .succeeds), (0, .succeeds), (1, .succeeds), (1, .succeeds)]) := by
    unfold Request.AllDone
    decide
  obtain ⟨output, houtput, -⟩ := h clashingRequest _ hdone
  have hop : (⟨"/src/song.wav.opus".toList, "/dst/song.wav.opus".toList, .copyFallback⟩ :
      CopyOperation) ∈ clashingRequest.copyOperations := by decide
  obtain ⟨hpath, hlookup⟩ := houtput _ hop
  rw [outputPaths, conversionExtension, Option.map_none, Option.toList_none,
    List.mem_singleton] at hpath
  rw [hpath] at hlookup
  exact absurd hlookup (by decide)

end Autobackup.LossyCopier
