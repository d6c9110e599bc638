import Mathlib
import Autobackup.SegmentsImporter.FolderWatcher

/-!
# Every segment is filed and propagated under its own name

A segment whose name is taken in the folder of its day gets the next one that is free, and the
neighbor is still told the name that the segment came with.  The two names are one if no name is
ever taken, and if the segment is called as the importer calls it.

`Tidy` says what the folders look like between two imports: the scratch space holds no file, and no
folder but those of years whose folder is in place.

A change of a folder is handled in one go, over the files that are in it at that time.  Left out are
failures to make folders or to move files, hidden files, and the conversion to local time, which
only decides in which folder a day is.
-/

namespace Autobackup.SegmentsImporter

open QString

/-- Where a segment belongs that is called so in the end. -/
def filedUnder (finalName : Text) : Option Path :=
  (toLongLong (filenameMinusExt finalName)).map fun timestamp =>
    let day := julianDay (timestamp * 1000)
    dayFolder .folderToMoveTo (year day) (dayOfYear day) ++ [.name finalName]

namespace VideoSegmentsImporterFolderWatcher

/-- **Every segment is filed and propagated under its own name.** -/
structure FiledAndPropagated (st : VideoSegmentsImporterFolderWatcher) : Prop where
  /-- Each segment is in one file. -/
  segments : st.fileSystem.files.map (fun file => file.2.number) = List.range st.segments
  nodup : (st.fileSystem.files.map Prod.fst).Nodup
  /-- It is in the folder of the timestamp in its name, not in the scratch space. -/
  filed : ∀ file ∈ st.fileSystem.files, ∃ finalName, filedUnder finalName = some file.1
  /-- No other segment has its name. -/
  named : ∀ file ∈ st.fileSystem.files, ∀ other ∈ st.fileSystem.files,
    file.1.getLast? = other.1.getLast? → file = other
  /-- It was enqueued, -/
  propagated : ∀ file ∈ st.fileSystem.files, file.1 ∈ st.enqueuedForUpload.map Prod.snd
  /-- and the remote name is its final name. -/
  remote : ∀ enqueued ∈ st.enqueuedForUpload,
    enqueued.2 ∈ st.fileSystem.files.map Prod.fst ∧ enqueued.2.getLast? = some (.name enqueued.1)
  distinct : (st.enqueuedForUpload.map Prod.fst).Nodup

/-- The condition for one file: its milliseconds fit, it is called `<timestamp>.ogg`, and nothing
else in the folder of its day is. -/
def KeepsName (st : VideoSegmentsImporterFolderWatcher) (entry : Text) : Prop :=
  match toLongLong (filenameMinusExt entry) with
  | none => True
  | some timestamp =>
      let day := julianDay (timestamp * 1000)
      let folder := dayFolder .folderToMoveTo (year day) (dayOfYear day)
      IsLongLong (timestamp * 1000) ∧
        if folder ∈ st.fileSystem.paths then
          filenameMinusExt entry = number timestamp ∧
            folder ++ [.name (number timestamp ++ ogg)] ∉ st.fileSystem.paths
        else entry = filenameMinusExt entry ++ ogg

instance (st : VideoSegmentsImporterFolderWatcher) (entry : Text) :
    Decidable (st.KeepsName entry) := by
  unfold KeepsName
  split <;> infer_instance

/-- The condition for a change: each of the files keeps its name. -/
def KeepNames (st : VideoSegmentsImporterFolderWatcher) (x : DirectoryChanged) : Prop :=
  let st := Machine.run (put x.folder) st x.added
  Machine.StaysWithin (importEntry x.folder) KeepsName st (entryList st.fileSystem x.folder)

instance (st : VideoSegmentsImporterFolderWatcher) (x : DirectoryChanged) :
    Decidable (st.KeepNames x) :=
  Machine.decidableStaysWithin _ _ _ _

end VideoSegmentsImporterFolderWatcher

/-- The names are timestamps, each of them at most once in the folder. -/
structure DirectoryChanged.Timestamps (watched : ℕ) (x : DirectoryChanged) : Prop where
  folder : x.folder < watched
  nodup : (x.added.map Prod.fst).Nodup
  timestamp : ∀ file ∈ x.added, (toLongLong (filenameMinusExt file.1)).isSome

/-! ## A name that is free -/

section Names

lemma ensureMoveWontOverwrite_eq (tree : FileTree Component Segment) (folder : Path) (fuel : ℕ)
    (desired : ℤ) : ∃ k ≤ fuel,
    ensureMoveWontOverwriteByAddingSeconds tree folder fuel desired =
        folder ++ [.name (number (desired + k) ++ ogg)] ∧
      (∀ j < k, folder ++ [.name (number (desired + (j : ℕ)) ++ ogg)] ∈ tree.paths) ∧
      (folder ++ [.name (number (desired + k) ++ ogg)] ∈ tree.paths → k = fuel) := by
  induction fuel generalizing desired with
  | zero =>
      exact ⟨0, Nat.le_refl 0, by simp [ensureMoveWontOverwriteByAddingSeconds], by simp, by simp⟩
  | succ fuel ih =>
      rw [ensureMoveWontOverwriteByAddingSeconds]
      split
      · next htaken =>
          obtain ⟨k, hk, heq, hall, hlast⟩ := ih (desired + 1)
          have hshift (j : ℕ) : desired + 1 + j = desired + (j + 1 : ℕ) := by omega
          rw [hshift] at heq hlast
          refine ⟨k + 1, by omega, heq, fun j hj => ?_, fun hmem => by rw [hlast hmem]⟩
          cases j with
          | zero => simpa using htaken
          | succ j =>
              rw [← hshift]
              exact hall j (by omega)
      · next hfree =>
          exact ⟨0, Nat.zero_le _, by simp, by simp, fun hmem => absurd (by simpa using hmem) hfree⟩

lemma name_injective {folder : Path} {n m : ℤ} (h : folder ++ [.name (number n ++ ogg)] =
    folder ++ [.name (number m ++ ogg)]) : n = m := by
  have hname := List.append_cancel_left h
  simp only [List.cons.injEq, Component.name.injEq, and_true] at hname
  exact number_injective (List.append_cancel_right hname)

/-- **The loop ends at a name that is free**, since not all of the names can be taken. -/
theorem ensureMoveWontOverwrite_free (tree : FileTree Component Segment) (folder : Path)
    (desired : ℤ) : ∃ k : ℕ,
    ensureMoveWontOverwriteByAddingSeconds tree folder tree.length desired =
        folder ++ [.name (number (desired + k) ++ ogg)] ∧
      folder ++ [.name (number (desired + k) ++ ogg)] ∉ tree.paths ∧
      (k = 0 ↔ folder ++ [.name (number desired ++ ogg)] ∉ tree.paths) := by
  obtain ⟨k, hk, heq, hall, hlast⟩ := ensureMoveWontOverwrite_eq tree folder tree.length desired
  have hfree : folder ++ [.name (number (desired + k) ++ ogg)] ∉ tree.paths := by
    intro hmem
    have hk' := hlast hmem
    let place (j : ℕ) : Path := folder ++ [.name (number (desired + j) ++ ogg)]
    have hinj : Function.Injective place := fun i j hij => by
      have := name_injective hij
      omega
    have hsub : (List.range (tree.length + 1)).map place ⊆ tree.paths := by
      intro p hp
      obtain ⟨j, hj, rfl⟩ := List.mem_map.1 hp
      rcases Nat.lt_or_ge j k with hlt | hge
      · exact hall j hlt
      · have hjk : j = k := by
          have := List.mem_range.1 hj
          omega
        exact hjk ▸ hmem
    have hlength := (List.Nodup.subperm (List.nodup_range.map hinj) hsub).length_le
    rw [List.length_map, List.length_range, FileTree.paths, List.length_map] at hlength
    omega
  refine ⟨k, heq, hfree, fun hzero => by simpa [hzero] using hfree, fun hdesired => ?_⟩
  by_contra hne
  exact hdesired (by simpa using hall 0 (by omega))

end Names

/-! ## The folders -/

open FileTree

/-- The configured folders are there, and the watched ones hold nothing but files. -/
structure InPlace (watched : ℕ) (tree : FileTree Component Segment) : Prop where
  wellFormed : tree.WellFormed
  destination : [.folderToMoveTo] ∈ tree.paths
  watchedFolder : ∀ folder < watched, [.watched folder] ∈ tree.paths
  watchedFile : ∀ folder entry below, .watched folder :: entry :: below ∈ tree.paths →
    .watched folder :: entry :: below ∈ tree.files.map Prod.fst

/-- In the scratch space are years only, whose folders are in place. -/
structure Tidy (watched : ℕ) (tree : FileTree Component Segment) : Prop extends
    InPlace watched tree where
  scratch : ∀ year below, .scratchSpace :: year :: below ∈ tree.paths →
    below = [] ∧ [.folderToMoveTo, year] ∈ tree.paths

/-- The same, but for what is at `hidden` and below. -/
structure TidyBut (watched : ℕ) (hidden : Path) (tree : FileTree Component Segment) : Prop extends
    InPlace watched tree where
  scratch : ∀ year below, .scratchSpace :: year :: below ∈ tree.paths →
    below = [] ∧ [.folderToMoveTo, year] ∈ tree.paths ∨ hidden <+: .scratchSpace :: year :: below

section Folders

variable {watched : ℕ} {tree tree' : FileTree Component Segment} {source hidden : Path}

lemma Tidy.but (h : Tidy watched tree) (hidden : Path) : TidyBut watched hidden tree :=
  ⟨h.toInPlace, fun year below hmem => .inl (h.scratch year below hmem)⟩

lemma InPlace.mkpath (h : InPlace watched tree) {p : Path} (hp : p.head? = some .scratchSpace) :
    InPlace watched (tree.mkpath p) := by
  refine ⟨h.wellFormed.mkpath, mem_paths_mkpath.2 (.inl h.destination),
    fun folder hfolder => mem_paths_mkpath.2 (.inl (h.watchedFolder folder hfolder)),
    fun folder entry below hmem => ?_⟩
  rw [files_mkpath]
  rcases mem_paths_mkpath.1 hmem with hold | ⟨-, hprefix⟩
  · exact h.watchedFile folder entry below hold
  · obtain ⟨rest, rfl⟩ := hprefix
    simp at hp

/-- Something is moved, but not into a watched folder, and not what is at the destination. -/
lemma InPlace.rename (h : InPlace watched tree) {root name : Component} {parent : Path}
    (hrename : tree.rename source (root :: (parent ++ [name])) = some tree')
    (hparent : root :: parent ∈ tree.paths) (hroot : ∀ folder, root ≠ .watched folder)
    (hsource : ¬ source <+: root :: (parent ++ [name])) (hlength : 2 ≤ source.length) :
    InPlace watched tree' := by
  have hkept (c : Component) (hc : [c] ∈ tree.paths) : [c] ∈ tree'.paths := by
    refine mem_paths_rename_outside hrename hc fun hprefix => ?_
    exact absurd (Nat.le_trans hlength hprefix.length_le) (by simp)
  refine ⟨h.wellFormed.rename (root :: parent) hrename (fun _ => hparent) hsource,
    hkept _ h.destination, fun folder hfolder => hkept _ (h.watchedFolder folder hfolder),
    fun folder entry below hmem => ?_⟩
  obtain ⟨q, hq, heq⟩ := (mem_paths_rename hrename).1 hmem
  by_cases hprefix : source <+: q
  · obtain ⟨rest, rfl⟩ := hprefix
    rw [moved_inside] at heq
    exact absurd (List.cons_eq_cons.1 heq).1 (hroot folder)
  · rw [moved_outside hprefix] at heq
    subst heq
    obtain ⟨file, hfile, hpath⟩ := List.mem_map.1 (h.watchedFile folder entry below hq)
    rw [files_rename hrename, List.map_map]
    refine List.mem_map.2 ⟨file, hfile, ?_⟩
    rw [← hpath] at hprefix ⊢
    exact moved_outside hprefix

/-- Something is moved to where it is not in order. -/
lemma TidyBut.rename (h : TidyBut watched hidden tree) (parent : Path) {name : Component}
    (hrename : tree.rename source (.scratchSpace :: (parent ++ [name])) = some tree')
    (hparent : .scratchSpace :: parent ∈ tree.paths) (hlength : 2 ≤ source.length)
    (hsource : ¬ source <+: .scratchSpace :: (parent ++ [name]))
    (hkeeps : ∀ below, ¬ source <+: .folderToMoveTo :: below)
    (hto : hidden <+: .scratchSpace :: (parent ++ [name])) : TidyBut watched hidden tree' := by
  refine ⟨h.toInPlace.rename hrename hparent (by simp) hsource hlength,
    fun year below hmem => ?_⟩
  obtain ⟨q, hq, heq⟩ := (mem_paths_rename hrename).1 hmem
  by_cases hprefix : source <+: q
  · obtain ⟨rest, rfl⟩ := hprefix
    rw [moved_inside] at heq
    exact .inr (heq ▸ hto.trans (List.prefix_append _ rest))
  · rw [moved_outside hprefix] at heq
    subst heq
    exact (h.scratch year below hq).imp_left fun hyear =>
      ⟨hyear.1, mem_paths_rename_outside hrename hyear.2 (hkeeps _)⟩

/-- What was not in order is moved to the destination. -/
lemma TidyBut.takenOut (h : TidyBut watched source tree) {parent : Path} {name : Component}
    (hrename : tree.rename source (.folderToMoveTo :: (parent ++ [name])) = some tree')
    (hparent : .folderToMoveTo :: parent ∈ tree.paths) (hlength : 2 ≤ source.length)
    (hsource : ∀ below, ¬ source <+: .folderToMoveTo :: below) : Tidy watched tree' := by
  refine ⟨h.toInPlace.rename hrename hparent (by simp) (hsource _) hlength,
    fun year below hmem => ?_⟩
  obtain ⟨q, hq, heq⟩ := (mem_paths_rename hrename).1 hmem
  by_cases hprefix : source <+: q
  · obtain ⟨rest, rfl⟩ := hprefix
    rw [moved_inside] at heq
    simp at heq
  · rw [moved_outside hprefix] at heq
    subst heq
    obtain ⟨hbelow, hyear⟩ := (h.scratch year below hq).resolve_right hprefix
    exact ⟨hbelow, mem_paths_rename_outside hrename hyear (hsource _)⟩

/-- **A file through the scratch space**: into the folder of its day there, which is moved to its
place, by itself or with the folder of the year. -/
lemma Tidy.throughScratchSpace (h : Tidy watched tree) {folder : ℕ} {entry y d last : Component}
    (above : Path) (hsource : [.watched folder, entry] ∈ tree.paths)
    (hcases : above = [] ∧ last = y ∨
      above = [y] ∧ last = d ∧ [.folderToMoveTo, y] ∈ tree.paths)
    (hnew : .folderToMoveTo :: (above ++ [last]) ∉ tree.paths) :
    ∃ between final,
      (tree.mkpath [.scratchSpace, y, d]).rename [.watched folder, entry]
        [.scratchSpace, y, d, entry] = some between ∧
      between.rename (.scratchSpace :: (above ++ [last]))
        (.folderToMoveTo :: (above ++ [last])) = some final ∧
      Tidy watched final ∧
      final.files = tree.files.map fun file =>
        (moved [.watched folder, entry] [.folderToMoveTo, y, d, entry] file.1, file.2) := by
  have hwatched (rest : Path) : ¬ [.watched folder, entry] <+: .folderToMoveTo :: rest := by simp
  have hmade : [.scratchSpace, y, d] ∈ (tree.mkpath [.scratchSpace, y, d]).paths :=
    mem_paths_mkpath.2 (.inr ⟨by simp, List.prefix_rfl⟩)
  have hbut : TidyBut watched (.scratchSpace :: (above ++ [last]))
      (tree.mkpath [.scratchSpace, y, d]) := by
    refine ⟨h.toInPlace.mkpath rfl, fun year rest hmem => ?_⟩
    rcases mem_paths_mkpath.1 hmem with hold | ⟨-, hprefix⟩
    · obtain ⟨hrest, hyear⟩ := h.scratch year rest hold
      exact .inl ⟨hrest, mem_paths_mkpath.2 (.inl hyear)⟩
    · have hparts : year = y ∧ rest <+: [d] := by simpa [List.cons_prefix_cons] using hprefix
      obtain ⟨rfl, hrest⟩ := hparts
      rcases hcases with ⟨rfl, rfl⟩ | ⟨rfl, rfl, hyear⟩
      · exact .inr (List.prefix_append _ rest)
      · rcases List.prefix_cons_iff.1 hrest with rfl | ⟨t, rfl, ht⟩
        · exact .inl ⟨rfl, mem_paths_mkpath.2 (.inl hyear)⟩
        · exact .inr (by simp)
  have hfree : [.scratchSpace, y, d, entry] ∉ (tree.mkpath [.scratchSpace, y, d]).paths := by
    intro hmem
    rcases mem_paths_mkpath.1 hmem with hold | ⟨-, hprefix⟩
    · exact absurd (h.scratch y [d, entry] hold).1 (by simp)
    · exact absurd hprefix.length_le (by simp)
  obtain ⟨between, hfirst⟩ : ∃ between, (tree.mkpath [.scratchSpace, y, d]).rename
      [.watched folder, entry] [.scratchSpace, y, d, entry] = some between :=
    ⟨_, rename_eq_some.2 ⟨⟨mem_paths_mkpath.2 (.inl hsource), hfree⟩, rfl⟩⟩
  have hbelow : .scratchSpace :: (above ++ [last]) <+: [.scratchSpace, y, d] := by
    rcases hcases with ⟨rfl, rfl⟩ | ⟨rfl, rfl, -⟩ <;> simp
  have hbetween := hbut.rename [y, d] hfirst hmade (by simp) (by simp) hwatched
    (hbelow.trans (List.prefix_append _ [entry]))
  have hkept {p : Path} (hp : p ∈ (tree.mkpath [.scratchSpace, y, d]).paths)
      (hroot : ¬ [.watched folder, entry] <+: p) := mem_paths_rename_outside hfirst hp hroot
  have hparent : .folderToMoveTo :: above ∈ tree.paths := by
    rcases hcases with ⟨rfl, -⟩ | ⟨rfl, -, hyear⟩
    · exact h.destination
    · exact hyear
  -- nothing has come to the destination yet
  have hstill : .folderToMoveTo :: (above ++ [last]) ∉ between.paths := by
    intro hmem
    obtain ⟨q, hq, heq⟩ := (mem_paths_rename hfirst).1 hmem
    by_cases hprefix : [.watched folder, entry] <+: q
    · obtain ⟨below, rfl⟩ := hprefix
      rw [moved_inside] at heq
      simp at heq
    · rw [moved_outside hprefix] at heq
      subst heq
      rcases mem_paths_mkpath.1 hq with hold | ⟨-, hscratch⟩
      · exact hnew hold
      · simp [List.cons_prefix_cons] at hscratch
  have hthere := hkept (hbut.wellFormed.closed _ _ (by simp) hbelow hmade) (by simp)
  obtain ⟨final, hsecond⟩ : ∃ final, between.rename (.scratchSpace :: (above ++ [last]))
      (.folderToMoveTo :: (above ++ [last])) = some final :=
    ⟨_, rename_eq_some.2 ⟨⟨hthere, hstill⟩, rfl⟩⟩
  have hmoved (p : Path) (hp : p ∈ tree.paths) :
      moved (.scratchSpace :: (above ++ [last])) (.folderToMoveTo :: (above ++ [last]))
          (moved [.watched folder, entry] [.scratchSpace, y, d, entry] p) =
        moved [.watched folder, entry] [.folderToMoveTo, y, d, entry] p := by
    by_cases hprefix : [.watched folder, entry] <+: p
    · obtain ⟨below, rfl⟩ := hprefix
      rw [moved_inside, moved_inside]
      rcases hcases with ⟨rfl, rfl⟩ | ⟨rfl, rfl, -⟩
      · exact moved_inside (d :: entry :: below)
      · exact moved_inside (entry :: below)
    · rw [moved_outside hprefix, moved_outside hprefix]
      refine moved_outside ?_
      rintro ⟨rest, rfl⟩
      rcases hcases with ⟨rfl, rfl⟩ | ⟨rfl, rfl, -⟩
      · exact hnew (h.scratch last rest hp).2
      · exact absurd (h.scratch y (last :: rest) hp).1 (by simp)
  refine ⟨between, final, hfirst, hsecond, hbetween.takenOut hsecond
    (hkept (mem_paths_mkpath.2 (.inl hparent)) (hwatched _)) (by simp) (by simp), ?_⟩
  rw [files_rename hsecond, files_rename hfirst, files_mkpath, List.map_map]
  exact List.map_congr_left fun file hfile =>
    Prod.ext (hmoved file.1 (mem_paths_of_mem_files hfile)) rfl

end Folders

/-! ## One file -/

/-- The folder of a day is the right one iff the milliseconds fit. -/
lemma dayFolder_bmod (root : Component) (n : ℤ) :
    dayFolder root (year (julianDay n)) (dayOfYear (julianDay n)) =
        dayFolder root (year (julianDay (n.bmod (2 ^ 64))))
          (dayOfYear (julianDay (n.bmod (2 ^ 64)))) ↔ IsLongLong n := by
  constructor
  · intro h
    simp only [dayFolder, List.cons.injEq, Component.name.injEq, true_and] at h
    exact year_bmod.1 (number_injective h.1).symm
  · intro h
    unfold IsLongLong at h
    rw [Int.bmod_eq_of_le (by omega) (by omega)]

lemma filedUnder_ogg {text : Text} {timestamp : ℤ} (h : toLongLong text = some timestamp) :
    filedUnder (text ++ ogg) = some (dayFolder .folderToMoveTo
      (year (julianDay (timestamp * 1000))) (dayOfYear (julianDay (timestamp * 1000))) ++
        [.name (text ++ ogg)]) := by
  rw [filedUnder, filenameMinusExt_ogg, h]
  rfl

lemma append_name_inj {folder folder' : Path} {text text' : Text} :
    folder ++ [.name text] = folder' ++ [.name text'] ↔ folder = folder' ∧ text = text' := by
  constructor
  · intro h
    obtain ⟨hfolder, hname⟩ := List.append_inj' h rfl
    simp only [List.cons.injEq, Component.name.injEq, and_true] at hname
    exact ⟨hfolder, hname⟩
  · rintro ⟨rfl, rfl⟩
    rfl

namespace VideoSegmentsImporterFolderWatcher

/-- A file has been moved from `source` to `destination`, and enqueued. -/
structure Imported (watched : ℕ) (st st' : VideoSegmentsImporterFolderWatcher)
    (source destination : Path) (remote : Text) : Prop where
  free : destination ∉ st.fileSystem.paths
  tidy : Tidy watched st'.fileSystem
  files : st'.fileSystem.files =
    st.fileSystem.files.map fun file => (moved source destination file.1, file.2)
  enqueued : st'.enqueuedForUpload = st.enqueuedForUpload ++ [(remote, destination)]
  propagate : st'.propagateToNeighbor = true
  segments : st'.segments = st.segments

variable {watched : ℕ} {st : VideoSegmentsImporterFolderWatcher}

lemma move_eq {source destination : Path}
    {next : VideoSegmentsImporterFolderWatcher → VideoSegmentsImporterFolderWatcher}
    {tree : FileTree Component Segment}
    (h : st.fileSystem.rename source destination = some tree) :
    st.move source destination next = next { st with fileSystem := tree } := by
  rw [move, h]

lemma maybePropagateToNeighbor_eq (st : VideoSegmentsImporterFolderWatcher)
    (h : st.propagateToNeighbor = true) (timestamp : Text) (path : Path) :
    st.maybePropagateToNeighbor timestamp path =
      { st with
        enqueuedForUpload := st.enqueuedForUpload ++ [(timestamp ++ ogg, path)] } := if_pos h

lemma importedThroughScratchSpace (h : Tidy watched st.fileSystem)
    (hpropagate : st.propagateToNeighbor = true)
    {folder : ℕ} {entry timestamp : Text} {y d last : Component}
    (hsource : [.watched folder, .name entry] ∈ st.fileSystem.paths) (above : Path)
    (hcases : above = [] ∧ last = y ∨
      above = [y] ∧ last = d ∧ [.folderToMoveTo, y] ∈ st.fileSystem.paths)
    (hnew : .folderToMoveTo :: (above ++ [last]) ∉ st.fileSystem.paths)
    (hfree : [.folderToMoveTo, y, d, .name entry] ∉ st.fileSystem.paths) :
    Imported watched st
      (move { st with fileSystem := st.fileSystem.mkpath [.scratchSpace, y, d] }
        [.watched folder, .name entry] [.scratchSpace, y, d, .name entry] fun st =>
          st.move (.scratchSpace :: (above ++ [last])) (.folderToMoveTo :: (above ++ [last]))
            fun st => st.maybePropagateToNeighbor timestamp [.folderToMoveTo, y, d, .name entry])
      [.watched folder, .name entry] [.folderToMoveTo, y, d, .name entry] (timestamp ++ ogg) := by
  obtain ⟨between, final, hfirst, hsecond, htidy, hfiles⟩ :=
    h.throughScratchSpace above hsource hcases hnew
  rw [move_eq hfirst, move_eq hsecond,
    maybePropagateToNeighbor_eq { st with fileSystem := final } hpropagate]
  exact ⟨hfree, htidy, hfiles, rfl, hpropagate, rfl⟩

/-- **One file is imported**, and it is under its own name iff the condition holds. -/
theorem imported (h : Tidy watched st.fileSystem) (hpropagate : st.propagateToNeighbor = true)
    {folder : ℕ} {entry : Text} (hsource : [.watched folder, .name entry] ∈ st.fileSystem.paths)
    {timestamp : ℤ} (ht : toLongLong (filenameMinusExt entry) = some timestamp) :
    ∃ destination, Imported watched st (importEntry folder st entry) [.watched folder, .name entry]
        destination (filenameMinusExt entry ++ ogg) ∧
      (filedUnder (filenameMinusExt entry ++ ogg) = some destination ↔ st.KeepsName entry) := by
  rw [filedUnder_ogg ht, importEntry, ht, KeepsName, ht]
  dsimp only
  generalize timestamp * 1000 = n
  have hday := dayFolder_bmod .folderToMoveTo n
  -- what it comes to if the day is the right one
  have hfits (hn : IsLongLong n) : n.bmod (2 ^ 64) = n := by
    unfold IsLongLong at hn
    exact Int.bmod_eq_of_le (by omega) (by omega)
  split
  · next hthere =>
      obtain ⟨k, hname, hfree, hzero⟩ := ensureMoveWontOverwrite_free st.fileSystem _ timestamp
      rw [hname]
      obtain ⟨tree, hrename⟩ : ∃ tree, st.fileSystem.rename _ _ = some tree :=
        ⟨_, rename_eq_some.2 ⟨⟨hsource, hfree⟩, rfl⟩⟩
      rw [move_eq hrename, maybePropagateToNeighbor_eq { st with fileSystem := tree } hpropagate]
      refine ⟨_, ⟨hfree, (h.but _).takenOut hrename hthere (by simp) (by simp),
        files_rename hrename, rfl, hpropagate, rfl⟩, ?_⟩
      rw [Option.some_inj, append_name_inj, hday, List.append_left_inj]
      refine and_congr_right fun hn => ?_
      rw [hfits hn] at hthere hzero
      rw [if_pos hthere, ← hzero]
      constructor
      · intro htext
        rw [htext] at ht
        have hk := toLongLong_number ht
        have hk' : k = 0 := by omega
        subst hk'
        exact ⟨by simpa using htext, rfl⟩
      · rintro ⟨htext, rfl⟩
        simpa using htext
  · next hnot =>
      -- the folder of the day is new, and nothing in it is in the way
      have hnew : dayFolder .folderToMoveTo (year (julianDay (n.bmod (2 ^ 64))))
          (dayOfYear (julianDay (n.bmod (2 ^ 64)))) ++ [.name entry] ∉ st.fileSystem.paths :=
        fun hmem => hnot (h.wellFormed.closed _ _ (by simp [dayFolder])
          (List.prefix_append _ _) hmem)
      have hfiled : some (dayFolder .folderToMoveTo (year (julianDay n))
          (dayOfYear (julianDay n)) ++ [.name (filenameMinusExt entry ++ ogg)]) =
            some (dayFolder .folderToMoveTo (year (julianDay (n.bmod (2 ^ 64))))
              (dayOfYear (julianDay (n.bmod (2 ^ 64)))) ++ [.name entry]) ↔ IsLongLong n ∧
          if dayFolder .folderToMoveTo (year (julianDay n)) (dayOfYear (julianDay n)) ∈
              st.fileSystem.paths then
            filenameMinusExt entry = number timestamp ∧
              dayFolder .folderToMoveTo (year (julianDay n)) (dayOfYear (julianDay n)) ++
                [.name (number timestamp ++ ogg)] ∉ st.fileSystem.paths
          else entry = filenameMinusExt entry ++ ogg := by
        rw [Option.some_inj, append_name_inj, hday]
        refine and_congr_right fun hn => ?_
        rw [hfits hn] at hnot
        rw [if_neg hnot, eq_comm]
      split
      · next hyear =>
          exact ⟨_, importedThroughScratchSpace h hpropagate hsource [_] (.inr ⟨rfl, rfl, hyear⟩)
            hnot hnew, hfiled⟩
      · next hyear =>
          exact ⟨_, importedThroughScratchSpace h hpropagate hsource [] (.inl ⟨rfl, rfl⟩)
            hyear hnew, hfiled⟩

/-! ## The files of a folder -/

/-- In between: the files of `rest` are still there, the others are filed. -/
structure Importing (watched folder : ℕ) (rest : List Text)
    (st : VideoSegmentsImporterFolderWatcher) : Prop where
  tidy : Tidy watched st.fileSystem
  propagate : st.propagateToNeighbor = true
  segments : st.fileSystem.files.map (fun file => file.2.number) = List.range st.segments
  nodup : rest.Nodup
  timestamp : ∀ entry ∈ rest, (toLongLong (filenameMinusExt entry)).isSome
  waiting : ∀ entry ∈ rest,
    [.watched folder, .name entry] ∈ st.fileSystem.files.map Prod.fst
  filed : ∀ file ∈ st.fileSystem.files,
    (∃ entry ∈ rest, file.1 = [.watched folder, .name entry]) ∨
      ∃ finalName, filedUnder finalName = some file.1 ∧
        (finalName, file.1) ∈ st.enqueuedForUpload
  remote : ∀ enqueued ∈ st.enqueuedForUpload, filedUnder enqueued.1 = some enqueued.2 ∧
    enqueued.2 ∈ st.fileSystem.files.map Prod.fst
  distinct : (st.enqueuedForUpload.map Prod.fst).Nodup

variable {folder : ℕ} {entry : Text} {rest : List Text}

lemma filedUnder_eq {finalName : Text} {p : Path} (h : filedUnder finalName = some p) :
    (∃ below, p = .folderToMoveTo :: below) ∧ p.getLast? = some (.name finalName) := by
  obtain ⟨timestamp, -, rfl⟩ := Option.map_eq_some_iff.1 h
  exact ⟨⟨_, rfl⟩, by simp⟩

/-- What is not the file that is moved stays where it is. -/
lemma Importing.stays (h : Importing watched folder (entry :: rest) st) {p destination : Path}
    (hp : (∃ e ∈ rest, p = [.watched folder, .name e]) ∨
      ∃ finalName, filedUnder finalName = some p) :
    moved [.watched folder, .name entry] destination p = p := by
  refine moved_outside fun hprefix => ?_
  rcases hp with ⟨e, he, rfl⟩ | ⟨finalName, hp⟩
  · have hentry : entry = e := by simpa [List.cons_prefix_cons] using hprefix
    exact (List.nodup_cons.1 h.nodup).1 (hentry ▸ he)
  · obtain ⟨⟨below, rfl⟩, -⟩ := filedUnder_eq hp
    simp at hprefix

/-- No file has been filed under a name whose place is free. -/
lemma Importing.not_enqueued (h : Importing watched folder rest st) {remote : Text}
    {destination : Path} (hfiled : filedUnder remote = some destination)
    (hfree : destination ∉ st.fileSystem.paths) :
    remote ∉ st.enqueuedForUpload.map Prod.fst := by
  intro hmem
  obtain ⟨enqueued, henqueued, rfl⟩ := List.mem_map.1 hmem
  obtain ⟨hfinal, hthere⟩ := h.remote enqueued henqueued
  rw [hfiled] at hfinal
  rw [← Option.some_inj.1 hfinal] at hthere
  exact hfree (FileTree.files_subset_paths hthere)

/-- **A file that keeps its name** is filed. -/
theorem Importing.importEntry (h : Importing watched folder (entry :: rest) st)
    (hok : st.KeepsName entry) : Importing watched folder rest (importEntry folder st entry) := by
  obtain ⟨timestamp, ht⟩ := Option.isSome_iff_exists.1 (h.timestamp entry List.mem_cons_self)
  have hsource := h.waiting entry List.mem_cons_self
  obtain ⟨destination, himported, hkeeps⟩ := imported h.tidy h.propagate
    (FileTree.files_subset_paths hsource) ht
  have hfiled := hkeeps.2 hok
  have hfiles {p : Path} (hp : p ∈ st.fileSystem.files.map Prod.fst) :
      moved [.watched folder, .name entry] destination p ∈
        (VideoSegmentsImporterFolderWatcher.importEntry folder st entry).fileSystem.files.map
          Prod.fst := by
    obtain ⟨file, hfile, rfl⟩ := List.mem_map.1 hp
    rw [himported.files]
    exact List.mem_map.2 ⟨_, List.mem_map_of_mem hfile, rfl⟩
  constructor
  case tidy => exact himported.tidy
  case propagate => exact himported.propagate
  case segments =>
    rw [himported.files, himported.segments, List.map_map]
    exact h.segments
  case nodup => exact (List.nodup_cons.1 h.nodup).2
  case timestamp => exact fun e he => h.timestamp e (List.mem_cons_of_mem _ he)
  case waiting =>
    intro e he
    have hstays := hfiles (h.waiting e (List.mem_cons_of_mem _ he))
    rwa [h.stays (.inl ⟨e, he, rfl⟩)] at hstays
  case filed =>
    intro file hfile
    rw [himported.files] at hfile
    obtain ⟨old, hold, rfl⟩ := List.mem_map.1 hfile
    rw [himported.enqueued]
    dsimp only
    rcases h.filed old hold with ⟨e, he, hpath⟩ | ⟨finalName, hfinal, hmem⟩
    · rcases List.mem_cons.1 he with rfl | he
      · rw [hpath, moved_self]
        exact .inr ⟨_, hfiled, List.mem_append_right _ List.mem_cons_self⟩
      · rw [h.stays (.inl ⟨e, he, hpath⟩)]
        exact .inl ⟨e, he, hpath⟩
    · rw [h.stays (.inr ⟨finalName, hfinal⟩)]
      exact .inr ⟨finalName, hfinal, List.mem_append_left _ hmem⟩
  case remote =>
    intro enqueued hmem
    rw [himported.enqueued] at hmem
    rcases List.mem_append.1 hmem with hmem | hmem
    · obtain ⟨hfinal, hthere⟩ := h.remote enqueued hmem
      have hstays := hfiles hthere
      rw [h.stays (.inr ⟨_, hfinal⟩)] at hstays
      exact ⟨hfinal, hstays⟩
    · obtain rfl := List.mem_singleton.1 hmem
      have hthere := hfiles hsource
      rw [moved_self] at hthere
      exact ⟨hfiled, hthere⟩
  case distinct =>
    rw [himported.enqueued, List.map_append, List.nodup_append]
    refine ⟨h.distinct, by simp, fun name hname name' hname' heq => ?_⟩
    obtain rfl := List.mem_singleton.1 hname'
    rw [heq] at hname
    exact h.not_enqueued hfiled himported.free hname

/-- When all the files of the folder are done. -/
lemma Importing.filedAndPropagated (h : Importing watched folder [] st) :
    st.FiledAndPropagated := by
  have hfiled (file) (hfile : file ∈ st.fileSystem.files) : ∃ finalName,
      filedUnder finalName = some file.1 ∧ (finalName, file.1) ∈ st.enqueuedForUpload :=
    (h.filed file hfile).resolve_left fun ⟨_, hnil, _⟩ => List.not_mem_nil hnil
  refine ⟨h.segments, h.tidy.wellFormed.nodup_files, fun file hfile => ?_,
    fun file hfile other hother heq => ?_, fun file hfile => ?_, fun enqueued hmem => ?_,
    h.distinct⟩
  · obtain ⟨finalName, hfinal, -⟩ := hfiled file hfile
    exact ⟨finalName, hfinal⟩
  · obtain ⟨finalName, hfinal, -⟩ := hfiled file hfile
    obtain ⟨finalName', hfinal', -⟩ := hfiled other hother
    rw [(filedUnder_eq hfinal).2, (filedUnder_eq hfinal').2] at heq
    simp only [Option.some.injEq, Component.name.injEq] at heq
    subst heq
    rw [hfinal] at hfinal'
    exact List.inj_on_of_nodup_map h.tidy.wellFormed.nodup_files hfile hother
      (Option.some_inj.1 hfinal')
  · obtain ⟨finalName, -, hmem⟩ := hfiled file hfile
    exact List.mem_map.2 ⟨_, hmem, rfl⟩
  · obtain ⟨hfinal, hthere⟩ := h.remote enqueued hmem
    exact ⟨hthere, (filedUnder_eq hfinal).2⟩

/-- What was enqueued is filed under its remote name. -/
lemma FiledAndPropagated.filedUnder_remote (h : st.FiledAndPropagated) {enqueued : Text × Path}
    (hmem : enqueued ∈ st.enqueuedForUpload) : filedUnder enqueued.1 = some enqueued.2 := by
  obtain ⟨hthere, hlast⟩ := h.remote enqueued hmem
  obtain ⟨file, hfile, hpath⟩ := List.mem_map.1 hthere
  obtain ⟨finalName, hfinal⟩ := h.filed file hfile
  rw [hpath] at hfinal
  have hname := (filedUnder_eq hfinal).2
  rw [hlast] at hname
  simp only [Option.some.injEq, Component.name.injEq] at hname
  rw [hname, hfinal]

/-! ## The folder is read -/

/-- What `entryList` sorts. -/
def listed (folder : ℕ) (file : Path × Segment) : Option (Text × ℕ) :=
  match file.1 with
  | [.watched folder', .name entry] =>
      if folder' = folder then some (entry, file.2.lastModified) else none
  | _ => none

lemma listed_eq_some {file : Path × Segment} {entry : Text × ℕ} : listed folder file = some entry ↔
    file.1 = [.watched folder, .name entry.1] ∧ file.2.lastModified = entry.2 := by
  obtain ⟨p, segment⟩ := file
  obtain ⟨text, lastModified⟩ := entry
  unfold listed
  split
  · next folder' entry' hpath =>
      dsimp only at hpath
      subst hpath
      split
      · next heq =>
          subst heq
          simp
      · next hne => simp [hne]
  · next hno =>
      constructor
      · intro h
        exact absurd h (by simp)
      · rintro ⟨hpath, -⟩
        exact absurd hpath (hno folder text)

lemma entryList_perm (tree : FileTree Component Segment) :
    (entryList tree folder).Perm ((tree.files.filterMap (listed folder)).map Prod.fst) :=
  (List.mergeSort_perm _ _).map Prod.fst

lemma mem_entryList {tree : FileTree Component Segment} : entry ∈ entryList tree folder ↔
    [.watched folder, .name entry] ∈ tree.files.map Prod.fst := by
  rw [(entryList_perm tree).mem_iff, List.mem_map, List.mem_map]
  constructor
  · rintro ⟨found, hfound, rfl⟩
    obtain ⟨file, hfile, hlisted⟩ := List.mem_filterMap.1 hfound
    exact ⟨file, hfile, (listed_eq_some.1 hlisted).1⟩
  · rintro ⟨file, hfile, hpath⟩
    exact ⟨(entry, file.2.lastModified),
      List.mem_filterMap.2 ⟨file, hfile, listed_eq_some.2 ⟨hpath, rfl⟩⟩, rfl⟩

lemma nodup_entryList {tree : FileTree Component Segment} (h : tree.WellFormed) :
    (entryList tree folder).Nodup := by
  rw [(entryList_perm tree).nodup_iff, List.map_filterMap]
  have hfiles := h.nodup_files
  rw [List.Nodup, List.pairwise_map] at hfiles
  rw [List.Nodup, List.pairwise_filterMap]
  refine hfiles.imp fun hne entry hentry entry' hentry' heq => hne ?_
  obtain ⟨found, hlisted, rfl⟩ := Option.map_eq_some_iff.1 hentry
  obtain ⟨found', hlisted', rfl⟩ := Option.map_eq_some_iff.1 hentry'
  rw [(listed_eq_some.1 hlisted).1, (listed_eq_some.1 hlisted').1, heq]

/-! ## New files -/

lemma Importing.perm {rest' : List Text} (h : Importing watched folder rest st)
    (hperm : rest.Perm rest') : Importing watched folder rest' st where
  tidy := h.tidy
  propagate := h.propagate
  segments := h.segments
  nodup := hperm.nodup_iff.1 h.nodup
  timestamp := fun e he => h.timestamp e (hperm.mem_iff.2 he)
  waiting := fun e he => h.waiting e (hperm.mem_iff.2 he)
  filed := fun file hfile => (h.filed file hfile).imp_left fun ⟨e, he, hpath⟩ =>
    ⟨e, hperm.mem_iff.1 he, hpath⟩
  remote := h.remote
  distinct := h.distinct

lemma Importing.mem_rest (h : Importing watched folder rest st) : entry ∈ rest ↔
    [.watched folder, .name entry] ∈ st.fileSystem.files.map Prod.fst := by
  refine ⟨h.waiting entry, fun hmem => ?_⟩
  obtain ⟨file, hfile, hpath⟩ := List.mem_map.1 hmem
  rcases h.filed file hfile with ⟨e, he, hpath'⟩ | ⟨finalName, hfinal, -⟩
  · rw [hpath] at hpath'
    simp only [List.cons.injEq, Component.name.injEq, and_true, true_and] at hpath'
    exact hpath' ▸ he
  · obtain ⟨⟨below, hbelow⟩, -⟩ := filedUnder_eq hfinal
    rw [hpath] at hbelow
    simp at hbelow

/-- The files that are read are those that are waiting. -/
lemma Importing.entryList (h : Importing watched folder rest st) :
    Importing watched folder (entryList st.fileSystem folder) st := by
  refine h.perm ((List.perm_ext_iff_of_nodup h.nodup
    (nodup_entryList h.tidy.wellFormed)).2 fun e => ?_)
  rw [h.mem_rest, mem_entryList]

/-- A file appears under a name that is not there. -/
lemma tidy_put (h : Tidy watched st.fileSystem) {file : Text × ℕ} (hfolder : folder < watched)
    (hnew : [.watched folder, .name file.1] ∉ st.fileSystem.files.map Prod.fst) :
    Tidy watched (st.put folder file).fileSystem := by
  have hpaths : (st.put folder file).fileSystem.paths =
      st.fileSystem.paths ++ [[.watched folder, .name file.1]] := List.map_append
  have hfiles : (st.put folder file).fileSystem.files = st.fileSystem.files ++
      [([.watched folder, .name file.1], ⟨st.segments, file.2⟩)] := List.filterMap_append
  have hold {p : Path} (hp : p ∈ st.fileSystem.paths) :
      p ∈ (st.put folder file).fileSystem.paths := hpaths ▸ List.mem_append_left _ hp
  refine ⟨⟨⟨?_, fun p q hne hprefix hq => ?_⟩, hold h.destination,
    fun folder' hfolder' => hold (h.watchedFolder folder' hfolder'),
    fun folder' entry below hmem => ?_⟩, fun year below hmem => ?_⟩
  · rw [hpaths, List.nodup_append]
    refine ⟨h.wellFormed.nodup, by simp, fun p hp q hq heq => ?_⟩
    rw [heq, List.mem_singleton.1 hq] at hp
    exact hnew (h.watchedFile folder _ [] hp)
  · rw [hpaths] at hq
    rcases List.mem_append.1 hq with hq | hq
    · exact hold (h.wellFormed.closed p q hne hprefix hq)
    · rw [List.mem_singleton.1 hq] at hprefix
      rcases List.prefix_cons_iff.1 hprefix with rfl | ⟨p, rfl, hbelow⟩
      · exact absurd rfl hne
      · rcases List.prefix_cons_iff.1 hbelow with rfl | ⟨below, rfl, hnil⟩
        · exact hold (h.watchedFolder folder hfolder)
        · rw [List.prefix_nil.1 hnil, hpaths]
          exact List.mem_append_right _ List.mem_cons_self
  · rw [hfiles, List.map_append]
    rw [hpaths] at hmem
    rcases List.mem_append.1 hmem with hmem | hmem
    · exact List.mem_append_left _ (h.watchedFile folder' entry below hmem)
    · exact List.mem_append_right _ hmem
  · rw [hpaths] at hmem
    rcases List.mem_append.1 hmem with hmem | hmem
    · exact (h.scratch year below hmem).imp_right hold
    · simp at hmem

lemma Importing.appears (h : Importing watched folder rest st) {file : Text × ℕ}
    (hfolder : folder < watched) (hnew : file.1 ∉ rest)
    (ht : (toLongLong (filenameMinusExt file.1)).isSome) :
    Importing watched folder (file.1 :: rest) (put folder st file) := by
  have hfiles : (st.put folder file).fileSystem.files = st.fileSystem.files ++
      [([.watched folder, .name file.1], ⟨st.segments, file.2⟩)] := List.filterMap_append
  have hold {p : Path} (hp : p ∈ st.fileSystem.files.map Prod.fst) :
      p ∈ (st.put folder file).fileSystem.files.map Prod.fst := by
    rw [hfiles, List.map_append]
    exact List.mem_append_left _ hp
  constructor
  case tidy => exact tidy_put h.tidy hfolder fun hmem => hnew (h.mem_rest.2 hmem)
  case propagate => exact h.propagate
  case segments =>
    rw [hfiles, List.map_append, h.segments]
    exact (List.range_succ).symm
  case nodup => exact List.nodup_cons.2 ⟨hnew, h.nodup⟩
  case timestamp => exact List.forall_mem_cons.2 ⟨ht, h.timestamp⟩
  case waiting =>
    refine List.forall_mem_cons.2 ⟨?_, fun e he => hold (h.waiting e he)⟩
    rw [hfiles, List.map_append]
    exact List.mem_append_right _ List.mem_cons_self
  case filed =>
    intro old hmem
    rw [hfiles] at hmem
    rcases List.mem_append.1 hmem with hmem | hmem
    · exact (h.filed old hmem).imp_left fun ⟨e, he, hpath⟩ =>
        ⟨e, List.mem_cons_of_mem _ he, hpath⟩
    · obtain rfl := List.mem_singleton.1 hmem
      exact .inl ⟨file.1, List.mem_cons_self, rfl⟩
  case remote => exact fun enqueued hmem => (h.remote enqueued hmem).imp_right hold
  case distinct => exact h.distinct

/-- All the files appear that a change is about. -/
lemma Importing.run_appears (h : Importing watched folder rest st) {added : List (Text × ℕ)}
    (hfolder : folder < watched) (hnodup : (added.map Prod.fst ++ rest).Nodup)
    (ht : ∀ file ∈ added, (toLongLong (filenameMinusExt file.1)).isSome) :
    ∃ rest', Importing watched folder rest' (Machine.run (put folder) st added) := by
  induction added generalizing st rest with
  | nil => exact ⟨rest, h⟩
  | cons file added ih =>
      rw [List.forall_mem_cons] at ht
      rw [List.map_cons, List.cons_append, List.nodup_cons, List.mem_append, not_or] at hnodup
      have hperm := @List.perm_middle _ file.1 (added.map Prod.fst) rest
      refine ih (h.appears hfolder hnodup.1.2 ht.1) (hperm.nodup_iff.2 ?_) ht.2
      exact List.nodup_cons.2 ⟨fun hmem => (List.mem_append.1 hmem).elim hnodup.1.1 hnodup.1.2,
        hnodup.2⟩

/-- Between two changes. -/
structure Quiet (watched : ℕ) (st : VideoSegmentsImporterFolderWatcher) : Prop where
  tidy : Tidy watched st.fileSystem
  propagate : st.propagateToNeighbor = true

lemma Quiet.importing (h : Quiet watched st) (hP : st.FiledAndPropagated) (folder : ℕ) :
    Importing watched folder [] st := by
  constructor
  case tidy => exact h.tidy
  case propagate => exact h.propagate
  case segments => exact hP.segments
  case nodup => exact List.nodup_nil
  case timestamp => simp
  case waiting => simp
  case filed =>
    intro file hfile
    obtain ⟨enqueued, hmem, hpath⟩ := List.mem_map.1 (hP.propagated file hfile)
    have hfinal := hP.filedUnder_remote hmem
    rw [hpath] at hfinal
    exact .inr ⟨enqueued.1, hfinal, hpath ▸ hmem⟩
  case remote =>
    exact fun enqueued hmem => ⟨hP.filedUnder_remote hmem, (hP.remote enqueued hmem).1⟩
  case distinct => exact hP.distinct

/-! ## A change -/

lemma Importing.run (h : Importing watched folder rest st)
    (hok : Machine.StaysWithin (VideoSegmentsImporterFolderWatcher.importEntry folder) KeepsName st
      rest) :
    Importing watched folder []
      (Machine.run (VideoSegmentsImporterFolderWatcher.importEntry folder) st rest) := by
  induction rest generalizing st with
  | nil => exact h
  | cons entry rest ih => exact ih (h.importEntry hok.1) hok.2

section Enqueued

variable {enqueued : Text × Path}

lemma mem_enqueued_maybePropagateToNeighbor (h : enqueued ∈ st.enqueuedForUpload) (timestamp : Text)
    (path : Path) : enqueued ∈ (st.maybePropagateToNeighbor timestamp path).enqueuedForUpload := by
  unfold maybePropagateToNeighbor
  split
  · exact List.mem_append_left _ h
  · exact h

lemma mem_enqueued_move (h : enqueued ∈ st.enqueuedForUpload) (source destination : Path)
    {next : VideoSegmentsImporterFolderWatcher → VideoSegmentsImporterFolderWatcher}
    (hnext : ∀ st : VideoSegmentsImporterFolderWatcher, enqueued ∈ st.enqueuedForUpload →
      enqueued ∈ (next st).enqueuedForUpload) :
    enqueued ∈ (st.move source destination next).enqueuedForUpload := by
  unfold move
  split
  · exact h
  · exact hnext _ h

/-- What was enqueued stays enqueued. -/
lemma mem_enqueued_importEntry (h : enqueued ∈ st.enqueuedForUpload) :
    enqueued ∈ (importEntry folder st entry).enqueuedForUpload := by
  unfold importEntry
  split
  · exact h
  · have hlast (st : VideoSegmentsImporterFolderWatcher) (h : enqueued ∈ st.enqueuedForUpload)
        (timestamp : Text) (path : Path) :=
      mem_enqueued_maybePropagateToNeighbor h timestamp path
    dsimp only
    split
    · exact mem_enqueued_move h _ _ fun st h => hlast st h _ _
    · split
      · refine mem_enqueued_move ?_ _ _ fun st h => ?_
        · exact h
        · exact mem_enqueued_move h _ _ fun st h => hlast st h _ _
      · refine mem_enqueued_move ?_ _ _ fun st h => ?_
        · exact h
        · exact mem_enqueued_move h _ _ fun st h => hlast st h _ _

lemma mem_enqueued_run (h : enqueued ∈ st.enqueuedForUpload) (rest : List Text) :
    enqueued ∈ (Machine.run (importEntry folder) st rest).enqueuedForUpload := by
  induction rest generalizing st with
  | nil => exact h
  | cons entry rest ih => exact ih (mem_enqueued_importEntry h)

end Enqueued

/-- **A file that does not keep its name** is enqueued under another one, for good. -/
theorem Importing.staysWithin (h : Importing watched folder rest st)
    (hP : (Machine.run (VideoSegmentsImporterFolderWatcher.importEntry folder) st
      rest).FiledAndPropagated) :
    Machine.StaysWithin (VideoSegmentsImporterFolderWatcher.importEntry folder) KeepsName st
      rest := by
  induction rest generalizing st with
  | nil => exact trivial
  | cons entry rest ih =>
      rw [Machine.run_cons] at hP
      have hok : st.KeepsName entry := by
        obtain ⟨timestamp, ht⟩ := Option.isSome_iff_exists.1 (h.timestamp entry List.mem_cons_self)
        obtain ⟨destination, himported, hkeeps⟩ := imported h.tidy h.propagate
          (FileTree.files_subset_paths (h.waiting entry List.mem_cons_self)) ht
        have hnew : (filenameMinusExt entry ++ ogg, destination) ∈
            (VideoSegmentsImporterFolderWatcher.importEntry folder st entry).enqueuedForUpload := by
          rw [himported.enqueued]
          exact List.mem_append_right _ List.mem_cons_self
        have hfiled := hP.filedUnder_remote (mem_enqueued_run hnew rest)
        exact hkeeps.1 hfiled
      exact ⟨hok, ih (h.importEntry hok) hP⟩

/-- A change leaves the segments filed and propagated iff each of its files keeps its name. -/
lemma Quiet.step_iff (h : Quiet watched st) (hP : st.FiledAndPropagated) {x : DirectoryChanged}
    (hx : x.Timestamps watched) :
    ((st.step x).FiledAndPropagated ↔ st.KeepNames x) ∧
      (st.KeepNames x → Quiet watched (st.step x)) := by
  obtain ⟨rest, hput⟩ := (h.importing hP x.folder).run_appears hx.folder
    (by simpa using hx.nodup) hx.timestamp
  have hread := hput.entryList
  exact ⟨⟨fun hafter => hread.staysWithin hafter, fun hok => (hread.run hok).filedAndPropagated⟩,
    fun hok => ⟨(hread.run hok).tidy, (hread.run hok).propagate⟩⟩

/-! ## The run -/

lemma paths_start : (start watched).fileSystem.paths =
    [.scratchSpace] :: [.folderToMoveTo] :: (List.range watched).map fun folder =>
      [.watched folder] := by
  simp [start, FileTree.paths]

lemma files_start : (start watched).fileSystem.files = [] := by
  simp [start, FileTree.files]

/-- At first each path is a configured folder. -/
lemma quiet_start : Quiet watched (start watched) := by
  have hroot {p : Path} (hp : p ∈ (start watched).fileSystem.paths) : ∃ c, p = [c] := by
    rw [paths_start, List.mem_cons, List.mem_cons, List.mem_map] at hp
    rcases hp with rfl | rfl | ⟨folder, -, rfl⟩
    · exact ⟨_, rfl⟩
    · exact ⟨_, rfl⟩
    · exact ⟨_, rfl⟩
  refine ⟨⟨⟨⟨?_, fun p q hne hprefix hq => ?_⟩, ?_, fun folder hfolder => ?_,
    fun folder entry below hmem => ?_⟩, fun year below hmem => ?_⟩, rfl⟩
  · rw [paths_start, List.nodup_cons, List.nodup_cons]
    refine ⟨by simp, by simp, List.nodup_range.map fun folder folder' heq => ?_⟩
    simpa using heq
  · obtain ⟨c, rfl⟩ := hroot hq
    rcases List.prefix_cons_iff.1 hprefix with rfl | ⟨p, rfl, hp⟩
    · exact absurd rfl hne
    · rwa [List.prefix_nil.1 hp]
  · rw [paths_start]
    exact List.mem_cons_of_mem _ List.mem_cons_self
  · rw [paths_start]
    exact List.mem_cons_of_mem _ (List.mem_cons_of_mem _
      (List.mem_map.2 ⟨folder, List.mem_range.2 hfolder, rfl⟩))
  · obtain ⟨c, hc⟩ := hroot hmem
    simp at hc
  · obtain ⟨c, hc⟩ := hroot hmem
    simp at hc

lemma filedAndPropagated_start : (start watched).FiledAndPropagated := by
  constructor
  case segments => rw [files_start]; rfl
  case nodup => rw [files_start]; exact List.nodup_nil
  case filed => simp [files_start]
  case named => simp [files_start]
  case propagated => simp [files_start]
  case remote => exact fun enqueued hmem => absurd hmem List.not_mem_nil
  case distinct => exact List.nodup_nil

/-- **The segments are filed and propagated under their own names** iff in every change each file
keeps its name.

What the neighbor is told has to be the name under which the segment is filed, or the two sites have
different files under one name.  Names clash, for instance, if two watched folders get a segment of
the same second. -/
theorem filedAndPropagated_iff (watched : ℕ) (changes : List DirectoryChanged)
    (h : ∀ x ∈ changes, x.Timestamps watched) :
    Machine.HoldsThroughout step FiledAndPropagated (start watched) changes ↔
      Machine.StaysWithin step KeepNames (start watched) changes :=
  Machine.holdsThroughout_iff_staysWithin (I := Quiet watched) (DirectoryChanged.Timestamps watched)
    (fun _ _ hx hI hP hok => (hI.step_iff hP hx).2 hok)
    (fun _ _ hx hI hP => (hI.step_iff hP hx).1) h quiet_start filedAndPropagated_start

/-- Five segments of two days, in two folders. -/
def twoDays : List DirectoryChanged :=
  [⟨0, [(number 5 ++ ogg, 0)]⟩, ⟨0, [(number 6 ++ ogg, 1)]⟩, ⟨1, [(number 86400 ++ ogg, 2)]⟩,
    ⟨1, [(number 7 ++ ogg, 3)]⟩, ⟨0, [(number 86405 ++ ogg, 4)]⟩]

theorem filedAndPropagated_iff_twoDays :
    (Machine.run step (start 2) twoDays).enqueuedForUpload.length = 5 ∧
      Machine.HoldsThroughout step FiledAndPropagated (start 2) twoDays :=
  ⟨by decide +kernel, (filedAndPropagated_iff 2 twoDays fun x hx =>
    ⟨(by decide : ∀ x ∈ twoDays, x.folder < 2) x hx,
      (by decide +kernel : ∀ x ∈ twoDays, (x.added.map Prod.fst).Nodup) x hx,
      (by decide +kernel : ∀ x ∈ twoDays, ∀ file ∈ x.added,
        (toLongLong (filenameMinusExt file.1)).isSome) x hx⟩).2 (by decide +kernel)⟩

/-- Two segments of one second, in two folders. -/
def sameSecond : List DirectoryChanged :=
  [⟨0, [(number 5 ++ ogg, 0)]⟩, ⟨1, [(number 5 ++ ogg, 0)]⟩]

lemma timestamps_sameSecond : ∀ x ∈ sameSecond, x.Timestamps 2 := by
  have htimestamps (folder : ℕ) (hfolder : folder < 2) :
      (⟨folder, [(number 5 ++ ogg, 0)]⟩ : DirectoryChanged).Timestamps 2 := by
    refine ⟨hfolder, by simp, fun file hfile => ?_⟩
    rw [List.mem_singleton.1 hfile]
    decide
  intro x hx
  simp only [sameSecond, List.mem_cons, List.not_mem_nil, or_false] at hx
  rcases hx with rfl | rfl
  · exact htimestamps 0 (by decide)
  · exact htimestamps 1 (by decide)

/-- The second one is called `6.ogg` here and `5.ogg` at the neighbor. -/
theorem not_filedAndPropagated : ¬ ∀ watched changes,
    (∀ x ∈ changes, DirectoryChanged.Timestamps watched x) →
      Machine.HoldsThroughout step FiledAndPropagated (start watched) changes := by
  intro h
  have hend := (h 2 sameSecond timestamps_sameSecond).run
  have hmem : (number 5 ++ ogg, dayFolder .folderToMoveTo 1970 1 ++ [.name (number 6 ++ ogg)]) ∈
      (Machine.run step (start 2) sameSecond).enqueuedForUpload := by decide +kernel
  have hremote := (hend.remote _ hmem).2
  rw [List.getLast?_append_of_ne_nil _ (by simp)] at hremote
  exact absurd hremote (by decide)

end VideoSegmentsImporterFolderWatcher

end Autobackup.SegmentsImporter
