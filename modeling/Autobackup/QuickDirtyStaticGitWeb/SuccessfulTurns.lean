import Autobackup.QuickDirtyStaticGitWeb.MirrorsHead

/-!
# Turns that succeed

A turn fails where it would have to remove a page, read a time or make a file, and cannot.  Three
things make it fail.  The commit deletes the timestamps file, which is not written to a name that
ends in `.html`, but would be removed under one.  A file is deleted or modified, and the commit
before has no time for it other than 0.  And a file is written where the temporary directory, from
which nothing is removed, has a folder, or the other way round.

Where the timestamps file lists the other files of its commit, and the pages have names of their own
(`NamesAreApart`), these are all (`Turn.succeeds_iff`).  What a turn then leaves for the next one is
in `Turn.isReady_perform`.
-/

namespace Autobackup.QuickDirtyStaticGitWeb

open QString WrittenTree

namespace Turn

variable (turn : Turn)

def delta : Delta := deltaTo turn.parent turn.commit

/-- What it writes to the temporary directory. -/
def written : List Path := writtenPaths turn.parent turn.commit

/-- The page with the differences, if a file was modified. -/
def diffPages : List Path :=
  if turn.delta.modified = [] then [] else [diffHtmlFilePath turn.parentOid turn.commit.oid]

variable (decode : Blob → Text)

/-- The entries of the index after the turn. -/
def indexAfter (fifo : IndexHtmlFifo) : IndexHtmlFifo :=
  (turn.entries decode).foldl IndexHtmlFifo.myEnqueue
    (turn.delta.deleted.foldl IndexHtmlFifo.removeModificationEntries fifo)

/-- In the commit before there is a time for what was deleted or modified. -/
structure FindsOldTimestamps : Prop where
  deleted : ∀ p ∈ turn.delta.deleted, findsOldTimestamp decode turn.parent (filePath p) .empty
  modified : ∀ p ∈ turn.delta.modified, p ≠ lastModifiedTimestampsFilepath →
    findsOldTimestamp decode turn.parent (turn.searchedPath p) .modified

instance : Decidable (turn.FindsOldTimestamps decode) :=
  decidable_of_iff (_ ∧ _) ⟨fun h => ⟨h.1, h.2⟩, fun h => ⟨h.deleted, h.modified⟩⟩

/-- The timestamps file is not deleted. -/
def KeepsTimestamps : Prop := lastModifiedTimestampsFilepath ∉ turn.delta.deleted

instance : Decidable turn.KeepsTimestamps := inferInstanceAs (Decidable (_ ∉ _))

end Turn

/-- The timestamps file, if the commit has one, lists the other files. -/
def Commit.ListsTheOthers (decode : Blob → Text) (c : Commit) : Prop :=
  ∀ file ∈ c.tree.lookup lastModifiedTimestampsFilepath,
    (sortLastModifiedTimestamps (readTimestamps decode file)).Perm
      (c.tree.keys.filter (· ≠ lastModifiedTimestampsFilepath))

instance (decode : Blob → Text) (c : Commit) : Decidable (c.ListsTheOthers decode) :=
  inferInstanceAs (Decidable (∀ file ∈ _, _))

/-- No page has the name of a folder that another one is in, and none has the name of a page that is
made of no file, or is in a folder of such a name. -/
structure NamesAreApart (files : List Path) : Prop where
  apart : IsApart (files.map outputPath)
  notGenerated : ∀ p ∈ files, ∀ q ∈ (outputPath p).inits, ¬IsGenerated q

instance (files : List Path) : Decidable (NamesAreApart files) :=
  decidable_of_iff (_ ∧ _) ⟨fun h => ⟨h.1, h.2⟩, fun h => ⟨h.apart, h.notGenerated⟩⟩

variable {decode : Blob → Text} {parent : Option Commit} {c : Commit} {turn : Turn} {p q : Path}
  {s : Session} {files names written : List Path}

/-! ## Timestamps files that list the other files -/

lemma Commit.ListsTheOthers.doesNotListItself (h : c.ListsTheOthers decode) :
    c.DoesNotListItself decode := fun file hfile hmem => by
  have hother := List.of_mem_filter ((h file hfile).mem_iff.1 hmem)
  exact absurd rfl (of_decide_eq_true hother)

lemma Commit.ListsTheOthers.strayPaths_eq (h : c.ListsTheOthers decode) :
    strayPaths decode (some c) = [] := by
  refine List.eq_nil_iff_forall_not_mem.2 fun p hp => ?_
  rw [strayPaths, Option.elim_some] at hp
  cases hfile : c.tree.lookup lastModifiedTimestampsFilepath with
  | none =>
      rw [hfile] at hp
      exact List.not_mem_nil hp
  | some file =>
      rw [hfile] at hp
      obtain ⟨hlisted, hnot⟩ := List.mem_filter.1 hp
      have htree := List.mem_of_mem_filter ((h file hfile).mem_iff.1 hlisted)
      exact of_decide_eq_true hnot (AList.mem_keys.1 htree)

lemma Turn.strays_eq (h : turn.commit.ListsTheOthers decode) : turn.strays decode = [] := by
  rw [strays, h.strayPaths_eq, ite_self]

lemma mem_takeEntries_modified {added modified paths : List Path} (hp : p ∈ paths)
    (hadded : p ∉ added) (hmodified : p ∈ modified) :
    ⟨p, .modified⟩ ∈ takeEntries added modified paths := by
  induction paths generalizing added modified with
  | nil => exact absurd hp List.not_mem_nil
  | cons first rest ih =>
      rw [takeEntries]
      by_cases hfirst : p = first
      · rw [← hfirst, if_neg hadded, if_pos hmodified]
        exact List.mem_cons_self
      · have hrest := (List.mem_cons.1 hp).resolve_left hfirst
        split_ifs with hadd hmodify
        · exact List.mem_cons_of_mem _ (ih hrest (fun h => hadded (List.mem_of_mem_erase h))
            hmodified)
        · exact List.mem_cons_of_mem _ (ih hrest hadded
            ((List.mem_erase_of_ne hfirst).2 hmodified))
        · exact ih hrest hadded hmodified

/-- The index is told of all files that were written. -/
lemma Turn.mem_ordered_of_written (hlists : turn.commit.ListsTheOthers decode)
    (hp : p ∈ turn.written) (hne : p ≠ lastModifiedTimestampsFilepath) :
    p ∈ turn.ordered decode := by
  rw [ordered]
  split_ifs with htimestamps
  · have htree := (mem_writtenPaths_iff.1 hp).1
    obtain ⟨file, hfile⟩ : ∃ file,
        turn.commit.tree.lookup lastModifiedTimestampsFilepath = some file :=
      Option.isSome_iff_exists.1 (AList.lookup_isSome.2 (mem_writtenPaths_iff.1 htimestamps).1)
    rw [hfile, Option.elim_some, (hlists file hfile).mem_iff]
    exact List.mem_filter.2 ⟨AList.mem_keys.2 htree, decide_eq_true hne⟩
  · rw [List.mem_reverse, List.mem_insertionSort]
    exact hp

/-- The index is told of the modified files, but for the timestamps file. -/
lemma Turn.forall_entries_modified_iff {P : Path → Prop}
    (hlists : turn.commit.ListsTheOthers decode) :
    (∀ entry ∈ turn.entries decode, entry.html = .modified → P entry.path) ↔
      ∀ p ∈ turn.delta.modified, p ≠ lastModifiedTimestampsFilepath → P p := by
  constructor
  · intro h p hp hne
    refine h ⟨p, .modified⟩ ?_ rfl
    have hwritten : p ∈ turn.written :=
      mem_writtenPaths_iff.2 ⟨mem_tree_of_mem_delta (.inl hp), .inr (.inl hp)⟩
    have hordered := mem_ordered_of_written hlists hwritten hne
    rw [delta] at hp
    rw [entries]
    cases hparent : turn.parent with
    | none =>
        rw [hparent] at hp
        exact absurd hp List.not_mem_nil
    | some old =>
        rw [hparent] at hp
        refine mem_takeEntries_modified hordered (fun hadded => ?_) hp
        obtain ⟨-, hmodified⟩ := List.mem_filter.1 hp
        obtain ⟨-, hnew⟩ := List.mem_filter.1 hadded
        exact of_decide_eq_true hnew (of_decide_eq_true hmodified).1
  · intro h entry hentry hmodified
    refine h _ ?_ (ne_timestamps_of_mem_entries hlists.doesNotListItself hentry)
    rw [entries] at hentry
    split_ifs at hentry with hroot
    · obtain ⟨p, -, rfl⟩ := List.mem_map.1 hentry
      exact absurd hmodified EntryHtml.noConfusion
    · obtain ⟨-, ⟨-, hempty⟩ | ⟨hmem, -⟩⟩ := path_of_mem_takeEntries hentry
      · exact absurd (hempty.symm.trans hmodified) EntryHtml.noConfusion
      · exact hmem

/-! ## Where files are made -/

/-- What is written has one of these names. -/
def Action.WritesWithin (names : List Path) : Action → Prop
  | .delete _ _ => True
  | action => action.target ∈ names

lemma isWithin_perform {action : Action} (haction : action.WritesWithin names)
    (h : s.destination.IsWithin names) :
    (action.perform decode s).1.destination.IsWithin names := by
  cases action with
  | delete parent p =>
      rw [Action.perform]
      cases hremove : s.destination.remove (htmlPath p) with
      | none => exact h
      | some destination => exact h.remove hremove
  | writeDiff parentOid oid =>
      rw [Action.perform]
      split_ifs with hexists
      · exact h
      · cases hput : s.destination.put (diffHtmlFilePath parentOid oid) (.diff oid) with
        | none => exact h
        | some destination => exact h.put hput haction (List.Subset.refl names)
  | write p content =>
      rw [Action.perform]
      cases s.temp.put p content with
      | none => exact h
      | some temp =>
          cases hput : s.destination.put (outputPath p) (fileHtml p content) with
          | none => exact h
          | some destination => exact h.put hput haction (List.Subset.refl names)
  | list parent searched entry =>
      rw [Action.perform]
      cases htouch : s.destination.touch (htmlPath entry.path) (.raw []) with
      | none => exact h
      | some destination => exact h.touch htouch haction
  | writeIndex =>
      rw [Action.perform]
      split_ifs with hfiles
      · cases hput : s.destination.put indexHtml .index with
        | none => exact h
        | some destination => exact h.put hput haction (List.Subset.refl names)
      · exact h

lemma isWithin_performed {actions : List Action}
    (hactions : ∀ action ∈ actions, action.WritesWithin names) (h : s.destination.IsWithin names) :
    (Script.perform (Action.perform decode) actions s).1.destination.IsWithin names :=
  Script.perform_of_forall (I := fun s : Session => s.destination.IsWithin names)
    (fun action haction _ hs => isWithin_perform (hactions action haction) hs) h

/-- Where the names are apart, everything that has one of them can be written. -/
lemma canPut_of_isApart (h : s.destination.IsWithin names) (hnames : IsApart names)
    (hp : p ∈ names) : s.destination.CanPut p :=
  h.canPut fun q hq => ⟨hnames q hq p hp, hnames p hp q hq⟩

/-! ## The parts of a turn -/

/-- **A page is removed**, if it is not that of the timestamps file. -/
lemma delete_iff (hs : s.HasNothingElse)
    (hpage : p ≠ lastModifiedTimestampsFilepath → (s.destination.fileAt (htmlPath p)).isSome) :
    ((Action.delete parent p).perform decode s).2 = true ↔ p ≠ lastModifiedTimestampsFilepath ∧
      findsOldTimestamp decode parent (filePath p) .empty = true := by
  rw [Action.perform]
  by_cases hp : p = lastModifiedTimestampsFilepath
  · have hnone : (s.destination.fileAt (htmlPath p)).isSome = false := by
      by_contra hsome
      rw [Bool.not_eq_false, hp] at hsome
      rcases hs _ hsome with hgenerated | ⟨q, hq, heq⟩
      · exact not_isGenerated_htmlPath hgenerated
      · exact outputPath_ne_htmlPath hq heq
    have hremove : s.destination.remove (htmlPath p) = none := if_neg (by rw [hnone]; decide)
    rw [hremove]
    exact iff_of_false Bool.false_ne_true fun h => h.1 hp
  · have hremove : s.destination.remove (htmlPath p) = some _ := if_pos (hpage hp)
    rw [hremove]
    exact (and_iff_right hp).symm

lemma deletes_iff {deleted : List Path} (hs : s.HasNothingElse) (hnodup : deleted.Nodup)
    (hne : ∀ p ∈ deleted, p ≠ [])
    (hpages : ∀ p ∈ deleted, p ≠ lastModifiedTimestampsFilepath →
      (s.destination.fileAt (htmlPath p)).isSome) :
    (Script.perform (Action.perform decode) (deleted.map (.delete parent)) s).2 = true ↔
      lastModifiedTimestampsFilepath ∉ deleted ∧
        ∀ p ∈ deleted, findsOldTimestamp decode parent (filePath p) .empty = true := by
  suffices hall : (Script.perform (Action.perform decode) (deleted.map (.delete parent)) s).2 =
      true ↔ ∀ p ∈ deleted, p ≠ lastModifiedTimestampsFilepath ∧
        findsOldTimestamp decode parent (filePath p) .empty = true by
    rw [hall, forall₂_and]
    exact and_congr_left fun _ => ⟨fun h hmem => h _ hmem rfl, fun h p hp heq => h (heq ▸ hp)⟩
  induction deleted generalizing s with
  | nil => exact iff_of_true rfl fun p hp => absurd hp List.not_mem_nil
  | cons first rest ih =>
      obtain ⟨hnew, hnodup⟩ := List.nodup_cons.1 hnodup
      rw [List.map_cons, Script.perform_cons_iff, List.forall_mem_cons,
        delete_iff hs (hpages first List.mem_cons_self)]
      refine and_congr_right fun _ => ih ?_ hnodup
        (fun p hp => hne p (List.mem_cons_of_mem _ hp)) fun p hp hts => ?_
      · have hproper : (Action.delete parent first).IsProper := hne first List.mem_cons_self
        exact Action.nothingElse_perform hproper hs
      · have hother : htmlPath p ≠ (Action.delete parent first).target := fun heq => by
          have hsame := htmlPath_injective (hne p (List.mem_cons_of_mem _ hp))
            (hne first List.mem_cons_self) heq
          exact hnew (hsame ▸ hp)
        rw [Action.fileAt_perform hother]
        exact hpages p (List.mem_cons_of_mem _ hp) hts

/-- **The differences are written**, if their page is a new one. -/
lemma writeDiff_succeeds {parentOid oid : Text} (h : s.destination.IsWithin names)
    (hnames : IsApart names) (hmem : diffHtmlFilePath parentOid oid ∈ names)
    (hfresh : s.destination.fileAt (diffHtmlFilePath parentOid oid) = none) :
    ((Action.writeDiff parentOid oid).perform decode s).2 = true := by
  have hcan := canPut_of_isApart h hnames hmem
  have hnone : (s.destination (diffHtmlFilePath parentOid oid)).isSome = false := by
    have hfolder := hcan.2
    unfold fileAt at hfresh
    unfold isFolder at hfolder
    cases hentry : s.destination (diffHtmlFilePath parentOid oid) with
    | none => rfl
    | some entry =>
        rw [hentry] at hfresh hfolder
        cases entry with
        | folder => exact absurd hfolder.symm Bool.false_ne_true
        | file content => exact absurd hfresh (Option.some_ne_none content)
  rw [Action.perform, hnone, if_neg Bool.false_ne_true, put, if_pos hcan]

/-- **A file is written**, if nothing in the temporary directory is in the way. -/
lemma write_iff {content : Blob} (h : s.destination.IsWithin names) (hnames : IsApart names)
    (hmem : outputPath p ∈ names) (htemp : s.temp.Holds written) (hapart : IsApart written)
    (hp : p ≠ []) : ((Action.write p content).perform decode s).2 = true ↔
      IsApart (written ++ [p]) := by
  rw [Action.perform, ← htemp.canPut_iff hapart hp]
  have hput : s.destination.put (outputPath p) (fileHtml p content) = some _ :=
    if_pos (canPut_of_isApart h hnames hmem)
  by_cases hcan : s.temp.CanPut p
  · have htemp : s.temp.put p content = some _ := if_pos hcan
    rw [htemp, hput]
    exact iff_of_true rfl hcan
  · have htemp : s.temp.put p content = none := if_neg hcan
    rw [htemp]
    exact iff_of_false Bool.false_ne_true hcan

lemma holds_write {content : Blob} (htemp : s.temp.Holds written) (hp : p ≠ [])
    (hok : ((Action.write p content).perform decode s).2 = true) :
    ((Action.write p content).perform decode s).1.temp.Holds (written ++ [p]) := by
  rw [Action.perform] at hok ⊢
  cases hput : s.temp.put p content with
  | none =>
      rw [hput] at hok
      exact absurd hok Bool.false_ne_true
  | some temp =>
      have hholds := htemp.put hp hput
      dsimp only
      cases s.destination.put (outputPath p) (fileHtml p content) with
      | none => exact hholds
      | some destination => exact hholds

/-- **The files are written**, if nothing that this run has written is a folder of another. -/
lemma writes_iff {fs : List (Σ _ : Path, File)} (h : s.destination.IsWithin names)
    (hnames : IsApart names) (hmem : ∀ file ∈ fs, outputPath file.1 ∈ names)
    (htemp : s.temp.Holds written) (hapart : IsApart written) (hne : ∀ file ∈ fs, file.1 ≠ []) :
    (Script.perform (Action.perform decode)
      (fs.map fun file => .write file.1 file.2.content) s).2 = true ↔
        IsApart (written ++ fs.map Sigma.fst) := by
  induction fs generalizing s written with
  | nil => exact iff_of_true rfl (by rwa [List.map_nil, List.append_nil])
  | cons first rest ih =>
      have hfirst := hne first List.mem_cons_self
      have hfirst' := hmem first List.mem_cons_self
      have hone : ((Action.write first.1 first.2.content).perform decode s).2 = true ↔
          IsApart (written ++ [first.1]) := write_iff h hnames hfirst' htemp hapart hfirst
      have hwrite : (Action.write first.1 first.2.content).WritesWithin names := hfirst'
      have hrest (hnext : IsApart (written ++ [first.1])) :=
        ih (isWithin_perform hwrite h)
          (fun file hfile => hmem file (List.mem_cons_of_mem _ hfile))
          (holds_write htemp hfirst (hone.2 hnext)) hnext
          (fun file hfile => hne file (List.mem_cons_of_mem _ hfile))
      have hsplit : written ++ (first :: rest).map Sigma.fst =
          (written ++ [first.1]) ++ rest.map Sigma.fst := by
        rw [List.map_cons, List.append_assoc, List.singleton_append]
      rw [List.map_cons, Script.perform_cons_iff, hsplit, hone]
      constructor
      · rintro ⟨hnext, hok⟩
        exact (hrest hnext).1 hok
      · intro hall
        have hnext := hall.subset (List.subset_append_left _ _)
        exact ⟨hnext, (hrest hnext).2 hall⟩

lemma holds_writes {fs : List (Σ _ : Path, File)} (htemp : s.temp.Holds written)
    (hne : ∀ file ∈ fs, file.1 ≠ []) (hok : (Script.perform (Action.perform decode)
      (fs.map fun file => .write file.1 file.2.content) s).2 = true) :
    (Script.perform (Action.perform decode)
      (fs.map fun file => .write file.1 file.2.content) s).1.temp.Holds
        (written ++ fs.map Sigma.fst) := by
  induction fs generalizing s written with
  | nil => rwa [List.map_nil, List.map_nil, List.append_nil]
  | cons first rest ih =>
      rw [List.map_cons] at hok ⊢
      obtain ⟨hfirst, hrest⟩ := Script.perform_cons_eq_true hok
      rw [hrest] at hok ⊢
      have hall := ih (holds_write htemp (hne first List.mem_cons_self) hfirst)
        (fun file hfile => hne file (List.mem_cons_of_mem _ hfile)) hok
      rwa [List.append_assoc, List.singleton_append, ← List.map_cons] at hall

/-- **The index is told of the files**, if a time is found for those that were modified. -/
lemma lists_iff {entries : List IndexEntry} {searched : IndexEntry → Text}
    (hpages : ∀ entry ∈ entries, (s.destination.fileAt (htmlPath entry.path)).isSome) :
    (Script.perform (Action.perform decode)
      (entries.map fun entry => .list parent (searched entry) entry) s).2 = true ↔
        ∀ entry ∈ entries, entry.html = .modified →
          findsOldTimestamp decode parent (searched entry) .modified = true := by
  induction entries generalizing s with
  | nil => exact iff_of_true rfl fun entry hentry => absurd hentry List.not_mem_nil
  | cons first rest ih =>
      have hfirst := hpages first List.mem_cons_self
      rw [List.map_cons, Script.perform_cons_iff, List.forall_mem_cons]
      refine and_congr ?_ (ih fun entry hentry => ?_)
      · rw [Action.perform, touch_of_file hfirst]
        dsimp only
        rw [Bool.or_eq_true, decide_eq_true_eq, ← imp_iff_not_or]
        exact imp_congr_right fun hmodified => by rw [hmodified]
      · have hpage := hpages entry (List.mem_cons_of_mem _ hentry)
        rwa [Action.fileAt_list hpage]

/-! ## What a part leaves -/

lemma temp_delete : ((Action.delete parent p).perform decode s).1.temp = s.temp := by
  rw [Action.perform]
  cases s.destination.remove (htmlPath p) with
  | none => rfl
  | some destination => rfl

lemma temp_writeDiff {parentOid oid : Text} :
    ((Action.writeDiff parentOid oid).perform decode s).1.temp = s.temp := by
  rw [Action.perform]
  split_ifs with hexists
  · rfl
  · cases s.destination.put (diffHtmlFilePath parentOid oid) (.diff oid) with
    | none => rfl
    | some destination => rfl

lemma temp_list {searched : Text} {entry : IndexEntry} :
    ((Action.list parent searched entry).perform decode s).1.temp = s.temp := by
  rw [Action.perform]
  cases s.destination.touch (htmlPath entry.path) (.raw []) with
  | none => rfl
  | some destination => rfl

lemma indexHtmlFifo_writeDiff {parentOid oid : Text} :
    ((Action.writeDiff parentOid oid).perform decode s).1.indexHtmlFifo = s.indexHtmlFifo := by
  rw [Action.perform]
  split_ifs with hexists
  · rfl
  · cases s.destination.put (diffHtmlFilePath parentOid oid) (.diff oid) with
    | none => rfl
    | some destination => rfl

lemma indexHtmlFifo_write {content : Blob} :
    ((Action.write p content).perform decode s).1.indexHtmlFifo = s.indexHtmlFifo := by
  rw [Action.perform]
  cases s.temp.put p content with
  | none => rfl
  | some temp =>
      dsimp only
      cases s.destination.put (outputPath p) (fileHtml p content) with
      | none => rfl
      | some destination => rfl

lemma indexHtmlFifo_deletes {deleted : List Path}
    (hok : (Script.perform (Action.perform decode) (deleted.map (.delete parent)) s).2 = true) :
    (Script.perform (Action.perform decode) (deleted.map (.delete parent)) s).1.indexHtmlFifo =
      deleted.foldl IndexHtmlFifo.removeModificationEntries s.indexHtmlFifo := by
  induction deleted generalizing s with
  | nil => rfl
  | cons first rest ih =>
      rw [List.map_cons] at hok ⊢
      obtain ⟨hfirst, hrest⟩ := Script.perform_cons_eq_true hok
      rw [hrest] at hok ⊢
      rw [ih hok, List.foldl_cons]
      congr 1
      rw [Action.perform] at hfirst ⊢
      cases hremove : s.destination.remove (htmlPath first) with
      | none =>
          rw [hremove] at hfirst
          exact absurd hfirst Bool.false_ne_true
      | some destination => rfl

lemma indexHtmlFifo_lists {entries : List IndexEntry} {searched : IndexEntry → Text}
    (hok : (Script.perform (Action.perform decode)
      (entries.map fun entry => .list parent (searched entry) entry) s).2 = true) :
    (Script.perform (Action.perform decode)
      (entries.map fun entry => .list parent (searched entry) entry) s).1.indexHtmlFifo =
        entries.foldl IndexHtmlFifo.myEnqueue s.indexHtmlFifo := by
  induction entries generalizing s with
  | nil => rfl
  | cons first rest ih =>
      rw [List.map_cons] at hok ⊢
      obtain ⟨hfirst, hrest⟩ := Script.perform_cons_eq_true hok
      rw [hrest] at hok ⊢
      rw [ih hok, List.foldl_cons]
      congr 1
      rw [Action.perform] at hfirst ⊢
      cases htouch : s.destination.touch (htmlPath first.path) (.raw []) with
      | none =>
          rw [htouch] at hfirst
          exact absurd hfirst Bool.false_ne_true
      | some destination => rfl

/-! ## A turn -/

/-- The pages are those of the commit before, and the temporary directory has what was written. -/
structure Session.IsReady (names written : List Path) (parent : Option Commit) (s : Session) :
    Prop where
  mirrors : Mirrors parent [] s.destination
  within : s.destination.IsWithin names
  temp : s.temp.Holds written

/-- The names that a turn may write to, and those of its pages. -/
structure Turn.HasNames (names : List Path) (turn : Turn) : Prop where
  apart : IsApart names
  files : ∀ p ∈ turn.commit.tree, outputPath p ∈ names
  diffs : ∀ q ∈ turn.diffPages, q ∈ names
  notGenerated : ∀ p ∈ turn.commit.tree, ¬IsGenerated (outputPath p)
  parentNotGenerated : ∀ old ∈ turn.parent, ∀ p ∈ old.tree, ¬IsGenerated (outputPath p)

lemma Mirrors.mono {head : Option Commit} {exempt : List Path}
    {destination : WrittenTree Text Page} (h : Mirrors head [] destination) :
    Mirrors head exempt destination :=
  ⟨fun p hne hgenerated _ => h.pages p hne hgenerated List.not_mem_nil, h.nothingElse⟩

lemma Mirrors.page_isSome {head : Commit} {destination : WrittenTree Text Page}
    (h : Mirrors (some head) [] destination) (hp : p ∈ head.tree)
    (hgenerated : ¬IsGenerated (outputPath p)) : (destination.fileAt (outputPath p)).isSome := by
  rw [h.pages p (ne_nil_of_mem_tree hp) hgenerated List.not_mem_nil, pageOf, Option.bind_some,
    Option.isSome_map]
  exact AList.lookup_isSome.2 hp

lemma isGenerated_of_mem_diffPages (h : q ∈ turn.diffPages) : IsGenerated q := by
  rw [Turn.diffPages] at h
  split_ifs at h with hmodified
  · exact absurd h List.not_mem_nil
  · rw [List.mem_singleton.1 h]
    exact isGenerated_diffHtmlFilePath _ _

namespace Turn

/-! The four parts of the body of the loop. -/

variable (turn) in
def deletes : List Action := turn.delta.deleted.map (.delete turn.parent)

variable (turn) in
def diffs : List Action :=
  if turn.delta.modified = [] then [] else [.writeDiff turn.parentOid turn.commit.oid]

variable (turn) in
def writes : List Action :=
  (writtenFiles turn.parent turn.commit).map fun file => .write file.1 file.2.content

variable (turn decode) in
def lists : List Action :=
  (turn.entries decode).map fun entry => .list turn.parent (turn.searchedPath entry.path) entry

lemma actions_eq : turn.actions decode =
    turn.deletes ++ (turn.diffs ++ (turn.writes ++ turn.lists decode)) := by
  rw [← List.append_assoc, ← List.append_assoc]
  rfl

variable (hlists : turn.commit.ListsTheOthers decode) (hnames : turn.HasNames names)

include hlists in
lemma written_of_mem_entries {entry : IndexEntry} (h : entry ∈ turn.entries decode) :
    entry.path ∈ turn.written ∧ outputPath entry.path = htmlPath entry.path := by
  refine ⟨(path_of_mem_entries h).resolve_right fun hstray => ?_,
    outputPath_of_ne (ne_timestamps_of_mem_entries hlists.doesNotListItself h)⟩
  rw [strays_eq hlists] at hstray
  exact List.not_mem_nil hstray

include hnames in
lemma mem_names_of_written (h : p ∈ turn.written) : outputPath p ∈ names :=
  hnames.files p (mem_writtenPaths_iff.1 h).1

include hlists hnames in
lemma writesWithin_of_mem_actions {action : Action} (h : action ∈ turn.actions decode) :
    action.WritesWithin names := by
  rw [actions_eq, List.mem_append, List.mem_append, List.mem_append] at h
  rcases h with h | h | h | h
  · obtain ⟨p, hp, rfl⟩ := List.mem_map.1 h
    exact trivial
  · have hdiffs := hnames.diffs
    rw [diffs] at h
    rw [diffPages] at hdiffs
    split_ifs at h hdiffs with hmodified
    · exact absurd h List.not_mem_nil
    · rw [List.mem_singleton.1 h]
      exact hdiffs _ (List.mem_singleton_self _)
  · obtain ⟨file, hfile, rfl⟩ := List.mem_map.1 h
    exact mem_names_of_written hnames (List.mem_map_of_mem hfile)
  · obtain ⟨entry, hentry, rfl⟩ := List.mem_map.1 h
    obtain ⟨hwritten, hpage⟩ := written_of_mem_entries hlists hentry
    have hname := mem_names_of_written hnames hwritten
    rwa [hpage] at hname

include hnames in
lemma not_isGenerated_of_mem_deleted (hp : p ∈ turn.delta.deleted) :
    ¬IsGenerated (htmlPath p) := by
  by_cases hts : p = lastModifiedTimestampsFilepath
  · rw [hts]
    exact not_isGenerated_htmlPath
  · obtain ⟨-, old, hold, hmem⟩ := mem_deleted_iff.1 hp
    rw [← outputPath_of_ne hts]
    exact hnames.parentNotGenerated old hold p hmem

include hnames in
/-- The pages of what was deleted can be removed, but for that of the timestamps file. -/
lemma deletes_succeed_iff (h : Mirrors turn.parent [] s.destination) :
    (Script.perform (Action.perform decode) turn.deletes s).2 = true ↔
      lastModifiedTimestampsFilepath ∉ turn.delta.deleted ∧ ∀ p ∈ turn.delta.deleted,
        findsOldTimestamp decode turn.parent (filePath p) .empty = true := by
  refine deletes_iff h.nothingElse ?_ (fun p hp => ?_) fun p hp hts => ?_
  · rw [delta]
    cases turn.parent with
    | none => exact List.nodup_nil
    | some old => exact old.tree.keys_nodup.filter _
  · exact ne_nil_of_mem_touchedPaths (List.mem_append_right _ hp)
  · obtain ⟨-, old, hold, hmem⟩ := mem_deleted_iff.1 hp
    rw [← outputPath_of_ne hts]
    rw [hold] at h
    exact h.page_isSome hmem (hnames.parentNotGenerated old hold p hmem)

lemma temp_deletes :
    (Script.perform (Action.perform decode) turn.deletes s).1.temp = s.temp := by
  refine Script.perform_of_forall (I := fun s' : Session => s'.temp = s.temp)
    (fun action haction s' hs' => ?_) rfl
  obtain ⟨p, -, rfl⟩ := List.mem_map.1 haction
  rw [temp_delete, hs']

include hnames in
/-- A page with differences is none of those that are removed. -/
lemma fileAt_deletes_of_isGenerated (hq : IsGenerated q) :
    (Script.perform (Action.perform decode) turn.deletes s).1.destination.fileAt q =
      s.destination.fileAt q := by
  refine fileAt_performed (fun action haction => ?_) rfl
  obtain ⟨p, hp, rfl⟩ := List.mem_map.1 haction
  rintro rfl
  exact not_isGenerated_of_mem_deleted hnames hp hq

include hnames in
lemma diffs_succeed (h : s.destination.IsWithin names)
    (hfresh : ∀ q ∈ turn.diffPages, s.destination.fileAt q = none) :
    (Script.perform (Action.perform decode) turn.diffs s).2 = true := by
  have hdiffs := hnames.diffs
  rw [diffPages] at hfresh hdiffs
  rw [diffs]
  split_ifs at hfresh hdiffs ⊢ with hmodified
  · rfl
  · rw [Script.perform_singleton]
    exact writeDiff_succeeds h hnames.apart (hdiffs _ (List.mem_singleton_self _))
      (hfresh _ (List.mem_singleton_self _))

lemma temp_diffs : (Script.perform (Action.perform decode) turn.diffs s).1.temp = s.temp := by
  rw [diffs]
  split_ifs with hmodified
  · rfl
  · rw [Script.perform_singleton, temp_writeDiff]

include hnames in
lemma writes_succeed_iff (h : s.destination.IsWithin names) (htemp : s.temp.Holds written)
    (hapart : IsApart written) : (Script.perform (Action.perform decode) turn.writes s).2 = true ↔
      IsApart (written ++ turn.written) :=
  writes_iff h hnames.apart
    (fun _ hfile => mem_names_of_written hnames (List.mem_map_of_mem hfile)) htemp hapart
    fun _ hfile => ne_nil_of_mem_tree (mem_writtenPaths_iff.1 (List.mem_map_of_mem hfile)).1

include hlists in
lemma lists_succeed_iff
    (hok : (Script.perform (Action.perform decode) turn.writes s).2 = true) :
    (Script.perform (Action.perform decode) (turn.lists decode)
      (Script.perform (Action.perform decode) turn.writes s).1).2 = true ↔
        ∀ p ∈ turn.delta.modified, p ≠ lastModifiedTimestampsFilepath →
          findsOldTimestamp decode turn.parent (turn.searchedPath p) .modified = true := by
  have hpages : ∀ entry ∈ turn.entries decode, ((Script.perform (Action.perform decode)
      turn.writes s).1.destination.fileAt (htmlPath entry.path)).isSome := by
    intro entry hentry
    obtain ⟨hwritten, hpage⟩ := written_of_mem_entries hlists hentry
    obtain ⟨file, hfile, heq⟩ := List.mem_map.1 hwritten
    rw [← hpage, ← heq, writes, fileAt_writes (fun other hother =>
      ne_nil_of_mem_tree (mem_writtenPaths_iff.1 (List.mem_map_of_mem hother)).1)
      nodup_writtenPaths hok hfile]
    rfl
  exact (lists_iff hpages).trans (forall_entries_modified_iff (P := fun p =>
    findsOldTimestamp decode turn.parent (turn.searchedPath p) .modified = true) hlists)

include hlists hnames in
/-- **A turn succeeds** if it keeps the timestamps file, finds the times that it looks for, and
writes nothing to the temporary directory that is a folder of something else there. -/
theorem succeeds_iff (h : s.IsReady names written turn.parent) (hapart : IsApart written)
    (hfresh : ∀ q ∈ turn.diffPages, s.destination.fileAt q = none) :
    (Script.perform (Action.perform decode) (turn.actions decode) s).2 = true ↔
      turn.KeepsTimestamps ∧ turn.FindsOldTimestamps decode ∧
        IsApart (written ++ turn.written) := by
  have hwithin : ∀ action ∈ turn.actions decode, action.WritesWithin names :=
    fun action haction => writesWithin_of_mem_actions hlists hnames haction
  rw [actions_eq] at hwithin ⊢
  have hwithin₁ : (Script.perform (Action.perform decode) turn.deletes
      s).1.destination.IsWithin names :=
    isWithin_performed (fun action haction => hwithin action (List.mem_append_left _ haction))
      h.within
  have hdiffs : (Script.perform (Action.perform decode) turn.diffs
      (Script.perform (Action.perform decode) turn.deletes s).1).2 = true :=
    diffs_succeed hnames hwithin₁ fun q hq =>
      (fileAt_deletes_of_isGenerated hnames (isGenerated_of_mem_diffPages hq)).trans (hfresh q hq)
  have hwithin₂ : (Script.perform (Action.perform decode) turn.diffs
      (Script.perform (Action.perform decode) turn.deletes s).1).1.destination.IsWithin names :=
    isWithin_performed (fun action haction => hwithin action
      (List.mem_append_right _ (List.mem_append_left _ haction))) hwithin₁
  have htemp₂ : (Script.perform (Action.perform decode) turn.diffs
      (Script.perform (Action.perform decode) turn.deletes s).1).1.temp.Holds written := by
    rw [temp_diffs, temp_deletes]
    exact h.temp
  rw [Script.perform_append_iff, Script.perform_append_iff, Script.perform_append_iff,
    deletes_succeed_iff hnames h.mirrors, and_iff_right hdiffs]
  have hwrites : _ ↔ IsApart (written ++ turn.written) :=
    @writes_succeed_iff decode _ _ _ _ hnames hwithin₂ htemp₂ hapart
  constructor
  · rintro ⟨⟨hkeeps, hdeleted⟩, hwritten, hlisted⟩
    exact ⟨hkeeps, ⟨hdeleted, (lists_succeed_iff hlists hwritten).1 hlisted⟩,
      hwrites.1 hwritten⟩
  · rintro ⟨hkeeps, hfinds, hall⟩
    have hwritten := hwrites.2 hall
    exact ⟨⟨hkeeps, hfinds.deleted⟩, hwritten,
      (lists_succeed_iff hlists hwritten).2 hfinds.modified⟩

/-! What a turn leaves for the next one. -/

include hlists hnames in
theorem isReady_perform (h : s.IsReady names written turn.parent)
    (hok : (Script.perform (Action.perform decode) (turn.actions decode) s).2 = true) :
    (Script.perform (Action.perform decode) (turn.actions decode) s).1.IsReady names
      (written ++ turn.written) (some turn.commit) := by
  refine ⟨?_, ?_, ?_⟩
  · refine mirrors_perform turn hlists.doesNotListItself (fun p hp => ?_) h.mirrors.mono hok
    rwa [strays_eq hlists] at hp
  · exact isWithin_performed
      (fun action haction => writesWithin_of_mem_actions hlists hnames haction) h.within
  · rw [actions_eq] at hok ⊢
    obtain ⟨-, hdeletes⟩ := Script.perform_append_eq_true hok
    rw [hdeletes] at hok ⊢
    obtain ⟨-, hdiffs⟩ := Script.perform_append_eq_true hok
    rw [hdiffs] at hok ⊢
    obtain ⟨hwrites, hlisted⟩ := Script.perform_append_eq_true hok
    rw [hlisted]
    refine Script.perform_of_forall (I := fun s : Session => s.temp.Holds (written ++ turn.written))
      (fun action haction s hs => ?_) (holds_writes ?_ (fun _ hfile =>
        ne_nil_of_mem_tree (mem_writtenPaths_iff.1 (List.mem_map_of_mem hfile)).1) hwrites)
    · obtain ⟨entry, -, rfl⟩ := List.mem_map.1 haction
      rwa [temp_list]
    · rw [temp_diffs, temp_deletes]
      exact h.temp

lemma indexHtmlFifo_perform
    (hok : (Script.perform (Action.perform decode) (turn.actions decode) s).2 = true) :
    (Script.perform (Action.perform decode) (turn.actions decode) s).1.indexHtmlFifo =
      turn.indexAfter decode s.indexHtmlFifo := by
  rw [actions_eq] at hok ⊢
  obtain ⟨hdeletes, hrest⟩ := Script.perform_append_eq_true hok
  rw [hrest] at hok ⊢
  obtain ⟨-, hrest⟩ := Script.perform_append_eq_true hok
  rw [hrest] at hok ⊢
  obtain ⟨-, hrest⟩ := Script.perform_append_eq_true hok
  rw [hrest] at hok ⊢
  rw [lists, indexHtmlFifo_lists hok, indexAfter]
  congr 1
  have hwrites : ∀ s : Session, (Script.perform (Action.perform decode)
      turn.writes s).1.indexHtmlFifo = s.indexHtmlFifo := fun s =>
    Script.perform_of_forall (I := fun s' : Session => s'.indexHtmlFifo = s.indexHtmlFifo)
      (fun action haction s' hs' => by
        obtain ⟨file, -, rfl⟩ := List.mem_map.1 haction
        rw [indexHtmlFifo_write, hs']) rfl
  have hdiffs : ∀ s : Session, (Script.perform (Action.perform decode)
      turn.diffs s).1.indexHtmlFifo = s.indexHtmlFifo := fun s => by
    rw [diffs]
    split_ifs with hmodified
    · rfl
    · rw [Script.perform_singleton, indexHtmlFifo_writeDiff]
  rw [hwrites, hdiffs, deletes, indexHtmlFifo_deletes hdeletes]

include hlists hnames in
/-- The page with the differences of another turn is left alone. -/
lemma fileAt_perform_of_isGenerated (hq : IsGenerated q) (hother : q ∉ turn.diffPages) :
    (Script.perform (Action.perform decode) (turn.actions decode) s).1.destination.fileAt q =
      s.destination.fileAt q := by
  refine fileAt_performed (fun action haction => ?_) rfl
  rw [actions_eq, List.mem_append, List.mem_append, List.mem_append] at haction
  rintro rfl
  rcases haction with h | h | h | h
  · obtain ⟨p, hp, rfl⟩ := List.mem_map.1 h
    exact not_isGenerated_of_mem_deleted hnames hp hq
  · refine hother ?_
    rw [diffs] at h
    rw [diffPages]
    split_ifs at h ⊢ with hmodified
    · exact absurd h List.not_mem_nil
    · rw [List.mem_singleton.1 h]
      exact List.mem_singleton_self _
  · obtain ⟨file, hfile, rfl⟩ := List.mem_map.1 h
    exact hnames.notGenerated _ (mem_writtenPaths_iff.1 (List.mem_map_of_mem hfile)).1 hq
  · obtain ⟨entry, hentry, rfl⟩ := List.mem_map.1 h
    obtain ⟨hwritten, hpage⟩ := written_of_mem_entries hlists hentry
    have hnot := hnames.notGenerated _ (mem_writtenPaths_iff.1 hwritten).1
    rw [hpage] at hnot
    exact hnot hq

end Turn

end Autobackup.QuickDirtyStaticGitWeb
