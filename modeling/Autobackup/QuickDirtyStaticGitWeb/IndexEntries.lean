import Autobackup.QuickDirtyStaticGitWeb.MirrorsHead

/-!
# The entries of the index

The settings keep the entries of the index from run to run, also after a run that has failed.  There
are never more than a hundred, none is about the timestamps file, and no file is said to be modified
twice.  A file that is said to be modified is there: it is in the commit that was handled last, or
in one that is still to be handled, so after a run that succeeds the index has no modification with
a link to a page that is gone.

A file that was created keeps its entry as long as there is room, with the text of the file in it;
one that was modified has a link.  Left out are the text of the page around the entries, and the
archive pages.
-/

namespace Autobackup.QuickDirtyStaticGitWeb

open QString

namespace IndexHtmlFifo

/-- The files that the index says are modified. -/
def modifiedPaths (fifo : IndexHtmlFifo) : List Path :=
  (fifo.filter fun entry => entry.html = .modified).map IndexEntry.path

/-- The entries are in order, where the modified files are in one of these commits. -/
structure IsSound (commits : List Commit) (fifo : IndexHtmlFifo) : Prop where
  atMost : fifo.length ≤ maxEntries
  noTimestamps : ∀ entry ∈ fifo, entry.path ≠ lastModifiedTimestampsFilepath
  nodup : fifo.modifiedPaths.Nodup
  linked : ∀ p ∈ fifo.modifiedPaths, ∃ c ∈ commits, p ∈ c.tree

variable {commits commits' : List Commit} {fifo fifo' : IndexHtmlFifo} {p q : Path}
  {entry : IndexEntry}

lemma modifiedPaths_append :
    modifiedPaths (fifo ++ fifo') = modifiedPaths fifo ++ modifiedPaths fifo' := by
  rw [modifiedPaths, List.filter_append, List.map_append]
  rfl

lemma modifiedPaths_cons (h : entry.html = .modified) :
    modifiedPaths (entry :: fifo) = entry.path :: modifiedPaths fifo := by
  rw [modifiedPaths, List.filter_cons, if_pos (decide_eq_true h)]
  rfl

lemma mem_modifiedPaths_cons : p ∈ modifiedPaths (entry :: fifo) ↔
    (entry.html = .modified ∧ p = entry.path) ∨ p ∈ modifiedPaths fifo := by
  by_cases hmodified : entry.html = .modified
  · rw [modifiedPaths_cons hmodified, List.mem_cons]
    exact or_congr_left (and_iff_right hmodified).symm
  · rw [modifiedPaths, List.filter_cons, if_neg (by rwa [decide_eq_true_eq])]
    exact (or_iff_right fun h => hmodified h.1).symm

lemma IsSound.sublist (h : fifo.IsSound commits) (hsub : fifo'.Sublist fifo) :
    fifo'.IsSound commits where
  atMost := hsub.length_le.trans h.atMost
  noTimestamps entry hentry := h.noTimestamps entry (hsub.subset hentry)
  nodup := ((hsub.filter _).map _).nodup h.nodup
  linked p hp := h.linked p (((hsub.filter _).map _).subset hp)

lemma IsSound.mono (h : fifo.IsSound commits)
    (hcommits : ∀ p, (∃ c ∈ commits, p ∈ c.tree) → ∃ c ∈ commits', p ∈ c.tree) :
    fifo.IsSound commits' :=
  { h with linked := fun p hp => hcommits p (h.linked p hp) }

lemma removeModificationEntries_sublist : (fifo.removeModificationEntries p).Sublist fifo :=
  List.eraseP_sublist

/-- There was no more than one modification of the file. -/
lemma not_mem_removeModificationEntries (h : fifo.modifiedPaths.Nodup) :
    p ∉ (fifo.removeModificationEntries p).modifiedPaths := by
  induction fifo with
  | nil => exact List.not_mem_nil
  | cons entry rest ih =>
      rw [removeModificationEntries, List.eraseP_cons]
      by_cases hentry : entry.path = p ∧ entry.html = .modified
      · rw [decide_eq_true hentry, cond_true]
        rw [modifiedPaths_cons hentry.2, List.nodup_cons, hentry.1] at h
        exact h.1
      · rw [decide_eq_false hentry, cond_false, mem_modifiedPaths_cons, not_or]
        refine ⟨fun hsame => hentry ⟨hsame.2.symm, hsame.1⟩, ih ?_⟩
        exact (((List.sublist_cons_self entry rest).filter _).map _).nodup h

lemma IsSound.myEnqueue (h : fifo.IsSound commits)
    (hentry : entry.html = .modified → ∃ c ∈ commits, entry.path ∈ c.tree) :
    (fifo.myEnqueue entry).IsSound commits := by
  rw [IndexHtmlFifo.myEnqueue]
  split_ifs with htimestamps
  · exact h
  · have hrest := h.sublist (removeModificationEntries_sublist (p := entry.path))
    have hmodified : ∀ p ∈ modifiedPaths [entry], entry.html = .modified ∧ p = entry.path :=
      fun p hp => (mem_modifiedPaths_cons.1 hp).resolve_right List.not_mem_nil
    have hnodup : (modifiedPaths
        (fifo.removeModificationEntries entry.path ++ [entry])).Nodup := by
      rw [modifiedPaths_append, List.nodup_append']
      refine ⟨hrest.nodup, ?_, fun p hp hp' => ?_⟩
      · exact ((List.filter_sublist (l := [entry])).map IndexEntry.path).nodup
          (List.nodup_singleton _)
      · rw [(hmodified p hp').2] at hp
        exact not_mem_removeModificationEntries h.nodup hp
    have hdrop := List.drop_sublist ((removeModificationEntries fifo entry.path ++ [entry]).length -
      maxEntries) (removeModificationEntries fifo entry.path ++ [entry])
    refine ⟨?_, fun other hother => ?_, ((hdrop.filter _).map _).nodup hnodup, fun p hp => ?_⟩
    · rw [List.length_drop]
      omega
    · rcases List.mem_append.1 (hdrop.subset hother) with hold | hnew
      · exact hrest.noTimestamps other hold
      · rw [List.mem_singleton.1 hnew]
        exact htimestamps
    · have hp' : p ∈ modifiedPaths (fifo.removeModificationEntries entry.path ++ [entry]) :=
        ((hdrop.filter _).map _).subset hp
      rw [modifiedPaths_append] at hp'
      rcases List.mem_append.1 hp' with hold | hnew
      · exact hrest.linked p hold
      · obtain ⟨hkind, rfl⟩ := hmodified p hnew
        exact hentry hkind

/-! ## The texts for the index -/

lemma modifiedPaths_updateSecond :
    (modifiedPaths (updateSecond fifo p)).Sublist (modifiedPaths fifo) := by
  induction fifo with
  | nil => exact List.Sublist.refl _
  | cons entry rest ih =>
      rw [updateSecond]
      split_ifs with hentry
      · exact ((List.sublist_cons_self entry rest).filter _).map _
      · rw [modifiedPaths, modifiedPaths, List.filter_cons, List.filter_cons]
        split_ifs with hmodified
        · exact ih.cons_cons entry.path
        · exact ih

lemma length_updateSecond : (updateSecond fifo p).length = fifo.length := by
  induction fifo with
  | nil => rfl
  | cons entry rest ih =>
      rw [updateSecond]
      split_ifs with hentry
      · rfl
      · rw [List.length_cons, List.length_cons, ih]

lemma map_path_updateSecond :
    (updateSecond fifo p).map IndexEntry.path = fifo.map IndexEntry.path := by
  induction fifo with
  | nil => rfl
  | cons entry rest ih =>
      rw [updateSecond]
      split_ifs with hentry
      · rw [List.map_cons, List.map_cons, hentry]
      · rw [List.map_cons, List.map_cons, ih]

lemma IsSound.updateSecond (h : fifo.IsSound commits) :
    (IndexHtmlFifo.updateSecond fifo p).IsSound commits where
  atMost := length_updateSecond.trans_le h.atMost
  noTimestamps entry hentry := by
    have hpath := List.mem_map_of_mem (f := IndexEntry.path) hentry
    rw [map_path_updateSecond] at hpath
    obtain ⟨old, hold, heq⟩ := List.mem_map.1 hpath
    rw [← heq]
    exact h.noTimestamps old hold
  nodup := modifiedPaths_updateSecond.nodup h.nodup
  linked p hp := h.linked p (modifiedPaths_updateSecond.subset hp)

lemma IsSound.afterIndex (h : fifo.IsSound commits) : fifo.afterIndex.IsSound commits := by
  rw [IndexHtmlFifo.afterIndex]
  suffices hfold : ∀ (paths : List Path) (fifo : IndexHtmlFifo), fifo.IsSound commits →
      IsSound commits (paths.foldl IndexHtmlFifo.updateSecond fifo) from hfold _ _ h
  intro paths
  induction paths with
  | nil => exact fun fifo h => h
  | cons p rest ih => exact fun fifo h => ih _ h.updateSecond

end IndexHtmlFifo

/-! ## A run -/

variable {decode : Blob → Text} {parent : Option Commit} {c : Commit}
  {commits pending : List Commit} {s : Session} {actions : List Action} {turn : Turn} {p : Path}
  {parentOid : Text}

/-- What it says is modified is in one of the commits. -/
def Action.IsLinked (commits : List Commit) : Action → Prop
  | .list _ _ entry => entry.html = .modified → ∃ c ∈ commits, entry.path ∈ c.tree
  | _ => True

lemma isSound_perform {action : Action} (haction : action.IsLinked commits)
    (h : s.indexHtmlFifo.IsSound commits) :
    (action.perform decode s).1.indexHtmlFifo.IsSound commits := by
  cases action with
  | delete parent p =>
      rw [Action.perform]
      cases s.destination.remove (htmlPath p) with
      | none => exact h
      | some destination => exact h.sublist IndexHtmlFifo.removeModificationEntries_sublist
  | writeDiff parentOid oid =>
      rw [Action.perform]
      split_ifs with hexists
      · exact h
      · cases s.destination.put (diffHtmlFilePath parentOid oid) (.diff oid) with
        | none => exact h
        | some destination => exact h
  | write p content =>
      rw [Action.perform]
      cases s.temp.put p content with
      | none => exact h
      | some temp =>
          cases s.destination.put (outputPath p) (fileHtml p content) with
          | none => exact h
          | some destination => exact h
  | list parent searched entry =>
      rw [Action.perform]
      cases s.destination.touch (htmlPath entry.path) (.raw []) with
      | none => exact h
      | some destination => exact h.myEnqueue haction
  | writeIndex =>
      rw [Action.perform]
      split_ifs with hfiles
      · cases s.destination.put indexHtml .index with
        | none => exact h.afterIndex
        | some destination => exact h.afterIndex
      · exact h

lemma isSound_performed (hactions : ∀ action ∈ actions, action.IsLinked commits)
    (h : s.indexHtmlFifo.IsSound commits) :
    (Script.perform (Action.perform decode) actions s).1.indexHtmlFifo.IsSound commits :=
  Script.perform_of_forall (I := fun s : Session => s.indexHtmlFifo.IsSound commits)
    (fun action haction _ hs => isSound_perform (hactions action haction) hs) h

lemma mem_tree_of_mem_modified (h : p ∈ (deltaTo parent c).modified) : p ∈ c.tree := by
  cases parent with
  | none => exact absurd h List.not_mem_nil
  | some old => exact List.mem_of_mem_filter h

namespace Turn

lemma mem_tree_of_mem_entries {entry : IndexEntry} (h : entry ∈ turn.entries decode)
    (hmodified : entry.html = .modified) : entry.path ∈ turn.commit.tree := by
  rw [entries] at h
  split_ifs at h with hroot
  · obtain ⟨p, hp, rfl⟩ := List.mem_map.1 h
    exact absurd hmodified EntryHtml.noConfusion
  · obtain ⟨-, ⟨-, hempty⟩ | ⟨hp, -⟩⟩ := path_of_mem_takeEntries h
    · exact absurd (hempty.symm.trans hmodified) EntryHtml.noConfusion
    · exact mem_tree_of_mem_modified hp

lemma isLinked_of_mem_actions (hc : turn.commit ∈ commits) {action : Action}
    (h : action ∈ turn.actions decode) : action.IsLinked commits := by
  rcases mem_actions h with ⟨p, -, rfl⟩ | rfl | ⟨file, -, rfl⟩ | ⟨entry, hentry, rfl⟩
  · exact trivial
  · exact trivial
  · exact trivial
  · exact fun hmodified => ⟨turn.commit, hc, mem_tree_of_mem_entries hentry hmodified⟩

end Turn

lemma isLinked_of_mem_runActions (hpending : ∀ c ∈ pending, c ∈ commits) {action : Action}
    (h : action ∈ runActions decode parent parentOid pending) : action.IsLinked commits := by
  induction pending generalizing parent parentOid with
  | nil =>
      rw [List.mem_singleton.1 h]
      exact trivial
  | cons c rest ih =>
      rcases List.mem_append.1 h with h | h
      · exact Turn.isLinked_of_mem_actions (hpending c List.mem_cons_self) h
      · exact ih (fun c hc => hpending c (List.mem_cons_of_mem _ hc)) h

/-- The modifications of the files that were deleted are gone. -/
lemma not_mem_modifiedPaths_of_deletes {deleted : List Path}
    (h : s.indexHtmlFifo.IsSound commits)
    (hok : (Script.perform (Action.perform decode) (deleted.map (.delete parent)) s).2 = true)
    (hp : p ∈ deleted) :
    p ∉ (Script.perform (Action.perform decode)
      (deleted.map (.delete parent)) s).1.indexHtmlFifo.modifiedPaths := by
  induction deleted generalizing s with
  | nil => exact absurd hp List.not_mem_nil
  | cons first rest ih =>
      rw [List.map_cons] at hok ⊢
      obtain ⟨hfirst, hrest⟩ := Script.perform_cons_eq_true hok
      rw [hrest] at hok ⊢
      rcases List.mem_cons.1 hp with rfl | hp
      · have hgone : p ∉ ((Action.delete parent p).perform decode
            s).1.indexHtmlFifo.modifiedPaths := by
          rw [Action.perform] at hfirst ⊢
          cases hremove : s.destination.remove (htmlPath p) with
          | none =>
              rw [hremove] at hfirst
              exact absurd hfirst Bool.false_ne_true
          | some destination => exact IndexHtmlFifo.not_mem_removeModificationEntries h.nodup
        refine Script.perform_of_forall
          (I := fun s : Session => p ∉ s.indexHtmlFifo.modifiedPaths) ?_ hgone
        intro action haction s hs
        obtain ⟨q, -, rfl⟩ := List.mem_map.1 haction
        rw [Action.perform]
        cases s.destination.remove (htmlPath q) with
        | none => exact hs
        | some destination =>
            exact fun h => hs (((IndexHtmlFifo.removeModificationEntries_sublist.filter _).map
              _).subset h)
      · exact ih (isSound_perform trivial h) hok hp

/-- **A turn that succeeds** leaves no modification of a file that its commit has deleted. -/
lemma isSound_turn (turn : Turn) (hparent : turn.parent.toList ++ turn.commit :: pending = commits)
    (h : s.indexHtmlFifo.IsSound commits)
    (hok : (Script.perform (Action.perform decode) (turn.actions decode) s).2 = true) :
    (Script.perform (Action.perform decode) (turn.actions decode) s).1.indexHtmlFifo.IsSound
      (turn.commit :: pending) := by
  have hlinked : ∀ action ∈ turn.actions decode, action.IsLinked (turn.commit :: pending) :=
    fun action haction => Turn.isLinked_of_mem_actions List.mem_cons_self haction
  rw [Turn.actions, List.append_assoc, List.append_assoc] at hok hlinked ⊢
  obtain ⟨hdelete, hrest⟩ := Script.perform_append_eq_true hok
  rw [hrest]
  refine isSound_performed (fun action haction => hlinked action (List.mem_append_right _ haction))
    ?_
  have hafter : (Script.perform (Action.perform decode) ((deltaTo turn.parent
      turn.commit).deleted.map (.delete turn.parent)) s).1.indexHtmlFifo.IsSound commits :=
    isSound_performed (fun action haction => by
      obtain ⟨p, -, rfl⟩ := List.mem_map.1 haction
      exact trivial) h
  refine { hafter with linked := fun p hp => ?_ }
  obtain ⟨c, hc, hmem⟩ := hafter.linked p hp
  rw [← hparent] at hc
  rcases List.mem_append.1 hc with hc | hc
  · by_cases htree : p ∈ turn.commit.tree
    · exact ⟨turn.commit, List.mem_cons_self, htree⟩
    · have hdeleted : p ∈ (deltaTo turn.parent turn.commit).deleted :=
        mem_deleted_iff.2 ⟨htree, c, Option.mem_toList.1 hc, hmem⟩
      exact absurd hp (not_mem_modifiedPaths_of_deletes h hdelete hdeleted)
  · exact ⟨c, hc, hmem⟩

/-- **A run that succeeds** leaves no modification of a file that is not in its last commit. -/
lemma isSound_run (h : s.indexHtmlFifo.IsSound (parent.toList ++ pending))
    (hok : (Script.perform (Action.perform decode)
      (runActions decode parent parentOid pending) s).2 = true) :
    (Script.perform (Action.perform decode)
      (runActions decode parent parentOid pending) s).1.indexHtmlFifo.IsSound
        (pending.getLast?.or parent).toList := by
  induction pending generalizing parent parentOid s with
  | nil =>
      rw [List.append_nil] at h
      exact isSound_performed (fun action haction => by
        rw [List.mem_singleton.1 haction]
        exact trivial) h
  | cons c rest ih =>
      rw [runActions] at hok ⊢
      obtain ⟨hturn, hrest⟩ := Script.perform_append_eq_true hok
      rw [hrest] at hok ⊢
      have hlast : (c :: rest).getLast?.or parent = rest.getLast?.or (some c) := by
        cases rest with
        | nil => rfl
        | cons d more => rfl
      rw [hlast]
      exact ih (isSound_turn ⟨parent, c, parentOid⟩ rfl h hturn) hok

/-! ## Run after run -/

namespace GitWeb

/-- The modified files are in the commit that was handled last, or in a later one.  That covers a
run that has failed, whose entries are kept though its commits are done again. -/
def IndexIsSound (s : GitWeb) : Prop :=
  s.indexHtmlFifo.IsSound (s.parent.toList ++ s.pending)

lemma IndexIsSound.step {s : GitWeb} (h : s.IndexIsSound) (event : GitWebEvent) :
    (s.step decode event).IndexIsSound := by
  have hlinked : ∀ parentOid, ∀ action ∈ runActions decode s.parent parentOid s.pending,
      action.IsLinked (s.parent.toList ++ s.pending) := fun parentOid action haction =>
    isLinked_of_mem_runActions (fun c hc => List.mem_append_right _ hc) haction
  cases event with
  | commit c =>
      refine h.mono ?_
      rintro p ⟨d, hd, hmem⟩
      refine ⟨d, ?_, hmem⟩
      rw [GitWeb.step, ← List.append_assoc]
      exact List.mem_append_left _ hd
  | run parentOid =>
      rw [GitWeb.step]
      split_ifs with hpending
      · exact h
      · cases hok : (s.performed decode (runActions decode s.parent parentOid s.pending)).2 with
        | false =>
            rw [generateStaticGitWeb_of_fails hok]
            exact isSound_performed (s := s.session) (hlinked parentOid) h
        | true =>
            rw [generateStaticGitWeb_of_succeeds hok, IndexIsSound, parent, List.getLast?_append,
              List.append_nil]
            exact isSound_run (s := s.session) h hok
  | stopped parentOid n killed =>
      rw [GitWeb.step]
      split_ifs with hpending
      · exact h
      · rw [stop, IndexIsSound]
        split_ifs with hkilled
        · exact h
        · exact isSound_performed (s := s.session)
            (fun action haction => hlinked parentOid action (List.mem_of_mem_take haction)) h

/-- **The index is in order**, whatever was committed and however the runs ended.

It asks nothing of the commits or of the runs.  An entry about a file that was deleted would link to
a page that does not exist, and the queue is the only thing that remembers it from one run to the
next. -/
theorem indexIsSound (events : List GitWebEvent) :
    Machine.HoldsThroughout (GitWeb.step decode) IndexIsSound initial events := by
  refine Machine.holdsThroughout_of_step (fun s event hs => hs.step event) ?_
  exact ⟨Nat.zero_le _, fun entry hentry => absurd hentry List.not_mem_nil, List.nodup_nil,
    fun p hp => absurd hp List.not_mem_nil⟩

end GitWeb

end Autobackup.QuickDirtyStaticGitWeb
