import Autobackup.QuickDirtyStaticGitWeb.MirrorsHead

/-!
# Pages that were removed by a run that did not succeed

A run that goes on from a commit does all of its commits again, also those that a run before has
done and not noted.  A page is removed for a file that a commit has deleted, and that fails where
the page is not there.  So if a run has removed the page of a file, and then fails or is killed, no
later run succeeds, whatever is committed.

The same is true of a commit that deletes the timestamps file, which has no page at all.  That needs
timestamps files that do not list themselves; of other files nothing is asked of the commits, since
a file that is deleted before it is written was there before (`DeletesFirst.exists_parent`), and
only a run that begins with the first commit touches what is no file.  Left out are the pages that
the program makes itself: one of those that was removed is made again by the next run.

`HasLost` is the state behind a run that was killed between the removal of a page and noting the
commit.  From there on a person has to put the page back by hand, or no commit is published again.
-/

namespace Autobackup.QuickDirtyStaticGitWeb

open QString

/-- Of these commits, one deletes the file, and none before it makes its page. -/
def DeletesFirst (parent : Option Commit) (p : Path) : List Commit → Prop
  | [] => False
  | c :: rest =>
      p ∈ (deltaTo parent c).deleted ∨
        (p ∈ writtenPaths parent c → p = lastModifiedTimestampsFilepath) ∧
          DeletesFirst (some c) p rest

instance decidableDeletesFirst (parent : Option Commit) (p : Path) (commits : List Commit) :
    Decidable (DeletesFirst parent p commits) :=
  match commits with
  | [] => .isFalse id
  | c :: rest =>
      have := decidableDeletesFirst (some c) p rest
      inferInstanceAs (Decidable (_ ∨ _ ∧ _))

variable {decode : Blob → Text} {parent : Option Commit} {c : Commit} {pending : List Commit}
  {s : Session} {turn : Turn} {p : Path} {parentOid : Text}

lemma DeletesFirst.append (h : DeletesFirst parent p pending) :
    DeletesFirst parent p (pending ++ [c]) := by
  induction pending generalizing parent with
  | nil => exact h.elim
  | cons first rest ih => exact h.imp_right fun hrest => ⟨hrest.1, ih hrest.2⟩

lemma DeletesFirst.ne_nil (h : DeletesFirst parent p pending) : p ≠ [] := by
  induction pending generalizing parent with
  | nil => exact h.elim
  | cons first rest ih =>
      rcases h with hdeleted | ⟨-, hrest⟩
      · exact ne_nil_of_mem_touchedPaths (List.mem_append_right _ hdeleted)
      · exact ih hrest

/-- A file that is deleted before it is written was there before. -/
lemma DeletesFirst.exists_parent (h : DeletesFirst parent p pending)
    (hne : p ≠ lastModifiedTimestampsFilepath) : ∃ old ∈ parent, p ∈ old.tree := by
  induction pending generalizing parent with
  | nil => exact h.elim
  | cons c rest ih =>
      rcases h with hdeleted | ⟨hwritten, hrest⟩
      · exact (mem_deleted_iff.1 hdeleted).2
      · obtain ⟨c', hc', htree⟩ := ih hrest
        obtain rfl := Option.some.inj hc'
        by_contra hnone
        refine hne (hwritten (mem_writtenPaths_iff.2 ⟨htree, ?_⟩))
        cases parent with
        | none => exact .inl rfl
        | some old =>
            have hnot : p ∉ old.tree := fun hold => hnone ⟨old, rfl, hold⟩
            exact .inr (.inr (List.mem_filter.2 ⟨htree, decide_eq_true hnot⟩))

/-- The page is not there, as the session of a run has it. -/
def Session.Lacks (s : Session) (p : Path) : Prop := s.destination.fileAt (htmlPath p) = none

lemma lacks_deletes {deleted : List Path} (h : s.Lacks p) :
    (Script.perform (Action.perform decode) (deleted.map (.delete parent)) s).1.Lacks p := by
  refine Script.perform_of_forall (I := fun s : Session => s.Lacks p) ?_ h
  intro action haction s hs
  obtain ⟨q, -, rfl⟩ := List.mem_map.1 haction
  exact Action.fileAt_delete_eq_none hs

/-- The page would have to be removed. -/
lemma deletes_fails {deleted : List Path} (h : s.Lacks p) (hp : p ∈ deleted) :
    (Script.perform (Action.perform decode) (deleted.map (.delete parent)) s).2 = false := by
  obtain ⟨before, after, rfl⟩ := List.append_of_mem hp
  by_contra hok
  rw [Bool.not_eq_false, List.map_append, List.map_cons] at hok
  obtain ⟨-, hrest⟩ := Script.perform_append_eq_true hok
  rw [hrest] at hok
  have hfile := (Action.perform_delete (Script.perform_cons_eq_true hok).1).1
  have hnone : (Script.perform (Action.perform decode)
      (before.map (.delete parent)) s).1.destination.fileAt (htmlPath p) = none := lacks_deletes h
  rw [hnone] at hfile
  exact Bool.false_ne_true hfile

/-- Nothing is listed that is not written, but by the first commit and for the timestamps file. -/
lemma ne_path_of_mem_entries
    (hlists : p = lastModifiedTimestampsFilepath → turn.commit.DoesNotListItself decode)
    (hparent : p ≠ lastModifiedTimestampsFilepath → turn.parent.isSome)
    (hp : p ∈ writtenPaths turn.parent turn.commit → p = lastModifiedTimestampsFilepath)
    {entry : IndexEntry} (hentry : entry ∈ turn.entries decode) : entry.path ≠ p := by
  by_cases hts : p = lastModifiedTimestampsFilepath
  · rw [hts]
    exact Turn.ne_timestamps_of_mem_entries (hlists hts) hentry
  · rintro rfl
    rcases Turn.path_of_mem_entries hentry with hwritten | hstray
    · exact hts (hp hwritten)
    · obtain ⟨old, hold⟩ := Option.isSome_iff_exists.1 (hparent hts)
      rw [Turn.strays, hold] at hstray
      exact List.not_mem_nil hstray

/-- An action for a commit that does not write the file makes no page for it. -/
lemma lacks_perform (turn : Turn)
    (hlists : p = lastModifiedTimestampsFilepath → turn.commit.DoesNotListItself decode)
    (hparent : p ≠ lastModifiedTimestampsFilepath → turn.parent.isSome) (hne : p ≠ [])
    (hgenerated : ¬IsGenerated (htmlPath p))
    (hp : p ∈ writtenPaths turn.parent turn.commit → p = lastModifiedTimestampsFilepath)
    {action : Action} (haction : action ∈ turn.actions decode) (h : s.Lacks p) :
    (action.perform decode s).1.Lacks p := by
  rcases Turn.mem_actions haction with ⟨q, -, rfl⟩ | rfl | ⟨file, hfile, rfl⟩ | ⟨entry, hentry, rfl⟩
  · exact Action.fileAt_delete_eq_none h
  · refine (Action.fileAt_perform fun heq => hgenerated ?_).trans h
    rw [heq]
    exact isGenerated_diffHtmlFilePath _ _
  · refine (Action.fileAt_perform fun heq => ?_).trans h
    have hwritten : file.1 ∈ writtenPaths turn.parent turn.commit := List.mem_map_of_mem hfile
    have hfile' := ne_nil_of_mem_tree (mem_writtenPaths_iff.1 hwritten).1
    by_cases hts : p = lastModifiedTimestampsFilepath
    · rw [hts] at heq
      exact outputPath_ne_htmlPath hfile' heq.symm
    · have hsame := outputPath_injective hne hfile' ((outputPath_of_ne hts).trans heq)
      rw [← hsame] at hwritten
      exact hts (hp hwritten)
  · have hother := ne_path_of_mem_entries hlists hparent hp hentry
    have hentry' := Turn.ne_nil_of_mem_entries hentry
    exact (Action.fileAt_perform
      fun heq => hother (htmlPath_injective hne hentry' heq).symm).trans h

/-- **However far a run gets**, the page is still not there. -/
lemma lacks_take
    (hlists : p = lastModifiedTimestampsFilepath → ∀ c ∈ pending, c.DoesNotListItself decode)
    (hgenerated : ¬IsGenerated (htmlPath p)) (h : s.Lacks p) (hp : DeletesFirst parent p pending)
    (n : ℕ) :
    (Script.perform (Action.perform decode)
      ((runActions decode parent parentOid pending).take n) s).1.Lacks p := by
  induction pending generalizing parent parentOid s n with
  | nil => exact hp.elim
  | cons c rest ih =>
      have hparent (hne : p ≠ lastModifiedTimestampsFilepath) : parent.isSome := by
        obtain ⟨old, hold, -⟩ := hp.exists_parent hne
        exact Option.isSome_of_mem hold
      rw [runActions]
      rcases hp with hdeleted | ⟨hwritten, hrest⟩
      · rw [Turn.actions, List.append_assoc, List.append_assoc, List.append_assoc, List.take_append]
        by_cases hn : n ≤ ((deltaTo parent c).deleted.map (Action.delete parent)).length
        · rw [Nat.sub_eq_zero_of_le hn, List.take_zero, List.append_nil, ← List.map_take]
          exact lacks_deletes h
        · rw [List.take_of_length_le (Nat.le_of_not_le hn),
            Script.perform_append_of_fails (deletes_fails h hdeleted)]
          exact lacks_deletes h
      · have hturn : ((Script.perform (Action.perform decode)
            ((Turn.actions decode ⟨parent, c, parentOid⟩).take n) s).1).Lacks p :=
          Script.perform_of_forall (I := fun s : Session => s.Lacks p)
            (fun action haction _ hs => lacks_perform ⟨parent, c, parentOid⟩
              (fun hts => hlists hts c List.mem_cons_self) hparent hrest.ne_nil hgenerated hwritten
              (List.mem_of_mem_take haction) hs) h
        rw [List.take_append]
        cases hok : (Script.perform (Action.perform decode)
          ((Turn.actions decode ⟨parent, c, parentOid⟩).take n) s).2 with
        | false =>
            rw [Script.perform_append_of_fails hok]
            exact hturn
        | true =>
            rw [Script.perform_append_of_succeeds hok]
            exact ih (fun hts c hc => hlists hts c (List.mem_cons_of_mem _ hc)) hturn hrest _

/-- **A run fails**, at the latest at the commit that deletes the file. -/
lemma run_fails
    (hlists : p = lastModifiedTimestampsFilepath → ∀ c ∈ pending, c.DoesNotListItself decode)
    (hgenerated : ¬IsGenerated (htmlPath p)) (h : s.Lacks p)
    (hp : DeletesFirst parent p pending) :
    (Script.perform (Action.perform decode) (runActions decode parent parentOid pending) s).2 =
      false := by
  induction pending generalizing parent parentOid s with
  | nil => exact hp.elim
  | cons c rest ih =>
      have hparent (hne : p ≠ lastModifiedTimestampsFilepath) : parent.isSome := by
        obtain ⟨old, hold, -⟩ := hp.exists_parent hne
        exact Option.isSome_of_mem hold
      by_contra hok
      rw [Bool.not_eq_false, runActions] at hok
      obtain ⟨hturn, hrun⟩ := Script.perform_append_eq_true hok
      rcases hp with hdeleted | ⟨hwritten, hrest⟩
      · rw [Turn.actions, List.append_assoc, List.append_assoc] at hturn
        have hdelete := (Script.perform_append_eq_true hturn).1
        rw [deletes_fails h hdeleted] at hdelete
        exact Bool.false_ne_true hdelete
      · have hlacks : ((Script.perform (Action.perform decode)
            (Turn.actions decode ⟨parent, c, parentOid⟩) s).1).Lacks p :=
          Script.perform_of_forall (I := fun s : Session => s.Lacks p)
            (fun action haction _ hs => lacks_perform ⟨parent, c, parentOid⟩
              (fun hts => hlists hts c List.mem_cons_self) hparent hrest.ne_nil hgenerated hwritten
              haction hs) h
        rw [hrun, ih (fun hts c hc => hlists hts c (List.mem_cons_of_mem _ hc)) hlacks hrest] at hok
        exact Bool.false_ne_true hok

/-! ## Run after run -/

namespace GitWeb

/-- The page is not there, and the first thing that the commits do is to delete the file. -/
structure HasLost (decode : Blob → Text) (p : Path) (s : GitWeb) : Prop where
  lacks : s.destination.fileAt (htmlPath p) = none
  deletes : DeletesFirst s.parent p s.pending
  lists : p = lastModifiedTimestampsFilepath → ∀ c ∈ s.pending, c.DoesNotListItself decode

lemma HasLost.step {s : GitWeb} (hgenerated : ¬IsGenerated (htmlPath p)) (h : s.HasLost decode p)
    {event : GitWebEvent}
    (hevent : p = lastModifiedTimestampsFilepath → event.DoesNotListItself decode) :
    (s.step decode event).HasLost decode p ∧ (s.step decode event).handled = s.handled := by
  have hlacks : s.session.Lacks p := h.lacks
  cases event with
  | commit c =>
      refine ⟨⟨h.lacks, h.deletes.append, fun hts c' hc' => ?_⟩, rfl⟩
      rcases List.mem_append.1 hc' with hc' | hc'
      · exact h.lists hts c' hc'
      · rw [List.mem_singleton.1 hc']
        exact hevent hts
  | run parentOid =>
      rw [GitWeb.step]
      split_ifs with hpending
      · exact ⟨h, rfl⟩
      · rw [generateStaticGitWeb_of_fails (run_fails h.lists hgenerated hlacks h.deletes)]
        have hafter : (Script.perform (Action.perform decode)
            ((runActions decode s.parent parentOid s.pending).take
              (runActions decode s.parent parentOid s.pending).length) s.session).1.Lacks p :=
          lacks_take h.lists hgenerated hlacks h.deletes _
        rw [List.take_length] at hafter
        exact ⟨⟨hafter, h.deletes, h.lists⟩, rfl⟩
  | stopped parentOid n killed =>
      rw [GitWeb.step]
      split_ifs with hpending
      · exact ⟨h, rfl⟩
      · exact ⟨⟨lacks_take h.lists hgenerated hlacks h.deletes n, h.deletes, h.lists⟩, rfl⟩

/-- **No commit is handled any more** once a page is gone that has to be removed.

The page need not be that of a file that is still in the repository.  What is needed is that the
commit which deletes it is still to be handled: each run goes through that commit, tries to remove
the page, and fails there. -/
theorem handled_of_hasLost {s : GitWeb} {events : List GitWebEvent}
    (hgenerated : ¬IsGenerated (htmlPath p)) (h : s.HasLost decode p)
    (hevents : p = lastModifiedTimestampsFilepath →
      ∀ event ∈ events, event.DoesNotListItself decode) :
    Machine.HoldsThroughout (GitWeb.step decode) (fun t => t.handled = s.handled) s events := by
  have hwithin : Machine.StaysWithin (GitWeb.step decode)
      (fun _ event => p = lastModifiedTimestampsFilepath → event.DoesNotListItself decode)
      s events :=
    Machine.staysWithin_of_forall fun event hevent hts => hevents hts event hevent
  have hall : Machine.HoldsThroughout (GitWeb.step decode)
      (fun t => t.HasLost decode p ∧ t.handled = s.handled) s events := by
    refine Machine.holdsThroughout_of_staysWithin (fun t event ht hevent => ?_) ⟨h, rfl⟩ hwithin
    obtain ⟨hnext, hsame⟩ := ht.1.step hgenerated hevent
    exact ⟨hnext, hsame.trans ht.2⟩
  exact hall.imp fun t ht => ht.2

end GitWeb

/-- A run that is killed when it has removed the page of the draft. -/
def killedWhilePublishing : GitWeb :=
  Machine.run (GitWeb.step latin1) GitWeb.initial
    [.commit drafted, .run [], .commit published, .stopped [] 1 true]

lemma hasLost_draft : killedWhilePublishing.HasLost latin1 ["draft".toList] :=
  ⟨by decide +kernel, by decide +kernel, fun hts => absurd hts (by decide)⟩

theorem handled_of_killedWhilePublishing :
    killedWhilePublishing.handled.length = 1 ∧
      Machine.HoldsThroughout (GitWeb.step latin1)
        (fun t => t.handled = killedWhilePublishing.handled) killedWhilePublishing
        [.run [], .commit drafted, .run [], .commit published, .run []] :=
  ⟨by decide +kernel,
    GitWeb.handled_of_hasLost (by decide) hasLost_draft fun hts => absurd hts (by decide)⟩

end Autobackup.QuickDirtyStaticGitWeb
