import Autobackup.QuickDirtyStaticGitWeb.SuccessfulTurns

/-!
# A history in runs that all succeed

However a linear history is split into runs: if every one of them succeeds, the pages are those of
its last commit, as they are after one run over the whole history.  `CanSucceed` says exactly which
runs succeed, where the timestamps files list the other files of their commits and the pages have
names of their own, and so `mirrorsHead_iff` says exactly how a history may be split.

A run succeeds if its turns do (`turns_succeed_iff`) and the index can be written.  That fails for
an entry without a text, which is read from the temporary directory, if this run has not written
the file.  There is such an entry after a file was created twice: of the two entries only the first
is given the text (`updateSecond`), and the other one is kept without.

None of that is about where the history was split.  But each run has a temporary directory of its
own, and the entries of the index go from one run to the next.  So a history may be handled in two
runs and not in one, or in one and not in two.
-/

namespace Autobackup.QuickDirtyStaticGitWeb

open QString WrittenTree

/-! ## Runs -/

/-- The turns of a run. -/
def turnsOf (parent : Option Commit) (parentOid : Text) : List Commit → List Turn
  | [] => []
  | c :: rest => ⟨parent, c, parentOid⟩ :: turnsOf (some c) c.oid rest

/-- Some commits, which are handled by one run. -/
structure Run where
  commits : List Commit
  new : commits ≠ []
  /-- What stands in `parentOid` when the run begins. -/
  parentOid : Text

namespace Run

variable (r : Run)

def head : Commit := r.commits.getLast r.new

def turns (parent : Option Commit) : List Turn := turnsOf parent r.parentOid r.commits

/-- What it writes to the temporary directory. -/
def written (parent : Option Commit) : List Path := (r.turns parent).flatMap Turn.written

/-- The entries of the index before it is written. -/
def indexAfter (decode : Blob → Text) (parent : Option Commit) (fifo : IndexHtmlFifo) :
    IndexHtmlFifo :=
  (r.turns parent).foldl (fun fifo turn => turn.indexAfter decode fifo) fifo

/-- It writes the files that the index is still to show. -/
def HasTexts (decode : Blob → Text) (parent : Option Commit) (fifo : IndexHtmlFifo) : Prop :=
  ∀ p ∈ (r.indexAfter decode parent fifo).withoutText, p ∈ r.written parent

instance (decode : Blob → Text) (parent : Option Commit) (fifo : IndexHtmlFifo) :
    Decidable (r.HasTexts decode parent fifo) :=
  inferInstanceAs (Decidable (∀ p ∈ _, p ∈ _))

end Run

/-- **The run can succeed**, from a state in which all commits before its own are handled. -/
structure GitWeb.CanSucceed (decode : Blob → Text) (s : GitWeb) (r : Run) : Prop where
  keepsTimestamps : ∀ turn ∈ r.turns s.parent, turn.KeepsTimestamps
  findsTimes : ∀ turn ∈ r.turns s.parent, turn.FindsOldTimestamps decode
  /-- Nothing that it writes is a folder of something else that it writes. -/
  apart : IsApart (r.written s.parent)
  texts : r.HasTexts decode s.parent s.indexHtmlFifo

instance (decode : Blob → Text) (s : GitWeb) (r : Run) : Decidable (s.CanSucceed decode r) :=
  decidable_of_iff (_ ∧ _ ∧ _ ∧ _) ⟨fun h => ⟨h.1, h.2.1, h.2.2.1, h.2.2.2⟩,
    fun h => ⟨h.keepsTimestamps, h.findsTimes, h.apart, h.texts⟩⟩

namespace GitWeb

/-- The commits are made, and then there is a run. -/
def afterRun (decode : Blob → Text) (s : GitWeb) (r : Run) : GitWeb :=
  Machine.run (GitWeb.step decode) s (r.commits.map .commit ++ [.run r.parentOid])

end GitWeb

variable {decode : Blob → Text} {parent : Option Commit} {parentOid : Text} {commits : List Commit}
  {s : Session} {names written : List Path} {p q : Path}

/-! ## The turns of a run -/

lemma runActions_eq : runActions decode parent parentOid commits =
    (turnsOf parent parentOid commits).flatMap (Turn.actions decode) ++ [.writeIndex] := by
  induction commits generalizing parent parentOid with
  | nil => rfl
  | cons c rest ih => rw [runActions, turnsOf, List.flatMap_cons, List.append_assoc, ih]

/-- **The turns succeed** if each of them does. -/
theorem turns_succeed_iff (hlists : ∀ c ∈ commits, c.ListsTheOthers decode)
    (hnames : ∀ turn ∈ turnsOf parent parentOid commits, turn.HasNames names)
    (hnew : ((turnsOf parent parentOid commits).flatMap Turn.diffPages).Nodup)
    (hfresh : ∀ q ∈ (turnsOf parent parentOid commits).flatMap Turn.diffPages,
      s.destination.fileAt q = none)
    (h : s.IsReady names written parent) (hapart : IsApart written) :
    (Script.perform (Action.perform decode)
      ((turnsOf parent parentOid commits).flatMap (Turn.actions decode)) s).2 = true ↔
        (∀ turn ∈ turnsOf parent parentOid commits,
          turn.KeepsTimestamps ∧ turn.FindsOldTimestamps decode) ∧
        IsApart (written ++ (turnsOf parent parentOid commits).flatMap Turn.written) := by
  induction commits generalizing parent parentOid s written with
  | nil =>
      rw [turnsOf, List.flatMap_nil, List.flatMap_nil, List.append_nil]
      exact iff_of_true rfl ⟨fun _ h => absurd h List.not_mem_nil, hapart⟩
  | cons c rest ih =>
      rw [turnsOf] at hnames hnew hfresh ⊢
      rw [List.flatMap_cons] at hnew hfresh
      obtain ⟨hfirst, hrest⟩ := List.forall_mem_cons.1 hnames
      obtain ⟨hlists₁, hlists⟩ := List.forall_mem_cons.1 hlists
      obtain ⟨-, hnew, hdisjoint⟩ := List.nodup_append'.1 hnew
      have hturn := Turn.succeeds_iff hlists₁ hfirst h hapart
        fun q hq => hfresh q (List.mem_append_left _ hq)
      have hnext (hok : (Script.perform (Action.perform decode)
            (Turn.actions decode ⟨parent, c, parentOid⟩) s).2 = true) :=
        ih hlists hrest hnew (fun q hq => by
            obtain ⟨turn, -, hdiff⟩ := List.mem_flatMap.1 hq
            rw [Turn.fileAt_perform_of_isGenerated hlists₁ hfirst
              (isGenerated_of_mem_diffPages hdiff) fun hq' => hdisjoint hq' hq]
            exact hfresh q (List.mem_append_right _ hq))
          (Turn.isReady_perform hlists₁ hfirst h hok) (hturn.1 hok).2.2
      rw [List.flatMap_cons, List.flatMap_cons, Script.perform_append_iff, List.forall_mem_cons,
        ← List.append_assoc]
      constructor
      · rintro ⟨hok, hmore⟩
        obtain ⟨hkeeps, hfinds, -⟩ := hturn.1 hok
        obtain ⟨hall, hapart'⟩ := (hnext hok).1 hmore
        exact ⟨⟨⟨hkeeps, hfinds⟩, hall⟩, hapart'⟩
      · rintro ⟨⟨⟨hkeeps, hfinds⟩, hall⟩, hapart'⟩
        have hok := hturn.2 ⟨hkeeps, hfinds, hapart'.subset (List.subset_append_left _ _)⟩
        exact ⟨hok, (hnext hok).2 ⟨hall, hapart'⟩⟩

/-! What the turns leave. -/

lemma isReady_turns (hlists : ∀ c ∈ commits, c.ListsTheOthers decode)
    (hnames : ∀ turn ∈ turnsOf parent parentOid commits, turn.HasNames names)
    (h : s.IsReady names written parent)
    (hok : (Script.perform (Action.perform decode)
      ((turnsOf parent parentOid commits).flatMap (Turn.actions decode)) s).2 = true) :
    (Script.perform (Action.perform decode) ((turnsOf parent parentOid commits).flatMap
      (Turn.actions decode)) s).1.IsReady names
        (written ++ (turnsOf parent parentOid commits).flatMap Turn.written)
        (commits.getLast?.or parent) := by
  induction commits generalizing parent parentOid s written with
  | nil =>
      rw [turnsOf, List.flatMap_nil, List.flatMap_nil, List.append_nil]
      exact h
  | cons c rest ih =>
      rw [turnsOf] at hnames hok ⊢
      obtain ⟨hfirst, hrest⟩ := List.forall_mem_cons.1 hnames
      obtain ⟨hlists₁, hlists⟩ := List.forall_mem_cons.1 hlists
      rw [List.flatMap_cons] at hok
      obtain ⟨hturn, heq⟩ := Script.perform_append_eq_true hok
      rw [heq] at hok
      rw [List.flatMap_cons, List.flatMap_cons, heq, ← List.append_assoc]
      have hlast : (c :: rest).getLast?.or parent = rest.getLast?.or (some c) := by
        cases rest with
        | nil => rfl
        | cons d more => rfl
      rw [hlast]
      exact ih hlists hrest (Turn.isReady_perform hlists₁ hfirst h hturn) hok

lemma indexHtmlFifo_turns {turns : List Turn} (hok : (Script.perform (Action.perform decode)
      (turns.flatMap (Turn.actions decode)) s).2 = true) :
    (Script.perform (Action.perform decode)
      (turns.flatMap (Turn.actions decode)) s).1.indexHtmlFifo =
        turns.foldl (fun fifo turn => turn.indexAfter decode fifo) s.indexHtmlFifo := by
  induction turns generalizing s with
  | nil => rfl
  | cons turn rest ih =>
      rw [List.flatMap_cons] at hok ⊢
      obtain ⟨hturn, heq⟩ := Script.perform_append_eq_true hok
      rw [heq] at hok ⊢
      rw [ih hok, Turn.indexHtmlFifo_perform hturn, List.foldl_cons]

/-- **The index is written**, if all files that it is to show were written by this run. -/
lemma writeIndex_iff (h : s.IsReady names written parent) (hnames : IsApart names)
    (hindex : indexHtml ∈ names) : (Action.writeIndex.perform decode s).2 = true ↔
      ∀ p ∈ s.indexHtmlFifo.withoutText, p ∈ written := by
  have hwritten (p : Path) : (s.temp.fileAt p).isSome ↔ p ∈ written :=
    ⟨h.temp.within.file p, h.temp.contains.file p⟩
  have hput : s.destination.put indexHtml .index = some _ :=
    if_pos (canPut_of_isApart h.within hnames hindex)
  rw [Action.perform, hput]
  simp only [hwritten]
  split_ifs with hfiles
  · exact iff_of_true rfl hfiles
  · exact iff_of_false id hfiles

lemma mirrors_writeIndex {head : Option Commit} (h : Mirrors head [] s.destination) :
    Mirrors head [] (Action.writeIndex.perform decode s).1.destination := by
  refine ⟨fun p hne hgenerated hp => ?_, Action.nothingElse_perform trivial h.nothingElse⟩
  have hother : outputPath p ≠ Action.writeIndex.target := fun heq => by
    rw [heq] at hgenerated
    exact hgenerated isGenerated_indexHtml
  rw [Action.fileAt_perform hother]
  exact h.pages p hne hgenerated hp

/-- The pages with the differences of other turns are left alone. -/
lemma fileAt_turns_of_isGenerated (hlists : ∀ c ∈ commits, c.ListsTheOthers decode)
    (hnames : ∀ turn ∈ turnsOf parent parentOid commits, turn.HasNames names)
    (hq : IsGenerated q) (hother : q ∉ (turnsOf parent parentOid commits).flatMap Turn.diffPages)
    (hok : (Script.perform (Action.perform decode)
      ((turnsOf parent parentOid commits).flatMap (Turn.actions decode)) s).2 = true) :
    (Script.perform (Action.perform decode) ((turnsOf parent parentOid commits).flatMap
      (Turn.actions decode)) s).1.destination.fileAt q = s.destination.fileAt q := by
  induction commits generalizing parent parentOid s with
  | nil => rfl
  | cons c rest ih =>
      rw [turnsOf] at hnames hother hok ⊢
      rw [List.flatMap_cons, List.mem_append, not_or] at hother
      obtain ⟨hfirst, hrest⟩ := List.forall_mem_cons.1 hnames
      obtain ⟨hlists₁, hlists⟩ := List.forall_mem_cons.1 hlists
      rw [List.flatMap_cons] at hok
      obtain ⟨-, heq⟩ := Script.perform_append_eq_true hok
      rw [heq] at hok
      rw [List.flatMap_cons, heq, ih hlists hrest hother.2 hok,
        Turn.fileAt_perform_of_isGenerated hlists₁ hfirst hq hother.1]

/-! ## A run -/

namespace GitWeb

/-- All commits are handled, and there is nothing but what has one of these names. -/
structure IsReady (names : List Path) (s : GitWeb) : Prop where
  pending : s.pending = []
  mirrors : Mirrors s.parent [] s.destination
  within : s.destination.IsWithin names

variable {s : GitWeb} {r : Run}

lemma run_commits (s : GitWeb) (commits : List Commit) :
    Machine.run (GitWeb.step decode) s (commits.map .commit) =
      { s with pending := s.pending ++ commits } := by
  induction commits generalizing s with
  | nil =>
      rw [List.map_nil, Machine.run_nil, List.append_nil]
  | cons c rest ih =>
      rw [List.map_cons, Machine.run_cons, ih]
      exact congrArg (fun pending => { s with pending := pending }) (List.append_assoc _ _ _)

lemma afterRun_eq (h : s.pending = []) : s.afterRun decode r =
    { s with pending := r.commits }.generateStaticGitWeb decode r.parentOid := by
  rw [afterRun, Machine.run_append, run_commits, h, List.nil_append, Machine.run_cons,
    Machine.run_nil, GitWeb.step]
  exact if_neg r.new

lemma IsReady.session (h : s.IsReady names) : s.session.IsReady names [] s.parent :=
  ⟨h.mirrors, h.within, holds_empty⟩

/-- **A run succeeds** exactly if it can. -/
theorem succeeds_iff (h : s.IsReady names) (hlists : ∀ c ∈ r.commits, c.ListsTheOthers decode)
    (hapart : IsApart names) (hindex : indexHtml ∈ names)
    (hnames : ∀ turn ∈ r.turns s.parent, turn.HasNames names)
    (hnew : ((r.turns s.parent).flatMap Turn.diffPages).Nodup)
    (hfresh : ∀ q ∈ (r.turns s.parent).flatMap Turn.diffPages, s.destination.fileAt q = none) :
    (s.performed decode (runActions decode s.parent r.parentOid r.commits)).2 = true ↔
      s.CanSucceed decode r := by
  have hturns := turns_succeed_iff (s := s.session) hlists hnames hnew hfresh h.session
    fun p hp => absurd hp List.not_mem_nil
  rw [performed, runActions_eq, Script.perform_append_iff, Script.perform_singleton]
  constructor
  · rintro ⟨hok, hwrites⟩
    obtain ⟨hall, hwritten⟩ := hturns.1 hok
    have hready := isReady_turns hlists hnames h.session hok
    rw [writeIndex_iff hready hapart hindex, indexHtmlFifo_turns hok] at hwrites
    exact ⟨fun turn hturn => (hall turn hturn).1, fun turn hturn => (hall turn hturn).2,
      hwritten, hwrites⟩
  · rintro ⟨hkeeps, hfinds, hwritten, htexts⟩
    have hok := hturns.2 ⟨fun turn hturn => ⟨hkeeps turn hturn, hfinds turn hturn⟩, hwritten⟩
    have hready := isReady_turns hlists hnames h.session hok
    refine ⟨hok, ?_⟩
    rw [writeIndex_iff hready hapart hindex, indexHtmlFifo_turns hok]
    exact htexts

lemma pending_afterRun_iff (h : s.pending = []) : (s.afterRun decode r).pending = [] ↔
    (s.performed decode (runActions decode s.parent r.parentOid r.commits)).2 = true := by
  rw [afterRun_eq h]
  cases hok : (s.performed decode (runActions decode s.parent r.parentOid r.commits)).2 with
  | true =>
      rw [generateStaticGitWeb_of_succeeds (s := { s with pending := r.commits }) hok]
      exact iff_of_true rfl rfl
  | false =>
      rw [generateStaticGitWeb_of_fails (s := { s with pending := r.commits }) hok]
      exact iff_of_false r.new Bool.false_ne_true

/-- **What a run that succeeds leaves** for the next one. -/
theorem isReady_afterRun (h : s.IsReady names) (hlists : ∀ c ∈ r.commits, c.ListsTheOthers decode)
    (hindex : indexHtml ∈ names) (hnames : ∀ turn ∈ r.turns s.parent, turn.HasNames names)
    (hok : (s.afterRun decode r).pending = []) :
    (s.afterRun decode r).IsReady names ∧ (s.afterRun decode r).parent = some r.head ∧
      ∀ q, IsGenerated q → q ≠ indexHtml → q ∉ (r.turns s.parent).flatMap Turn.diffPages →
        (s.afterRun decode r).destination.fileAt q = s.destination.fileAt q := by
  rw [pending_afterRun_iff h.pending] at hok
  have heq := generateStaticGitWeb_of_succeeds (s := { s with pending := r.commits }) hok
  rw [afterRun_eq h.pending, heq]
  have hhead : r.commits.getLast?.or s.parent = some r.head := by
    rw [List.getLast?_eq_getLast_of_ne_nil r.new]
    rfl
  have hparent : (s.handled ++ r.commits).getLast? = some r.head := by
    rw [List.getLast?_append, ← hhead]
    rfl
  rw [performed, runActions_eq] at hok
  obtain ⟨hturns, hperformed⟩ := Script.perform_append_eq_true hok
  rw [Script.perform_singleton] at hperformed
  have hdestination : (Script.perform (Action.perform decode)
      (runActions decode s.parent r.parentOid r.commits) s.session).1.destination =
        (Action.writeIndex.perform decode (Script.perform (Action.perform decode)
          ((turnsOf s.parent r.parentOid r.commits).flatMap (Turn.actions decode))
          s.session).1).1.destination := by
    rw [runActions_eq, hperformed]
  have hready := isReady_turns hlists hnames h.session hturns
  rw [hhead] at hready
  refine ⟨⟨rfl, ?_, ?_⟩, hparent, fun q hq hne hother => ?_⟩
  · change Mirrors (s.handled ++ r.commits).getLast? [] (Script.perform (Action.perform decode)
      (runActions decode s.parent r.parentOid r.commits) s.session).1.destination
    rw [hparent, hdestination]
    exact mirrors_writeIndex hready.mirrors
  · change (Script.perform (Action.perform decode)
      (runActions decode s.parent r.parentOid r.commits) s.session).1.destination.IsWithin names
    rw [hdestination]
    have hwrite : Action.writeIndex.WritesWithin names := hindex
    exact isWithin_perform hwrite hready.within
  · change (Script.perform (Action.perform decode)
      (runActions decode s.parent r.parentOid r.commits) s.session).1.destination.fileAt q = _
    rw [hdestination, Action.fileAt_perform hne]
    exact fileAt_turns_of_isGenerated (s := s.session) hlists hnames hq hother hturns

end GitWeb

/-! ## A history in runs -/

def historyOf (runs : List Run) : List Commit := runs.flatMap Run.commits

def filesOf (commits : List Commit) : List Path := commits.flatMap fun c => c.tree.keys

/-- The pages with differences that the runs make. -/
def diffPagesOf : Option Commit → List Run → List Path
  | _, [] => []
  | parent, r :: rest =>
      (r.turns parent).flatMap Turn.diffPages ++ diffPagesOf (some r.head) rest

/-- The pages that may be there at any time. -/
def namesOf (files diffs : List Path) : List Path := indexHtml :: (diffs ++ files.map outputPath)

/-- What is asked of a history that is split like this. -/
structure IsOrderly (decode : Blob → Text) (runs : List Run) : Prop where
  lists : ∀ c ∈ historyOf runs, c.ListsTheOthers decode
  names : NamesAreApart (filesOf (historyOf runs))
  diffs : (diffPagesOf none runs).Nodup

instance (decode : Blob → Text) (runs : List Run) : Decidable (IsOrderly decode runs) :=
  decidable_of_iff (_ ∧ _ ∧ _) ⟨fun h => ⟨h.1, h.2.1, h.2.2⟩,
    fun h => ⟨h.lists, h.names, h.diffs⟩⟩

variable {files diffs : List Path} {r : Run} {runs : List Run}

lemma outputPath_ne_diff (p : Path) : outputPath p ≠ ["diff".toList] := by
  rw [outputPath]
  split_ifs with hp
  · rw [hp]
    decide
  · intro heq
    have hlast := (List.append_inj' (heq.trans (List.nil_append _).symm) rfl).2
    have hname := congrArg List.getLast? (List.cons.inj hlast).1
    rw [List.getLast?_append] at hname
    exact absurd hname (show ¬some 'l' = some 'f' by decide)

lemma outputPath_ne_nil (p : Path) : outputPath p ≠ [] := by
  rw [outputPath]
  split_ifs with hp
  · rw [hp]
    decide
  · exact List.append_ne_nil_of_right_ne_nil _ (List.cons_ne_nil _ _)

lemma exists_of_mem_diffPagesOf (h : q ∈ diffPagesOf parent runs) :
    ∃ parentOid oid, q = diffHtmlFilePath parentOid oid := by
  induction runs generalizing parent with
  | nil => exact absurd h List.not_mem_nil
  | cons r rest ih =>
      rcases List.mem_append.1 h with h | h
      · obtain ⟨turn, -, hturn⟩ := List.mem_flatMap.1 h
        rw [Turn.diffPages] at hturn
        split_ifs at hturn with hmodified
        · exact absurd hturn List.not_mem_nil
        · exact ⟨_, _, List.mem_singleton.1 hturn⟩
      · exact ih h

/-- The index and the pages with differences are in nobody's way. -/
lemma isApart_namesOf (h : NamesAreApart files)
    (hdiffs : ∀ q ∈ diffs, ∃ parentOid oid, q = diffHtmlFilePath parentOid oid) :
    IsApart (namesOf files diffs) := by
  have hkinds : ∀ p ∈ namesOf files diffs, p ≠ [] ∧ p ≠ ["diff".toList] ∧
      (IsGenerated p ∨ p ∈ files.map outputPath) := by
    intro p hp
    rcases List.mem_cons.1 hp with rfl | hp
    · exact ⟨by decide, by decide, .inl isGenerated_indexHtml⟩
    · rcases List.mem_append.1 hp with hp | hp
      · obtain ⟨parentOid, oid, rfl⟩ := hdiffs p hp
        exact ⟨List.cons_ne_nil _ _, fun heq => List.cons_ne_nil _ _ (List.cons.inj heq).2,
          .inl (isGenerated_diffHtmlFilePath _ _)⟩
      · obtain ⟨file, -, rfl⟩ := List.mem_map.1 hp
        exact ⟨outputPath_ne_nil file, outputPath_ne_diff file, .inr hp⟩
  intro p hp q hq hbegin
  obtain ⟨hne, hdiff, hkind⟩ := hkinds p hp
  rcases List.mem_cons.1 hq with rfl | hq
  · exact hne (List.prefix_nil.1 hbegin)
  · rcases List.mem_append.1 hq with hq | hq
    · obtain ⟨parentOid, oid, rfl⟩ := hdiffs q hq
      have hlength := hbegin.length_le
      have hone : p.length = 1 := Nat.le_antisymm hlength (List.length_pos_of_ne_nil hne)
      exact hdiff (hbegin.eq_of_length hone)
    · rcases hkind with hgenerated | hfile
      · obtain ⟨file, hfile, rfl⟩ := List.mem_map.1 hq
        exact h.notGenerated file hfile p ((List.mem_inits p _).2
          (hbegin.trans (List.dropLast_prefix _))) hgenerated
      · exact h.apart p hfile q hq hbegin

lemma NamesAreApart.not_isGenerated (h : NamesAreApart files) (hp : p ∈ files) :
    ¬IsGenerated (outputPath p) :=
  h.notGenerated p hp _ ((List.mem_inits _ _).2 (List.prefix_refl _))

/-- The turns of a run keep to the names. -/
lemma hasNames_of_mem_turns (h : NamesAreApart files) (hapart : IsApart (namesOf files diffs))
    (hcommits : ∀ c ∈ commits, ∀ p ∈ c.tree, p ∈ files)
    (hparent : ∀ old ∈ parent, ∀ p ∈ old.tree, p ∈ files)
    (hdiffs : ∀ q ∈ (turnsOf parent parentOid commits).flatMap Turn.diffPages, q ∈ diffs) :
    ∀ turn ∈ turnsOf parent parentOid commits, turn.HasNames (namesOf files diffs) := by
  induction commits generalizing parent parentOid with
  | nil => exact fun _ hturn => absurd hturn List.not_mem_nil
  | cons c rest ih =>
      obtain ⟨hfirst, hrest⟩ := List.forall_mem_cons.1 hcommits
      rw [turnsOf, List.flatMap_cons] at hdiffs
      rw [turnsOf, List.forall_mem_cons]
      refine ⟨⟨hapart, fun p hp => ?_, fun q hq => ?_, fun p hp => h.not_isGenerated (hfirst p hp),
        fun old hold p hp => h.not_isGenerated (hparent old hold p hp)⟩, ?_⟩
      · exact List.mem_cons_of_mem _ (List.mem_append_right _ (List.mem_map_of_mem (hfirst p hp)))
      · exact List.mem_cons_of_mem _ (List.mem_append_left _
          (hdiffs q (List.mem_append_left _ hq)))
      · refine ih hrest (fun old hold => ?_) fun q hq => hdiffs q (List.mem_append_right _ hq)
        rw [← Option.some.inj hold]
        exact hfirst

lemma historyOf_cons : historyOf (r :: runs) = r.commits ++ historyOf runs := List.flatMap_cons

namespace GitWeb

/-- What is left of a history can be handled, as far as the names of the pages go. -/
structure IsReadyFor (decode : Blob → Text) (files diffs : List Path) (s : GitWeb)
    (runs : List Run) : Prop where
  ready : s.IsReady (namesOf files diffs)
  lists : ∀ c ∈ historyOf runs, c.ListsTheOthers decode
  keeps : ∀ c ∈ historyOf runs, ∀ p ∈ c.tree, p ∈ files
  parentKeeps : ∀ old ∈ s.parent, ∀ p ∈ old.tree, p ∈ files
  new : (diffPagesOf s.parent runs).Nodup
  keepsDiffs : ∀ q ∈ diffPagesOf s.parent runs, q ∈ diffs
  fresh : ∀ q ∈ diffPagesOf s.parent runs, s.destination.fileAt q = none

variable {s : GitWeb} (hfiles : NamesAreApart files) (hapart : IsApart (namesOf files diffs))

lemma IsReadyFor.lists_head (h : s.IsReadyFor decode files diffs (r :: runs)) :
    ∀ c ∈ r.commits, c.ListsTheOthers decode := fun c hc =>
  h.lists c (by rw [historyOf_cons]; exact List.mem_append_left _ hc)

include hfiles hapart in
lemma IsReadyFor.hasNames (h : s.IsReadyFor decode files diffs (r :: runs)) :
    ∀ turn ∈ r.turns s.parent, turn.HasNames (namesOf files diffs) :=
  hasNames_of_mem_turns hfiles hapart
    (fun c hc => h.keeps c (by rw [historyOf_cons]; exact List.mem_append_left _ hc))
    h.parentKeeps fun q hq => h.keepsDiffs q (List.mem_append_left _ hq)

include hfiles hapart in
/-- **The next run** succeeds exactly if it can. -/
lemma IsReadyFor.succeeds_iff (h : s.IsReadyFor decode files diffs (r :: runs)) :
    (s.afterRun decode r).pending = [] ↔ s.CanSucceed decode r := by
  rw [pending_afterRun_iff h.ready.pending]
  exact GitWeb.succeeds_iff h.ready h.lists_head hapart List.mem_cons_self
    (h.hasNames hfiles hapart) (List.nodup_append'.1 h.new).1
    fun q hq => h.fresh q (List.mem_append_left _ hq)

include hfiles hapart in
/-- Its pages with differences are not those of the runs after it. -/
lemma IsReadyFor.afterRun (h : s.IsReadyFor decode files diffs (r :: runs))
    (hok : (s.afterRun decode r).pending = []) :
    (s.afterRun decode r).IsReadyFor decode files diffs runs ∧
      (s.afterRun decode r).parent = some r.head := by
  obtain ⟨hready, hparent, hothers⟩ := isReady_afterRun h.ready h.lists_head List.mem_cons_self
    (h.hasNames hfiles hapart) hok
  obtain ⟨-, hnew, hdisjoint⟩ := List.nodup_append'.1 h.new
  have hhistory : ∀ c ∈ historyOf runs, c ∈ historyOf (r :: runs) := fun c hc => by
    rw [historyOf_cons]
    exact List.mem_append_right _ hc
  have hhead : r.head ∈ historyOf (r :: runs) := by
    rw [historyOf_cons]
    exact List.mem_append_left _ (List.getLast_mem r.new)
  refine ⟨⟨hready, fun c hc => h.lists c (hhistory c hc), fun c hc => h.keeps c (hhistory c hc),
    ?_, ?_, ?_, ?_⟩, hparent⟩
  · rw [hparent]
    rintro old hold
    rw [← Option.some.inj hold]
    exact h.keeps r.head hhead
  · rw [hparent]
    exact hnew
  · rw [hparent]
    exact fun q hq => h.keepsDiffs q (List.mem_append_right _ hq)
  · rw [hparent]
    intro q hq
    obtain ⟨parentOid, oid, heq⟩ := exists_of_mem_diffPagesOf hq
    have hgenerated : IsGenerated q := heq ▸ isGenerated_diffHtmlFilePath parentOid oid
    have hne : q ≠ indexHtml := fun hindex => by
      have hlength := congrArg List.length (heq.symm.trans hindex)
      exact absurd hlength (show ¬2 = 1 by decide)
    rw [hothers q hgenerated hne fun hq' => hdisjoint hq' hq]
    exact h.fresh q (List.mem_append_right _ hq)

include hfiles hapart in
/-- **All runs succeed** exactly if each can, from the state that the runs before it leave. -/
theorem IsReadyFor.all_succeed_iff (h : s.IsReadyFor decode files diffs runs) :
    Machine.HoldsThroughout (GitWeb.afterRun decode) (fun s => s.pending = []) s runs ↔
      Machine.StaysWithin (GitWeb.afterRun decode) (CanSucceed decode) s runs := by
  induction runs generalizing s with
  | nil => exact iff_of_true h.ready.pending trivial
  | cons r rest ih =>
      have hrun := h.succeeds_iff hfiles hapart
      constructor
      · rintro ⟨-, hrest⟩
        exact ⟨hrun.1 hrest.start, (ih (h.afterRun hfiles hapart hrest.start).1).1 hrest⟩
      · rintro ⟨hcan, hrest⟩
        have hok := hrun.2 hcan
        exact ⟨h.ready.pending, (ih (h.afterRun hfiles hapart hok).1).2 hrest⟩

include hfiles hapart in
/-- What they leave are the pages of the last commit of all. -/
lemma IsReadyFor.mirrors (h : s.IsReadyFor decode files diffs runs)
    (hok : Machine.HoldsThroughout (GitWeb.afterRun decode) (fun s => s.pending = []) s runs) :
    Mirrors ((historyOf runs).getLast?.or s.parent) []
      (Machine.run (GitWeb.afterRun decode) s runs).destination := by
  induction runs generalizing s with
  | nil => exact h.ready.mirrors
  | cons r rest ih =>
      obtain ⟨-, hrest⟩ := hok
      obtain ⟨hready, hparent⟩ := h.afterRun hfiles hapart hrest.start
      have hmirrors := ih hready hrest
      rw [hparent] at hmirrors
      have hlast : (historyOf (r :: rest)).getLast?.or s.parent =
          (historyOf rest).getLast?.or (some r.head) := by
        rw [historyOf_cons, List.getLast?_append, List.getLast?_eq_getLast_of_ne_nil r.new,
          Option.or_assoc]
        rfl
      rw [hlast]
      exact hmirrors

end GitWeb

/-! ## The last commit -/

/-- What the runs leave, which begin with an empty destination. -/
def destinationAfter (decode : Blob → Text) (runs : List Run) : WrittenTree Text Page :=
  (Machine.run (GitWeb.afterRun decode) GitWeb.initial runs).destination

/-- **All runs succeed, and then the pages are those of the last commit.** -/
structure MirrorsHead (decode : Blob → Text) (runs : List Run) : Prop where
  succeeds : Machine.HoldsThroughout (GitWeb.afterRun decode) (fun s => s.pending = [])
    GitWeb.initial runs
  pages : ∀ head ∈ (historyOf runs).getLast?, ∀ p ∈ head.tree, p ≠ lastModifiedTimestampsFilepath →
    (destinationAfter decode runs).fileAt (htmlPath p) =
      (head.tree.lookup p).map fun file => .html p file.content
  timestamps : ∀ head ∈ (historyOf runs).getLast?,
    (destinationAfter decode runs).fileAt lastModifiedTimestampsFilepath =
      (head.tree.lookup lastModifiedTimestampsFilepath).map fun file => .raw file.content
  gone : ∀ head ∈ (historyOf runs).getLast?, ∀ p ∈ filesOf (historyOf runs), p ∉ head.tree →
    (destinationAfter decode runs).fileAt (outputPath p) = none

/-- The pages that are made of files are the same. -/
def SamePages (destination destination' : WrittenTree Text Page) : Prop :=
  ∀ q, ¬IsGenerated q → destination.fileAt q = destination'.fileAt q

lemma mem_filesOf_iff : p ∈ filesOf commits ↔ ∃ c ∈ commits, p ∈ c.tree := List.mem_flatMap

lemma Mirrors.samePages {head : Option Commit} {destination destination' : WrittenTree Text Page}
    (h : Mirrors head [] destination) (h' : Mirrors head [] destination') :
    SamePages destination destination' := by
  intro q hgenerated
  by_cases hq : ∃ p ≠ [], outputPath p = q
  · obtain ⟨p, hne, rfl⟩ := hq
    rw [h.pages p hne hgenerated List.not_mem_nil, h'.pages p hne hgenerated List.not_mem_nil]
  · have hnone {tree : WrittenTree Text Page} (h : Mirrors head [] tree) :
        tree.fileAt q = none := by
      rw [← Option.not_isSome_iff_eq_none]
      intro hsome
      exact (h.nothingElse q hsome).elim hgenerated hq
    rw [hnone h, hnone h']

namespace IsOrderly

variable (h : IsOrderly decode runs)

include h in
lemma isReadyFor :
    GitWeb.initial.IsReadyFor decode (filesOf (historyOf runs)) (diffPagesOf none runs) runs where
  ready :=
    { pending := rfl
      mirrors := ⟨fun _ _ _ _ => rfl, fun _ hq => absurd hq Bool.false_ne_true⟩
      within := ⟨fun _ hq => absurd hq Bool.false_ne_true,
        fun _ hq => absurd hq Bool.false_ne_true⟩ }
  lists := h.lists
  keeps := fun c hc _ hp => mem_filesOf_iff.2 ⟨c, hc, hp⟩
  parentKeeps := fun _ hold => absurd hold.symm (Option.some_ne_none _)
  new := h.diffs
  keepsDiffs := fun _ hq => hq
  fresh := fun _ _ => rfl

include h in
lemma isApart : IsApart (namesOf (filesOf (historyOf runs)) (diffPagesOf none runs)) :=
  isApart_namesOf h.names fun _ hq => exists_of_mem_diffPagesOf hq

include h in
lemma mirrors (hok : Machine.HoldsThroughout (GitWeb.afterRun decode) (fun s => s.pending = [])
    GitWeb.initial runs) : Mirrors (historyOf runs).getLast? [] (destinationAfter decode runs) := by
  have hmirrors := h.isReadyFor.mirrors h.names h.isApart hok
  have hnone : (historyOf runs).getLast?.or GitWeb.initial.parent = (historyOf runs).getLast? :=
    Option.or_none
  rwa [hnone] at hmirrors

include h in
/-- That all runs succeed is all that it takes. -/
lemma mirrorsHead_iff_succeeds : MirrorsHead decode runs ↔ Machine.StaysWithin
    (GitWeb.afterRun decode) (GitWeb.CanSucceed decode) GitWeb.initial runs := by
  rw [← h.isReadyFor.all_succeed_iff h.names h.isApart]
  refine ⟨fun hmirrors => hmirrors.succeeds, fun hok => ?_⟩
  have hmirrors := h.mirrors hok
  refine ⟨hok, fun head hhead p hp hne => ?_, fun head hhead => ?_, fun head hhead p hp hgone => ?_⟩
  · have hfile : p ∈ filesOf (historyOf runs) :=
      mem_filesOf_iff.2 ⟨head, List.mem_of_getLast? hhead, hp⟩
    have hpage := hmirrors.pages p (ne_nil_of_mem_tree hp) (h.names.not_isGenerated hfile)
      List.not_mem_nil
    rw [Option.mem_def.1 hhead, outputPath_of_ne hne] at hpage
    rw [hpage, pageOf, Option.bind_some]
    simp only [fileHtml, if_neg hne]
  · have hpage := hmirrors.pages lastModifiedTimestampsFilepath (List.cons_ne_nil _ _)
      (by decide) List.not_mem_nil
    rw [Option.mem_def.1 hhead] at hpage
    exact hpage
  · obtain ⟨c, -, hc⟩ := mem_filesOf_iff.1 hp
    rw [hmirrors.pages p (ne_nil_of_mem_tree hc) (h.names.not_isGenerated hp) List.not_mem_nil,
      Option.mem_def.1 hhead, pageOf, Option.bind_some, AList.lookup_eq_none.2 hgone,
      Option.map_none]

end IsOrderly

/-- **The pages mirror the last commit, in whatever runs the history is handled**, if and only if
each of these runs can succeed, and the one over the whole history.

The timestamps files list the other files of their commits, but a time may be 0, and a commit may
have no such file.  That the pages have names of their own is asked of all files of the history: no
folder is ever removed from the destination.  What is left for a run to fail of is in
`GitWeb.CanSucceed`.  It reads nothing of the pages, but the commits of the run, the one before, and
the entries of the index that the run before has left. -/
theorem mirrorsHead_iff {one : Run} (hone : one.commits = historyOf runs)
    (hruns : IsOrderly decode runs) (hwhole : IsOrderly decode [one]) :
    (MirrorsHead decode runs ∧ MirrorsHead decode [one] ∧
        SamePages (destinationAfter decode runs) (destinationAfter decode [one])) ↔
      Machine.StaysWithin (GitWeb.afterRun decode) (GitWeb.CanSucceed decode) GitWeb.initial runs ∧
        GitWeb.initial.CanSucceed decode one := by
  have hsingle : GitWeb.initial.CanSucceed decode one ↔ MirrorsHead decode [one] :=
    ⟨fun hcan => hwhole.mirrorsHead_iff_succeeds.2 ⟨hcan, trivial⟩,
      fun hmirrors => (hwhole.mirrorsHead_iff_succeeds.1 hmirrors).1⟩
  rw [← hruns.mirrorsHead_iff_succeeds, hsingle]
  refine ⟨fun h => ⟨h.1, h.2.1⟩, fun ⟨hmirrors, hmirrors'⟩ => ⟨hmirrors, hmirrors', ?_⟩⟩
  have hhistory : historyOf [one] = historyOf runs :=
    (List.flatMap_singleton Run.commits one).trans hone
  have hpages := hwhole.mirrors hmirrors'.succeeds
  rw [hhistory] at hpages
  exact (hruns.mirrors hmirrors.succeeds).samePages hpages

/-! ## A file that is made again -/

def sketched : Commit where
  oid := "a17".toList
  time := 5
  tree := [⟨lastModifiedTimestampsFilepath, plainFile "draft:5\n"⟩,
    ⟨["draft".toList], plainFile "x"⟩].toAList
  named := by decide

def dropped : Commit where
  oid := "b28".toList
  time := 6
  tree := [⟨lastModifiedTimestampsFilepath, plainFile "notes:6\n"⟩,
    ⟨["notes".toList], plainFile "z"⟩].toAList
  named := by decide

def restored : Commit where
  oid := "c39".toList
  time := 8
  tree := [⟨lastModifiedTimestampsFilepath, plainFile "draft:8\nnotes:6\n"⟩,
    ⟨["draft".toList], plainFile "xx"⟩, ⟨["notes".toList], plainFile "z"⟩].toAList
  named := by decide

def corrected : Commit where
  oid := "d40".toList
  time := 9
  tree := [⟨lastModifiedTimestampsFilepath, plainFile "draft:8\nnotes:9\n"⟩,
    ⟨["draft".toList], plainFile "xx"⟩, ⟨["notes".toList], plainFile "zz"⟩].toAList
  named := by decide

def inOneRun : Run := ⟨[sketched, dropped, restored, corrected], List.cons_ne_nil _ _, []⟩

def inTwoRuns : List Run :=
  [⟨[sketched, dropped], List.cons_ne_nil _ _, []⟩,
    ⟨[restored, corrected], List.cons_ne_nil _ _, "0f3".toList⟩]

def inFourRuns : List Run :=
  [⟨[sketched], List.cons_ne_nil _ _, []⟩, ⟨[dropped], List.cons_ne_nil _ _, "0f3".toList⟩,
    ⟨[restored], List.cons_ne_nil _ _, "0f3".toList⟩,
    ⟨[corrected], List.cons_ne_nil _ _, "0f3".toList⟩]

/-- In two runs the pages are those of the last commit. -/
theorem mirrorsHead_iff_inTwoRuns :
    (destinationAfter latin1 inTwoRuns).fileAt (htmlPath ["notes".toList]) =
        some (.html ["notes".toList] (plainFile "zz").content) ∧
      MirrorsHead latin1 inTwoRuns ∧ MirrorsHead latin1 [inOneRun] ∧
      SamePages (destinationAfter latin1 inTwoRuns) (destinationAfter latin1 [inOneRun]) :=
  ⟨by decide +kernel, (mirrorsHead_iff rfl ⟨by decide +kernel, by decide +kernel,
    by decide +kernel⟩ ⟨by decide +kernel, by decide +kernel, by decide +kernel⟩).2
      ⟨by decide +kernel, by decide +kernel⟩⟩

/-- In four runs they are not: the entry of the file that was made again keeps no text, and the last
run looks for that file in its own temporary directory, where only the corrected one is. -/
theorem not_mirrorsHead_inFourRuns : historyOf inFourRuns = inOneRun.commits ∧
    IsOrderly latin1 inFourRuns ∧ MirrorsHead latin1 [inOneRun] ∧
      ¬MirrorsHead latin1 inFourRuns := by
  refine ⟨rfl, by decide +kernel, ?_, fun hmirrors => ?_⟩
  · have horderly : IsOrderly latin1 [inOneRun] := by decide +kernel
    exact horderly.mirrorsHead_iff_succeeds.2 (by decide +kernel)
  · have hlength : (Machine.run (GitWeb.afterRun latin1) GitWeb.initial
        inFourRuns).pending.length = 1 := by decide +kernel
    rw [hmirrors.succeeds.run] at hlength
    exact absurd hlength (by decide)

end Autobackup.QuickDirtyStaticGitWeb
