import Autobackup.QuickDirtyStaticGitWeb.StaticGitWeb

/-!
# The pages are those of the last commit

However the history was split into runs, and however many of them have failed or were killed: after
a run that succeeds, each file of its last commit has its page, and no other file has one.  Runs
that fail leave something behind only for the files that a commit which is still to be handled has
written or deleted; all other pages are right at any time (`MirrorsHandled`).

Two kinds of pages are exempt.  Those that the program makes of no file (`IsGenerated`) take the
place of the page of a file that would have the same name, such as `about` or `archive`.  And
`touch` makes an empty page for whatever the timestamps file of the very first commit lists that is
no file of it, which are at least the folders (`strayPaths`); of later commits only the files that
were added or modified are touched.

A page is the file that it was made of and how it was made (`Page`), so that an old page is not
taken for a new one.  Left out are the texts of pages, symbolic links and submodules, the times that
`touch` sets, and writes that are torn.
-/

namespace Autobackup.QuickDirtyStaticGitWeb

open QString

/-- The paths that a commit has written or deleted. -/
def touchedPaths (parent : Option Commit) (c : Commit) : List Path :=
  writtenPaths parent c ++ (deltaTo parent c).deleted

def pendingPaths (parent : Option Commit) : List Commit → List Path
  | [] => []
  | c :: rest => touchedPaths parent c ++ pendingPaths (some c) rest

/-- The names of the pages of the archive go on with a year, and the month if it is one of a
month. -/
def IsArchiveName (name : Text) : Prop :=
  "archive-".toList <+: name ∧ ∃ c ∈ (name.drop 8).head?, c.isDigit ∨ c = '-'
  deriving Decidable

/-- The pages that are not made of a file: the index, the archive, and the differences, which are
named after two commits. -/
def IsGenerated (q : Path) : Prop :=
  q ∈ [indexHtml, ["about.html".toList], ["CNAME".toList], ["archive.html".toList]] ∨
    (q.length = 1 ∧ IsArchiveName (q.headD [])) ∨
    (q.length = 2 ∧ q.headD [] = "diff".toList ∧ "..".toList <:+: q.getLastD [])

instance (q : Path) : Decidable (IsGenerated q) := inferInstanceAs (Decidable (_ ∨ _ ∨ _))

/-- What the timestamps file of the first commit lists that is no file of that commit. -/
def strayPaths (decode : Blob → Text) (first : Option Commit) : List Path :=
  first.elim [] fun c => (c.tree.lookup lastModifiedTimestampsFilepath).elim [] fun file =>
    (sortLastModifiedTimestamps (readTimestamps decode file)).filter (· ∉ c.tree)

/-- The page that a file of the commit has. -/
def pageOf (head : Option Commit) (p : Path) : Option Page :=
  head.bind fun c => (c.tree.lookup p).map fun file => fileHtml p file.content

/-- Apart from these paths the pages are those of the commit. -/
structure Mirrors (head : Option Commit) (exempt : List Path)
    (destination : WrittenTree Text Page) : Prop where
  pages : ∀ p, p ≠ [] → ¬IsGenerated (outputPath p) → p ∉ exempt →
    destination.fileAt (outputPath p) = pageOf head p
  nothingElse : ∀ q, (destination.fileAt q).isSome → IsGenerated q ∨ ∃ p ≠ [], outputPath p = q

/-- A timestamps file does not list itself: whoever writes it has it ignored. -/
def Commit.DoesNotListItself (decode : Blob → Text) (c : Commit) : Prop :=
  ∀ file ∈ c.tree.lookup lastModifiedTimestampsFilepath,
    lastModifiedTimestampsFilepath ∉ sortLastModifiedTimestamps (readTimestamps decode file)

instance (decode : Blob → Text) (c : Commit) : Decidable (c.DoesNotListItself decode) :=
  inferInstanceAs (Decidable (∀ file ∈ _, _))

def GitWebEvent.DoesNotListItself (decode : Blob → Text) : GitWebEvent → Prop
  | .commit c => c.DoesNotListItself decode
  | _ => True

instance (decode : Blob → Text) (event : GitWebEvent) :
    Decidable (event.DoesNotListItself decode) :=
  match event with
  | .commit c => inferInstanceAs (Decidable (c.DoesNotListItself decode))
  | .run _ => .isTrue trivial
  | .stopped _ _ _ => .isTrue trivial

/-- The pages are those of the commit that was handled last, apart from what a later commit has
touched, and from what the first commit has let `touch` make. -/
def GitWeb.MirrorsHandled (decode : Blob → Text) (s : GitWeb) : Prop :=
  Mirrors s.parent
    (pendingPaths s.parent s.pending ++ strayPaths decode (s.handled ++ s.pending).head?)
    s.destination

/-! ## The names of the pages -/

lemma htmlPath_ne_lastModifiedTimestamps (p : Path) :
    htmlPath p ≠ lastModifiedTimestampsFilepath := by
  intro h
  have hlast := congrArg List.getLast? h
  rw [htmlPath, List.getLast?_append, List.getLast?_singleton, Option.some_or,
    lastModifiedTimestampsFilepath, List.getLast?_singleton] at hlast
  have hchar := congrArg List.getLast? (Option.some.inj hlast)
  rw [List.getLast?_append] at hchar
  exact absurd hchar (show ¬some 'l' = some 's' by decide)

lemma htmlPath_injective {p q : Path} (hp : p ≠ []) (hq : q ≠ []) (h : htmlPath p = htmlPath q) :
    p = q := by
  obtain ⟨hfront, hlast⟩ := List.append_inj' h rfl
  have hname := List.append_cancel_right (List.cons.inj hlast).1
  rw [List.getLastD_eq_getLast?, List.getLastD_eq_getLast?, List.getLast?_eq_getLast_of_ne_nil hp,
    List.getLast?_eq_getLast_of_ne_nil hq] at hname
  rw [← List.dropLast_append_getLast hp, ← List.dropLast_append_getLast hq, hfront]
  exact congrArg (fun name => q.dropLast ++ [name]) hname

lemma outputPath_of_ne {p : Path} (h : p ≠ lastModifiedTimestampsFilepath) :
    outputPath p = htmlPath p := if_neg h

lemma outputPath_injective {p q : Path} (hp : p ≠ []) (hq : q ≠ [])
    (h : outputPath p = outputPath q) : p = q := by
  unfold outputPath at h
  split_ifs at h with hp' hq' hq'
  · rw [hp', hq']
  · exact absurd (hp'.symm.trans h).symm (htmlPath_ne_lastModifiedTimestamps q)
  · exact absurd (h.trans hq') (htmlPath_ne_lastModifiedTimestamps p)
  · exact htmlPath_injective hp hq h

/-- The timestamps file has no page. -/
lemma outputPath_ne_htmlPath {p : Path} (hp : p ≠ []) :
    outputPath p ≠ htmlPath lastModifiedTimestampsFilepath := by
  unfold outputPath
  split_ifs with hp'
  · exact fun h => htmlPath_ne_lastModifiedTimestamps _ (h.symm.trans hp')
  · exact fun h => hp' (htmlPath_injective hp (List.cons_ne_nil _ _) h)

lemma not_isGenerated_htmlPath : ¬IsGenerated (htmlPath lastModifiedTimestampsFilepath) := by
  decide

lemma isGenerated_diffHtmlFilePath (parentOid oid : Text) :
    IsGenerated (diffHtmlFilePath parentOid oid) :=
  .inr (.inr ⟨rfl, rfl, parentOid.take 9, oid.take 9 ++ ".html".toList, by
    simp [diffHtmlFilePath]⟩)

lemma isGenerated_indexHtml : IsGenerated indexHtml := .inl List.mem_cons_self

/-! ## What an action changes -/

namespace Action

/-- The page that it is about. -/
def target : Action → Path
  | .delete _ p => htmlPath p
  | .writeDiff parentOid oid => diffHtmlFilePath parentOid oid
  | .write p _ => outputPath p
  | .list _ _ entry => htmlPath entry.path
  | .writeIndex => indexHtml

/-- It is about a page that there may be. -/
def IsProper : Action → Prop
  | .delete _ p => p ≠ []
  | .write p _ => p ≠ []
  | .list _ _ entry => entry.path ≠ [] ∧ entry.path ≠ lastModifiedTimestampsFilepath
  | _ => True

variable {decode : Blob → Text} {action : Action} {s : Session} {q : Path}

/-- **The other pages** are as they were. -/
lemma fileAt_perform (h : q ≠ action.target) :
    (action.perform decode s).1.destination.fileAt q = s.destination.fileAt q := by
  cases action with
  | delete parent p =>
      rw [perform]
      cases hremove : s.destination.remove (htmlPath p) with
      | none => rfl
      | some destination =>
          have hfile := (WrittenTree.fileAt_remove hremove).2 q
          exact hfile.trans (if_neg h)
  | writeDiff parentOid oid =>
      rw [perform]
      split_ifs with hexists
      · rfl
      · cases hput : s.destination.put (diffHtmlFilePath parentOid oid) (.diff oid) with
        | none => rfl
        | some destination =>
            have hfile := WrittenTree.fileAt_put hput q
            exact hfile.trans (if_neg h)
  | write p content =>
      rw [perform]
      cases s.temp.put p content with
      | none => rfl
      | some temp =>
          cases hput : s.destination.put (outputPath p) (fileHtml p content) with
          | none => rfl
          | some destination =>
              have hfile := WrittenTree.fileAt_put hput q
              exact hfile.trans (if_neg h)
  | list parent searched entry =>
      rw [perform]
      cases htouch : s.destination.touch (htmlPath entry.path) (.raw []) with
      | none => rfl
      | some destination => exact WrittenTree.fileAt_touch htouch (.inl h)
  | writeIndex =>
      rw [perform]
      split_ifs with hfiles
      · cases hput : s.destination.put indexHtml .index with
        | none => rfl
        | some destination =>
            have hfile := WrittenTree.fileAt_put hput q
            exact hfile.trans (if_neg h)
      · rfl

/-- A page is removed. -/
lemma perform_delete {parent : Option Commit} {p : Path}
    (h : ((Action.delete parent p).perform decode s).2 = true) :
    (s.destination.fileAt (htmlPath p)).isSome ∧
      ((Action.delete parent p).perform decode s).1.destination.fileAt (htmlPath p) = none := by
  rw [perform] at h ⊢
  cases hremove : s.destination.remove (htmlPath p) with
  | none =>
      rw [hremove] at h
      exact absurd h Bool.false_ne_true
  | some destination =>
      obtain ⟨hfile, hfiles⟩ := WrittenTree.fileAt_remove hremove
      exact ⟨hfile, (hfiles _).trans (if_pos rfl)⟩

lemma fileAt_delete_eq_none {parent : Option Commit} {p : Path}
    (h : s.destination.fileAt q = none) :
    ((Action.delete parent p).perform decode s).1.destination.fileAt q = none := by
  rw [perform]
  cases hremove : s.destination.remove (htmlPath p) with
  | none => exact h
  | some destination =>
      have hfile := (WrittenTree.fileAt_remove hremove).2 q
      rwa [h, ite_self] at hfile

/-- A page is written. -/
lemma perform_write {p : Path} {content : Blob}
    (h : ((Action.write p content).perform decode s).2 = true) :
    ((Action.write p content).perform decode s).1.destination.fileAt (outputPath p) =
      some (fileHtml p content) := by
  rw [perform] at h ⊢
  cases htemp : s.temp.put p content with
  | none =>
      rw [htemp] at h
      exact absurd h Bool.false_ne_true
  | some temp =>
      cases hput : s.destination.put (outputPath p) (fileHtml p content) with
      | none =>
          simp only [htemp, hput] at h
          exact absurd h Bool.false_ne_true
      | some destination => exact (WrittenTree.fileAt_put hput _).trans (if_pos rfl)

/-- A page that is there is not written by `touch`. -/
lemma fileAt_list {parent : Option Commit} {searched : Text} {entry : IndexEntry}
    (h : (s.destination.fileAt q).isSome) :
    ((Action.list parent searched entry).perform decode s).1.destination.fileAt q =
      s.destination.fileAt q := by
  rw [perform]
  cases htouch : s.destination.touch (htmlPath entry.path) (.raw []) with
  | none => rfl
  | some destination => exact WrittenTree.fileAt_touch htouch (.inr h)


/-- There are no pages but those that there may be. -/
lemma nothingElse_perform (haction : action.IsProper)
    (h : ∀ q, (s.destination.fileAt q).isSome → IsGenerated q ∨ ∃ p ≠ [], outputPath p = q) :
    ∀ q, ((action.perform decode s).1.destination.fileAt q).isSome →
      IsGenerated q ∨ ∃ p ≠ [], outputPath p = q := by
  intro q hq
  by_cases htarget : q = action.target
  · cases action with
    | delete parent p =>
        by_cases hp : p = lastModifiedTimestampsFilepath
        · cases hbefore : s.destination.fileAt q with
          | none =>
              rw [fileAt_delete_eq_none hbefore] at hq
              exact absurd hq Bool.false_ne_true
          | some page => exact h q (by rw [hbefore]; rfl)
        · exact .inr ⟨p, haction, (outputPath_of_ne hp).trans htarget.symm⟩
    | writeDiff parentOid oid =>
        rw [htarget]
        exact .inl (isGenerated_diffHtmlFilePath parentOid oid)
    | write p content => exact .inr ⟨p, haction, htarget.symm⟩
    | list parent searched entry =>
        exact .inr ⟨entry.path, haction.1, (outputPath_of_ne haction.2).trans htarget.symm⟩
    | writeIndex =>
        rw [htarget]
        exact .inl isGenerated_indexHtml
  · rw [fileAt_perform htarget] at hq
    exact h q hq

end Action

/-! ## The paths of a commit -/

variable {decode : Blob → Text} {parent : Option Commit} {c : Commit} {turn : Turn} {p q : Path}

lemma ne_nil_of_mem_tree (h : p ∈ c.tree) : p ≠ [] := by
  rintro rfl
  exact c.named h

lemma mem_writtenPaths_iff : p ∈ writtenPaths parent c ↔
    p ∈ c.tree ∧ (parent = none ∨ p ∈ (deltaTo parent c).modified ∨
      p ∈ (deltaTo parent c).added) := by
  rw [writtenPaths, writtenFiles, List.mem_map]
  constructor
  · rintro ⟨file, hfile, rfl⟩
    obtain ⟨hmem, hcond⟩ := List.mem_filter.1 hfile
    refine ⟨List.mem_map_of_mem hmem, ?_⟩
    rw [Bool.or_eq_true, Bool.or_eq_true, decide_eq_true_eq, decide_eq_true_eq,
      Option.isNone_iff_eq_none, or_assoc] at hcond
    exact hcond
  · rintro ⟨hp, hcond⟩
    obtain ⟨file, hfile, rfl⟩ := List.mem_map.1 hp
    refine ⟨file, List.mem_filter.2 ⟨hfile, ?_⟩, rfl⟩
    rw [Bool.or_eq_true, Bool.or_eq_true, decide_eq_true_eq, decide_eq_true_eq,
      Option.isNone_iff_eq_none, or_assoc]
    exact hcond

lemma mem_deleted_iff :
    p ∈ (deltaTo parent c).deleted ↔ p ∉ c.tree ∧ ∃ old ∈ parent, p ∈ old.tree := by
  cases parent with
  | none =>
      refine ⟨fun h => absurd h List.not_mem_nil, ?_⟩
      rintro ⟨-, old, hold, -⟩
      exact absurd hold (Option.not_mem_none old)
  | some old =>
      rw [deltaTo, List.mem_filter, decide_eq_true_eq, AList.mem_keys]
      constructor
      · rintro ⟨hold, hnot⟩
        exact ⟨hnot, old, rfl, hold⟩
      · rintro ⟨hnot, old', hold', hmem⟩
        obtain rfl := Option.some.inj hold'
        exact ⟨hmem, hnot⟩

lemma ne_nil_of_mem_touchedPaths (h : p ∈ touchedPaths parent c) : p ≠ [] := by
  rcases List.mem_append.1 h with h | h
  · exact ne_nil_of_mem_tree (mem_writtenPaths_iff.1 h).1
  · obtain ⟨-, old, -, hold⟩ := mem_deleted_iff.1 h
    exact ne_nil_of_mem_tree hold

/-- What a commit has not touched, it has taken over. -/
lemma pageOf_of_not_mem (h : p ∉ touchedPaths parent c) : pageOf parent p = pageOf (some c) p := by
  obtain ⟨hwritten, hdeleted⟩ := not_or.1 fun h' => h (List.mem_append.2 h')
  rw [mem_writtenPaths_iff] at hwritten
  rw [mem_deleted_iff] at hdeleted
  cases parent with
  | none =>
      have hnot : p ∉ c.tree := fun hp => hwritten ⟨hp, .inl rfl⟩
      rw [pageOf, pageOf, Option.bind_some, AList.lookup_eq_none.2 hnot]
      rfl
  | some old =>
      have hlookup : old.tree.lookup p = c.tree.lookup p := by
        by_cases hp : p ∈ c.tree
        · have hold : p ∈ old.tree := by
            by_contra hold
            refine hwritten ⟨hp, .inr (.inr ?_)⟩
            exact List.mem_filter.2 ⟨hp, decide_eq_true hold⟩
          by_contra hne
          refine hwritten ⟨hp, .inr (.inl ?_)⟩
          exact List.mem_filter.2 ⟨hp, decide_eq_true ⟨hold, hne⟩⟩
        · have hold : p ∉ old.tree := fun hold => hdeleted ⟨hp, old, rfl, hold⟩
          rw [AList.lookup_eq_none.2 hp, AList.lookup_eq_none.2 hold]
      rw [pageOf, pageOf, Option.bind_some, Option.bind_some, hlookup]

lemma mem_tree_of_mem_delta
    (h : p ∈ (deltaTo parent c).modified ∨ p ∈ (deltaTo parent c).added) : p ∈ c.tree := by
  cases parent with
  | none => exact (h.elim List.not_mem_nil List.not_mem_nil).elim
  | some old =>
      rcases h with h | h
      · exact List.mem_of_mem_filter h
      · exact List.mem_of_mem_filter h

lemma path_of_mem_takeEntries {added modified paths : List Path} {entry : IndexEntry}
    (h : entry ∈ takeEntries added modified paths) :
    entry.path ∈ paths ∧ (entry.path ∈ added ∧ entry.html = .empty ∨
      entry.path ∈ modified ∧ entry.html = .modified) := by
  induction paths generalizing added modified with
  | nil => exact absurd h List.not_mem_nil
  | cons p rest ih =>
      rw [takeEntries] at h
      split_ifs at h with hadded hmodified
      · rcases List.mem_cons.1 h with rfl | h
        · exact ⟨List.mem_cons_self, .inl ⟨hadded, rfl⟩⟩
        · obtain ⟨hmem, hkind⟩ := ih h
          exact ⟨List.mem_cons_of_mem _ hmem,
            hkind.imp_left fun hkind => ⟨List.mem_of_mem_erase hkind.1, hkind.2⟩⟩
      · rcases List.mem_cons.1 h with rfl | h
        · exact ⟨List.mem_cons_self, .inr ⟨hmodified, rfl⟩⟩
        · obtain ⟨hmem, hkind⟩ := ih h
          exact ⟨List.mem_cons_of_mem _ hmem,
            hkind.imp_right fun hkind => ⟨List.mem_of_mem_erase hkind.1, hkind.2⟩⟩
      · obtain ⟨hmem, hkind⟩ := ih h
        exact ⟨List.mem_cons_of_mem _ hmem, hkind⟩

lemma ne_nil_of_mem_sort {lines : List Text} (h : p ∈ sortLastModifiedTimestamps lines) :
    p ≠ [] := by
  obtain ⟨entry, -, rfl⟩ := List.mem_map.1 h
  exact List.splitOn_ne_nil '/' entry.2

namespace Turn

variable (decode) in
/-- What the turn touches that is no file of its commit. -/
def strays (turn : Turn) : List Path :=
  if turn.parent.isNone then strayPaths decode (some turn.commit) else []

/-- The files are those that were written, or they are listed by the timestamps file. -/
lemma mem_ordered (h : p ∈ turn.ordered decode) :
    p ≠ [] ∧ (p ∈ turn.commit.tree ∨ p ∈ strayPaths decode (some turn.commit)) ∧
      (turn.commit.DoesNotListItself decode → p ≠ lastModifiedTimestampsFilepath) := by
  rw [ordered] at h
  split_ifs at h with htimestamps
  · cases hfile : turn.commit.tree.lookup lastModifiedTimestampsFilepath with
    | none =>
        rw [hfile] at h
        exact absurd h List.not_mem_nil
    | some file =>
        rw [hfile] at h
        refine ⟨ne_nil_of_mem_sort h, ?_, fun hlists hsame => hlists file hfile (hsame ▸ h)⟩
        by_cases htree : p ∈ turn.commit.tree
        · exact .inl htree
        · refine .inr ?_
          rw [strayPaths, Option.elim_some, hfile]
          exact List.mem_filter.2 ⟨h, decide_eq_true htree⟩
  · rw [List.mem_reverse, List.mem_insertionSort] at h
    have htree := (mem_writtenPaths_iff.1 h).1
    refine ⟨ne_nil_of_mem_tree htree, .inl htree, fun _ => ?_⟩
    rintro rfl
    exact htimestamps h

lemma path_mem_ordered {entry : IndexEntry} (h : entry ∈ turn.entries decode) :
    entry.path ∈ turn.ordered decode := by
  rw [entries] at h
  split_ifs at h with hroot
  · obtain ⟨p, hp, rfl⟩ := List.mem_map.1 h
    exact hp
  · exact (path_of_mem_takeEntries h).1

lemma ne_nil_of_mem_entries {entry : IndexEntry} (h : entry ∈ turn.entries decode) :
    entry.path ≠ [] := (mem_ordered (path_mem_ordered h)).1

/-- The index is told of the timestamps file only where that lists itself. -/
lemma ne_timestamps_of_mem_entries (hlists : turn.commit.DoesNotListItself decode)
    {entry : IndexEntry} (h : entry ∈ turn.entries decode) :
    entry.path ≠ lastModifiedTimestampsFilepath := (mem_ordered (path_mem_ordered h)).2.2 hlists

/-- The index is told of files that were written, or of strays. -/
lemma path_of_mem_entries {entry : IndexEntry} (h : entry ∈ turn.entries decode) :
    entry.path ∈ writtenPaths turn.parent turn.commit ∨ entry.path ∈ turn.strays decode := by
  have hordered := (mem_ordered (path_mem_ordered h)).2.1
  rw [entries] at h
  split_ifs at h with hroot
  · refine hordered.imp (fun htree => ?_) fun hstray => ?_
    · exact mem_writtenPaths_iff.2 ⟨htree, .inl (Option.isNone_iff_eq_none.1 hroot)⟩
    · rwa [strays, if_pos hroot]
  · have hkind := (path_of_mem_takeEntries h).2.symm.imp And.left And.left
    exact .inl (mem_writtenPaths_iff.2 ⟨mem_tree_of_mem_delta hkind, .inr hkind⟩)

lemma mem_actions {action : Action} (h : action ∈ turn.actions decode) :
    (∃ p ∈ (deltaTo turn.parent turn.commit).deleted, action = .delete turn.parent p) ∨
    (action = .writeDiff turn.parentOid turn.commit.oid) ∨
    (∃ file ∈ writtenFiles turn.parent turn.commit, action = .write file.1 file.2.content) ∨
    ∃ entry ∈ turn.entries decode,
      action = .list turn.parent (turn.searchedPath entry.path) entry := by
  rw [actions, List.mem_append, List.mem_append, List.mem_append] at h
  rcases h with ((h | h) | h) | h
  · obtain ⟨p, hp, rfl⟩ := List.mem_map.1 h
    exact .inl ⟨p, hp, rfl⟩
  · split_ifs at h with hmodified
    · exact absurd h List.not_mem_nil
    · exact .inr (.inl (List.mem_singleton.1 h))
  · obtain ⟨file, hfile, rfl⟩ := List.mem_map.1 h
    exact .inr (.inr (.inl ⟨file, hfile, rfl⟩))
  · obtain ⟨entry, hentry, rfl⟩ := List.mem_map.1 h
    exact .inr (.inr (.inr ⟨entry, hentry, rfl⟩))

/-- A turn is about the pages of the paths that its commit has touched, and of strays. -/
lemma isProper_of_mem_actions (hlists : turn.commit.DoesNotListItself decode) {action : Action}
    (h : action ∈ turn.actions decode) : action.IsProper ∧
      ∀ p ≠ [], ¬IsGenerated (outputPath p) → p ∉ touchedPaths turn.parent turn.commit →
        p ∉ turn.strays decode → outputPath p ≠ action.target := by
  rcases mem_actions h with ⟨q, hq, rfl⟩ | rfl | ⟨file, hfile, rfl⟩ | ⟨entry, hentry, rfl⟩
  · have htouched : q ∈ touchedPaths turn.parent turn.commit := List.mem_append_right _ hq
    have hne := ne_nil_of_mem_touchedPaths htouched
    refine ⟨hne, fun p hp _ hnot _ heq => ?_⟩
    by_cases hq' : q = lastModifiedTimestampsFilepath
    · rw [hq'] at heq
      exact outputPath_ne_htmlPath hp heq
    · have hsame := outputPath_injective hp hne (heq.trans (outputPath_of_ne hq').symm)
      rw [hsame] at hnot
      exact hnot htouched
  · refine ⟨trivial, fun p _ hgenerated _ _ heq => hgenerated ?_⟩
    rw [heq]
    exact isGenerated_diffHtmlFilePath _ _
  · have hwritten : file.1 ∈ writtenPaths turn.parent turn.commit := List.mem_map_of_mem hfile
    have htouched := List.mem_append_left (deltaTo turn.parent turn.commit).deleted hwritten
    have hne := ne_nil_of_mem_touchedPaths htouched
    refine ⟨hne, fun p hp _ hnot _ heq => ?_⟩
    have hsame := outputPath_injective hp hne heq
    rw [hsame] at hnot
    exact hnot htouched
  · have hne := ne_nil_of_mem_entries hentry
    have hne' := ne_timestamps_of_mem_entries hlists hentry
    have hmem := path_of_mem_entries hentry
    refine ⟨⟨hne, hne'⟩, fun p hp _ hnot hstray heq => ?_⟩
    have hsame := outputPath_injective hp hne (heq.trans (outputPath_of_ne hne').symm)
    rw [hsame] at hnot hstray
    exact hmem.elim (fun hwritten => hnot (List.mem_append_left _ hwritten)) hstray

end Turn

/-! ## A turn -/

/-- There are only pages that there may be. -/
def Session.HasNothingElse (s : Session) : Prop :=
  ∀ q, (s.destination.fileAt q).isSome → IsGenerated q ∨ ∃ p ≠ [], outputPath p = q

variable {s : Session} {actions : List Action}

/-- The pages that no action is about stay as they are, however far the actions get. -/
lemma fileAt_performed {value : Option Page} (h : ∀ action ∈ actions, q ≠ action.target)
    (hs : s.destination.fileAt q = value) :
    (Script.perform (Action.perform decode) actions s).1.destination.fileAt q = value :=
  Script.perform_of_forall (I := fun s : Session => s.destination.fileAt q = value)
    (fun action haction _ hs => (Action.fileAt_perform (h action haction)).trans hs) hs

lemma hasNothingElse_performed (h : ∀ action ∈ actions, action.IsProper) (hs : s.HasNothingElse) :
    (Script.perform (Action.perform decode) actions s).1.HasNothingElse :=
  Script.perform_of_forall (I := Session.HasNothingElse)
    (fun action haction _ hs => Action.nothingElse_perform (h action haction) hs) hs

/-- The pages of the files that were deleted are gone; the timestamps file cannot be deleted. -/
lemma fileAt_deletes {deleted : List Path} (hne : ∀ p ∈ deleted, p ≠ []) (hs : s.HasNothingElse)
    (hok : (Script.perform (Action.perform decode) (deleted.map (.delete parent)) s).2 = true)
    (hp : p ∈ deleted) :
    (Script.perform (Action.perform decode) (deleted.map (.delete parent)) s).1.destination.fileAt
      (outputPath p) = none := by
  induction deleted generalizing s with
  | nil => exact absurd hp List.not_mem_nil
  | cons first rest ih =>
      rw [List.map_cons] at hok ⊢
      obtain ⟨hfirst, hrest⟩ := Script.perform_cons_eq_true hok
      rw [hrest] at hok ⊢
      obtain ⟨hfile, hgone⟩ := Action.perform_delete hfirst
      have hproper : (Action.delete parent first).IsProper := hne first List.mem_cons_self
      rcases List.mem_cons.1 hp with rfl | hp
      · have hfirst' : p ≠ lastModifiedTimestampsFilepath := by
          rintro rfl
          rcases hs _ hfile with hgenerated | ⟨q, hq, heq⟩
          · exact not_isGenerated_htmlPath hgenerated
          · exact outputPath_ne_htmlPath hq heq
        rw [outputPath_of_ne hfirst']
        refine Script.perform_of_forall
          (I := fun s : Session => s.destination.fileAt (htmlPath p) = none) ?_ hgone
        intro action haction s hs
        obtain ⟨q, -, rfl⟩ := List.mem_map.1 haction
        exact Action.fileAt_delete_eq_none hs
      · exact ih (fun p hp => hne p (List.mem_cons_of_mem _ hp))
          (Action.nothingElse_perform hproper hs) hok hp

/-- The files that are written have their pages. -/
lemma fileAt_writes {files : List (Σ _ : Path, File)} (hne : ∀ file ∈ files, file.1 ≠ [])
    (hnodup : (files.map Sigma.fst).Nodup)
    (hok : (Script.perform (Action.perform decode)
      (files.map fun file => .write file.1 file.2.content) s).2 = true)
    {file : Σ _ : Path, File} (hfile : file ∈ files) :
    (Script.perform (Action.perform decode)
      (files.map fun file => .write file.1 file.2.content) s).1.destination.fileAt
        (outputPath file.1) = some (fileHtml file.1 file.2.content) := by
  induction files generalizing s with
  | nil => exact absurd hfile List.not_mem_nil
  | cons first rest ih =>
      rw [List.map_cons] at hok hnodup ⊢
      obtain ⟨hfirst, hrest⟩ := Script.perform_cons_eq_true hok
      rw [hrest] at hok ⊢
      obtain ⟨hnew, hnodup⟩ := List.nodup_cons.1 hnodup
      have hne' : ∀ file ∈ rest, file.1 ≠ [] := fun file h => hne file (List.mem_cons_of_mem _ h)
      rcases List.mem_cons.1 hfile with rfl | hfile
      · refine fileAt_performed (fun action haction => ?_) (Action.perform_write hfirst)
        obtain ⟨other, hother, rfl⟩ := List.mem_map.1 haction
        intro heq
        have hsame := outputPath_injective (hne _ List.mem_cons_self) (hne' other hother) heq
        rw [hsame] at hnew
        exact hnew (List.mem_map_of_mem hother)
      · exact ih hne' hnodup hok hfile

lemma nodup_writtenPaths : (writtenPaths parent c).Nodup :=
  (List.filter_sublist.map Sigma.fst).nodup c.tree.nodupKeys

namespace Turn

/-- What was written has the page of the commit. -/
lemma fileAt_of_written
    (hok : (Script.perform (Action.perform decode) (turn.actions decode) s).2 = true)
    (hp : p ∈ writtenPaths turn.parent turn.commit) :
    (Script.perform (Action.perform decode) (turn.actions decode) s).1.destination.fileAt
      (outputPath p) = pageOf (some turn.commit) p := by
  obtain ⟨file, hfile, rfl⟩ := List.mem_map.1 hp
  have hlookup : turn.commit.tree.lookup file.1 = some file.2 :=
    AList.mem_lookup_iff.2 (List.mem_of_mem_filter hfile)
  rw [pageOf, Option.bind_some, hlookup]
  rw [actions] at hok ⊢
  obtain ⟨hwritten, hlist⟩ := Script.perform_append_eq_true hok
  obtain ⟨-, hwrite⟩ := Script.perform_append_eq_true hwritten
  rw [hlist]
  rw [hwrite] at hwritten ⊢
  have hpage := fileAt_writes
    (fun file hfile => ne_nil_of_mem_touchedPaths
      (List.mem_append_left _ (List.mem_map_of_mem hfile)))
    nodup_writtenPaths hwritten hfile
  refine Script.perform_of_forall (I := fun s : Session =>
    s.destination.fileAt (outputPath file.1) = some (fileHtml file.1 file.2.content)) ?_ hpage
  intro action haction s hs
  obtain ⟨entry, -, rfl⟩ := List.mem_map.1 haction
  rw [Action.fileAt_list (by rw [hs]; rfl), hs]

/-- What was deleted has no page. -/
lemma fileAt_of_deleted (hlists : turn.commit.DoesNotListItself decode) (hs : s.HasNothingElse)
    (hok : (Script.perform (Action.perform decode) (turn.actions decode) s).2 = true)
    (hgenerated : ¬IsGenerated (outputPath p))
    (hp : p ∈ (deltaTo turn.parent turn.commit).deleted) :
    (Script.perform (Action.perform decode) (turn.actions decode) s).1.destination.fileAt
      (outputPath p) = none := by
  have hne : ∀ q ∈ (deltaTo turn.parent turn.commit).deleted, q ≠ [] := fun q hq =>
    ne_nil_of_mem_touchedPaths (List.mem_append_right _ hq)
  have hother : ∀ q ∈ writtenPaths turn.parent turn.commit, outputPath p ≠ outputPath q := by
    intro q hq heq
    have htree := (mem_writtenPaths_iff.1 hq).1
    have hsame := outputPath_injective (hne p hp) (ne_nil_of_mem_tree htree) heq
    rw [← hsame] at htree
    exact (mem_deleted_iff.1 hp).1 htree
  rw [actions, List.append_assoc, List.append_assoc] at hok ⊢
  obtain ⟨hdelete, hrest⟩ := Script.perform_append_eq_true hok
  rw [hrest]
  refine fileAt_performed (fun action haction => ?_) (fileAt_deletes hne hs hdelete hp)
  rcases List.mem_append.1 haction with h | h
  · split_ifs at h with hmodified
    · exact absurd h List.not_mem_nil
    · rw [List.mem_singleton.1 h]
      intro heq
      exact hgenerated (heq ▸ isGenerated_diffHtmlFilePath _ _)
  · rcases List.mem_append.1 h with h | h
    · obtain ⟨file, hfile, rfl⟩ := List.mem_map.1 h
      exact hother _ (List.mem_map_of_mem hfile)
    · obtain ⟨entry, hentry, rfl⟩ := List.mem_map.1 h
      have hne' := ne_timestamps_of_mem_entries hlists hentry
      intro heq
      refine hother _ ((path_of_mem_entries hentry).resolve_right fun hstray => ?_)
        (heq.trans (outputPath_of_ne hne').symm)
      -- nothing is deleted by the first commit, and only that one has strays
      obtain ⟨-, old, hold, -⟩ := mem_deleted_iff.1 hp
      rw [strays, hold] at hstray
      exact List.not_mem_nil hstray

/-- **A turn that succeeds** takes the pages from one commit to the next. -/
lemma mirrors_perform (turn : Turn) {exempt : List Path}
    (hlists : turn.commit.DoesNotListItself decode) (hstrays : ∀ p ∈ turn.strays decode, p ∈ exempt)
    (h : Mirrors turn.parent (touchedPaths turn.parent turn.commit ++ exempt) s.destination)
    (hok : (Script.perform (Action.perform decode) (turn.actions decode) s).2 = true) :
    Mirrors (some turn.commit) exempt
      (Script.perform (Action.perform decode) (turn.actions decode) s).1.destination := by
  refine ⟨fun p hne hgenerated hp => ?_, ?_⟩
  · by_cases htouched : p ∈ touchedPaths turn.parent turn.commit
    · rcases List.mem_append.1 htouched with hwritten | hdeleted
      · exact fileAt_of_written hok hwritten
      · rw [fileAt_of_deleted hlists h.nothingElse hok hgenerated hdeleted, pageOf,
          Option.bind_some, AList.lookup_eq_none.2 (mem_deleted_iff.1 hdeleted).1, Option.map_none]
    · have hnot : p ∉ touchedPaths turn.parent turn.commit ++ exempt := fun h =>
        (List.mem_append.1 h).elim htouched hp
      rw [← pageOf_of_not_mem htouched, ← h.pages p hne hgenerated hnot]
      exact fileAt_performed (fun action haction =>
        (isProper_of_mem_actions hlists haction).2 p hne hgenerated htouched
          fun hstray => hp (hstrays p hstray)) rfl
  · exact hasNothingElse_performed
      (fun action haction => (isProper_of_mem_actions hlists haction).1) h.nothingElse

end Turn

/-! ## A run -/

variable {pending : List Commit} {parentOid : Text} {strays : List Path}

/-- A run that begins with the first commit has its strays. -/
def HasStrays (decode : Blob → Text) (strays : List Path) (parent : Option Commit)
    (pending : List Commit) : Prop :=
  parent = none → ∀ p ∈ strayPaths decode pending.head?, p ∈ strays

lemma hasStrays_of_parent : HasStrays decode strays (some c) pending := nofun

lemma HasStrays.of_turn (h : HasStrays decode strays parent (c :: pending)) :
    ∀ p ∈ Turn.strays decode ⟨parent, c, parentOid⟩, p ∈ strays := by
  intro p hp
  rw [Turn.strays] at hp
  split_ifs at hp with hroot
  · exact h (Option.isNone_iff_eq_none.1 hroot) p hp
  · exact absurd hp List.not_mem_nil

/-- A run is about the pages of the paths that its commits have touched, and of strays. -/
lemma isProper_of_mem_runActions (hlists : ∀ c ∈ pending, c.DoesNotListItself decode)
    (hstrays : HasStrays decode strays parent pending)
    {action : Action} (h : action ∈ runActions decode parent parentOid pending) :
    action.IsProper ∧ ∀ p ≠ [], ¬IsGenerated (outputPath p) →
      p ∉ pendingPaths parent pending ++ strays → outputPath p ≠ action.target := by
  induction pending generalizing parent parentOid with
  | nil =>
      rw [List.mem_singleton.1 h]
      refine ⟨trivial, fun p _ hgenerated _ heq => hgenerated ?_⟩
      rw [heq]
      exact isGenerated_indexHtml
  | cons c rest ih =>
      rw [pendingPaths]
      rcases List.mem_append.1 h with h | h
      · obtain ⟨hproper, hother⟩ :=
          Turn.isProper_of_mem_actions (hlists c List.mem_cons_self) h
        refine ⟨hproper, fun p hne hgenerated hp => hother p hne hgenerated ?_ ?_⟩
        · exact fun h => hp (List.mem_append_left _ (List.mem_append_left _ h))
        · exact fun h => hp (List.mem_append_right _ (hstrays.of_turn p h))
      · obtain ⟨hproper, hother⟩ :=
          ih (fun c hc => hlists c (List.mem_cons_of_mem _ hc)) hasStrays_of_parent h
        refine ⟨hproper, fun p hne hgenerated hp => hother p hne hgenerated fun h => hp ?_⟩
        rw [List.append_assoc]
        exact List.mem_append_right _ h

/-- **However far a run gets**, the pages that it is not about are as they were. -/
lemma mirrors_performed (hlists : ∀ c ∈ pending, c.DoesNotListItself decode)
    (hstrays : HasStrays decode strays parent pending)
    (hactions : ∀ action ∈ actions, action ∈ runActions decode parent parentOid pending)
    (h : Mirrors parent (pendingPaths parent pending ++ strays) s.destination) :
    Mirrors parent (pendingPaths parent pending ++ strays)
      (Script.perform (Action.perform decode) actions s).1.destination := by
  have hproper := fun action haction =>
    isProper_of_mem_runActions hlists hstrays (hactions action haction)
  refine ⟨fun p hne hgenerated hp => ?_, ?_⟩
  · exact fileAt_performed (fun action haction => (hproper action haction).2 p hne hgenerated hp)
      (h.pages p hne hgenerated hp)
  · exact hasNothingElse_performed (fun action haction => (hproper action haction).1) h.nothingElse

/-- **A run that succeeds** leaves the pages of its last commit. -/
lemma mirrors_run (hlists : ∀ c ∈ pending, c.DoesNotListItself decode)
    (hstrays : HasStrays decode strays parent pending)
    (h : Mirrors parent (pendingPaths parent pending ++ strays) s.destination)
    (hok : (Script.perform (Action.perform decode)
      (runActions decode parent parentOid pending) s).2 = true) :
    Mirrors (pending.getLast?.or parent) strays (Script.perform (Action.perform decode)
      (runActions decode parent parentOid pending) s).1.destination := by
  induction pending generalizing parent parentOid s with
  | nil =>
      rw [List.getLast?_nil, Option.none_or]
      exact mirrors_performed hlists hstrays (fun action haction => haction) h
  | cons c rest ih =>
      rw [runActions] at hok ⊢
      obtain ⟨hturn, hrest⟩ := Script.perform_append_eq_true hok
      rw [hrest] at hok ⊢
      rw [pendingPaths, List.append_assoc] at h
      have hnext := Turn.mirrors_perform ⟨parent, c, parentOid⟩ (hlists c List.mem_cons_self)
        (fun p hp => List.mem_append_right _ (hstrays.of_turn p hp)) h hturn
      have hlast : (c :: rest).getLast?.or parent = rest.getLast?.or (some c) := by
        cases rest with
        | nil => rfl
        | cons d more => rfl
      rw [hlast]
      exact ih (fun c hc => hlists c (List.mem_cons_of_mem _ hc)) hasStrays_of_parent hnext hok

/-! ## Run after run -/

lemma mem_pendingPaths_append (h : p ∈ pendingPaths parent pending) :
    p ∈ pendingPaths parent (pending ++ [c]) := by
  induction pending generalizing parent with
  | nil => exact absurd h List.not_mem_nil
  | cons first rest ih =>
      rw [List.cons_append, pendingPaths]
      rcases List.mem_append.1 h with h | h
      · exact List.mem_append_left _ h
      · exact List.mem_append_right _ (ih h)

namespace GitWeb

/-- What is known of all that the program goes through. -/
structure IsMirror (decode : Blob → Text) (s : GitWeb) : Prop where
  mirrors : s.MirrorsHandled decode
  lists : ∀ c ∈ s.pending, c.DoesNotListItself decode

/-- Nothing was handled before the first commit. -/
lemma hasStrays (s : GitWeb) :
    HasStrays decode (strayPaths decode (s.handled ++ s.pending).head?) s.parent s.pending := by
  intro hparent p hp
  rwa [List.getLast?_eq_none_iff.1 hparent, List.nil_append]

lemma strayPaths_append {commits : List Commit} (h : p ∈ strayPaths decode commits.head?) :
    p ∈ strayPaths decode (commits ++ [c]).head? := by
  cases commits with
  | nil => exact absurd h List.not_mem_nil
  | cons first rest => exact h

lemma IsMirror.step {s : GitWeb} (h : s.IsMirror decode) {event : GitWebEvent}
    (hevent : event.DoesNotListItself decode) : (s.step decode event).IsMirror decode := by
  cases event with
  | commit c =>
      refine ⟨⟨fun p hne hgenerated hp => ?_, h.mirrors.nothingElse⟩, fun c' hc' => ?_⟩
      · refine h.mirrors.pages p hne hgenerated fun hbefore => hp ?_
        rcases List.mem_append.1 hbefore with hpending | hstray
        · exact List.mem_append_left _ (mem_pendingPaths_append hpending)
        · refine List.mem_append_right _ ?_
          have hafter := strayPaths_append (c := c) hstray
          rwa [List.append_assoc] at hafter
      · rcases List.mem_append.1 hc' with hc' | hc'
        · exact h.lists c' hc'
        · rwa [List.mem_singleton.1 hc']
  | run parentOid =>
      rw [GitWeb.step]
      split_ifs with hpending
      · exact h
      · cases hok : (s.performed decode (runActions decode s.parent parentOid s.pending)).2 with
        | false =>
            rw [generateStaticGitWeb_of_fails hok]
            exact ⟨mirrors_performed (s := s.session) h.lists s.hasStrays
              (fun action haction => haction) h.mirrors, h.lists⟩
        | true =>
            rw [generateStaticGitWeb_of_succeeds hok]
            refine ⟨?_, fun c hc => absurd hc List.not_mem_nil⟩
            have hall := mirrors_run (s := s.session) h.lists s.hasStrays h.mirrors hok
            rw [parent, ← List.getLast?_append] at hall
            rw [MirrorsHandled, List.append_nil]
            exact hall
  | stopped parentOid n killed =>
      rw [GitWeb.step]
      split_ifs with hpending
      · exact h
      · exact ⟨mirrors_performed (s := s.session) h.lists s.hasStrays
          (fun action haction => List.mem_of_mem_take haction) h.mirrors, h.lists⟩

/-- **The pages are those of the commit that was handled last**, apart from those of the files that
a later commit has written or deleted.  After a run that succeeds there is no later commit.

Nothing is asked of the commits but that no timestamps file lists itself.  If one did, the page that
`touch` makes for it would let its deletion succeed, which removes that page and leaves the copy of
the timestamps file.

An old page is as wrong as one that is missing: a page has to be that of the file in the commit that
was handled last.  Files with a generated name and stray pages are exempt as said above, and no
others. -/
theorem mirrorsHandled {events : List GitWebEvent}
    (h : ∀ event ∈ events, event.DoesNotListItself decode) :
    Machine.HoldsThroughout (GitWeb.step decode) (MirrorsHandled decode) initial events := by
  have hinitial : initial.IsMirror decode := by
    refine ⟨⟨fun p _ _ _ => rfl, fun q hq => ?_⟩, fun c hc => absurd hc List.not_mem_nil⟩
    exact absurd hq Bool.false_ne_true
  have hall : Machine.HoldsThroughout (GitWeb.step decode) (IsMirror decode) initial events :=
    Machine.holdsThroughout_of_staysWithin (fun s event hs hevent => hs.step hevent) hinitial
      (Machine.staysWithin_of_forall h)
  exact hall.imp fun s hs => hs.mirrors

end GitWeb

/-! ## A history in two runs -/

def latin1 (content : Blob) : Text := content.map fun byte => Char.ofNat byte.toNat

def plainFile (content : String) : File :=
  ⟨false, content.toList.map fun c => c.toNat.toUInt8⟩

def drafted : Commit where
  oid := "4f2".toList
  time := 5
  tree := [⟨lastModifiedTimestampsFilepath, plainFile "docs/todo:4\ndraft:5\n"⟩,
    ⟨["docs".toList, "todo".toList], plainFile "y"⟩,
    ⟨["draft".toList], plainFile "x"⟩].toAList
  named := by decide

/-- A file is deleted, two are modified and one is added.  The timestamps file lists the folder. -/
def published : Commit where
  oid := "9b1".toList
  time := 7
  tree := [⟨lastModifiedTimestampsFilepath, plainFile "docs/:6\ndocs/todo:6\nnotes:7\n"⟩,
    ⟨["docs".toList, "todo".toList], plainFile "yy"⟩,
    ⟨["notes".toList], plainFile "z"⟩].toAList
  named := by decide

/-- A run is killed in the first commit, and one before it has begun with the second. -/
def draftedAndPublished : List GitWebEvent :=
  [.commit drafted, .stopped [] 3 true, .run [], .commit published, .stopped [] 0 true, .run []]

theorem mirrorsHandled_draftedAndPublished :
    (∀ event ∈ draftedAndPublished, event.DoesNotListItself latin1) ∧
      (Machine.run (GitWeb.step latin1) GitWeb.initial draftedAndPublished).handled.length = 2 ∧
      Machine.HoldsThroughout (GitWeb.step latin1) (GitWeb.MirrorsHandled latin1) GitWeb.initial
        draftedAndPublished :=
  ⟨by decide +kernel, by decide +kernel, GitWeb.mirrorsHandled (by decide +kernel)⟩

end Autobackup.QuickDirtyStaticGitWeb
