import Autobackup.Foundation.QString
import Mathlib.Data.List.Nodup

/-!
# Directory trees

A directory holds files and directories.  In a well-formed one no name has a slash, and no two
entries of one directory have the same name.  Then no two entries of the tree have the same path
(`nodup_listing`), and what is in a directory is listed right behind it
(`isContiguous_of_mem`).
-/

namespace Autobackup.DirectoryTree

open QString

variable {σ : Type}

inductive Entry (σ : Type) where
  | file (name : Text) (content : σ)
  | directory (name : Text) (entries : List (Entry σ))

def Entry.name : Entry σ → Text
  | file name _ => name
  | directory name _ => name

def Entry.isDirectory : Entry σ → Bool
  | file _ _ => false
  | directory _ _ => true

mutual

def Entry.height : Entry σ → ℕ
  | .file _ _ => 0
  | .directory _ entries => height entries + 1

/-- How deep the directories are nested. -/
def height : List (Entry σ) → ℕ
  | [] => 0
  | entry :: rest => max entry.height (height rest)

end

/-- What a traversal meets.  A directory has no content. -/
structure Listed (σ : Type) where
  name : Text
  path : Text
  content : Option σ

mutual

/-- The entry, and what is below it. -/
def Entry.listing (folder : Text) : Entry σ → List (Listed σ)
  | .file name content => [⟨name, folder ++ name, some content⟩]
  | .directory name entries =>
      ⟨name, folder ++ name, none⟩ :: listing (folder ++ name ++ ['/']) entries

def listing (folder : Text) : List (Entry σ) → List (Listed σ)
  | [] => []
  | entry :: rest => entry.listing folder ++ listing folder rest

end

mutual

def Entry.WellFormed : Entry σ → Prop
  | .file name _ => '/' ∉ name
  | .directory name entries => '/' ∉ name ∧ WellFormed entries

def WellFormed : List (Entry σ) → Prop
  | [] => True
  | entry :: rest => entry.WellFormed ∧ (∀ other ∈ rest, other.name ≠ entry.name) ∧ WellFormed rest

end

variable {folder : Text} {entry : Entry σ} {entries : List (Entry σ)} {listed : Listed σ}

lemma slash_not_mem_name (h : entry.WellFormed) : '/' ∉ entry.name := by
  cases entry with
  | file name content =>
      rw [Entry.WellFormed] at h
      exact h
  | directory name entries =>
      rw [Entry.WellFormed] at h
      exact h.1

lemma mem_listing : listed ∈ listing folder entries ↔ ∃ entry ∈ entries,
    listed ∈ entry.listing folder := by
  induction entries with
  | nil => simp [listing]
  | cons entry rest ih => simp only [listing, List.mem_append, ih, List.exists_mem_cons_iff]

lemma listing_append {before after : List (Entry σ)} :
    listing folder (before ++ after) = listing folder before ++ listing folder after := by
  induction before with
  | nil =>
      rw [listing]
      rfl
  | cons entry before ih => rw [List.cons_append, listing, listing, ih, List.append_assoc]

mutual

/-- Below an entry every path goes on from the one of the entry. -/
lemma Entry.path_of_mem (folder : Text) : ∀ (entry : Entry σ) {listed : Listed σ},
    listed ∈ entry.listing folder → ∃ rest, listed.path = folder ++ (entry.name ++ rest) ∧
      (rest = [] ∨ ∃ rest', rest = '/' :: rest')
  | .file name content, listed, h => by
      rw [Entry.listing, List.mem_singleton] at h
      exact ⟨[], by rw [h, List.append_nil]; rfl, .inl rfl⟩
  | .directory name entries, listed, h => by
      rw [Entry.listing, List.mem_cons] at h
      rcases h with rfl | h
      · exact ⟨[], by rw [List.append_nil]; rfl, .inl rfl⟩
      · obtain ⟨rest, hrest⟩ := path_of_mem (folder ++ name ++ ['/']) entries h
        refine ⟨'/' :: rest, ?_, .inr ⟨rest, rfl⟩⟩
        rw [hrest]
        simp [Entry.name]

lemma path_of_mem (folder : Text) : ∀ (entries : List (Entry σ)) {listed : Listed σ},
    listed ∈ listing folder entries → ∃ rest, listed.path = folder ++ rest
  | [], listed, h => by
      rw [listing] at h
      cases h
  | entry :: entries, listed, h => by
      rw [listing, List.mem_append] at h
      rcases h with h | h
      · obtain ⟨rest, hrest, -⟩ := Entry.path_of_mem folder entry h
        exact ⟨_, hrest⟩
      · exact path_of_mem folder entries h

end

/-- The name of an entry can be read from the path of what is below it. -/
lemma takeWhile_of_mem (hentry : entry.WellFormed) (h : listed ∈ entry.listing folder) :
    (listed.path.drop folder.length).takeWhile (· ≠ '/') = entry.name := by
  obtain ⟨rest, hrest, hslash⟩ := Entry.path_of_mem folder entry h
  have hname : ∀ c ∈ entry.name, decide (c ≠ '/') = true := fun c hc =>
    decide_eq_true fun hc' => slash_not_mem_name hentry (hc' ▸ hc)
  rw [hrest, List.drop_left, List.takeWhile_append_of_pos hname]
  rcases hslash with rfl | ⟨rest, rfl⟩
  · rw [List.takeWhile_nil, List.append_nil]
  · rw [List.takeWhile_cons_of_neg (by simp), List.append_nil]

lemma wellFormed_of_mem : ∀ {entries : List (Entry σ)}, WellFormed entries →
    ∀ entry ∈ entries, entry.WellFormed
  | [], _, _, h => absurd h List.not_mem_nil
  | first :: rest, hentries, entry, h => by
      rw [WellFormed] at hentries
      rcases List.mem_cons.1 h with rfl | h
      · exact hentries.1
      · exact wellFormed_of_mem hentries.2.2 entry h

mutual

lemma Entry.nodup_listing (folder : Text) : ∀ entry : Entry σ, entry.WellFormed →
    ((entry.listing folder).map Listed.path).Nodup
  | .file name content, _ => by
      rw [Entry.listing]
      exact List.nodup_singleton _
  | .directory name entries, h => by
      rw [Entry.WellFormed] at h
      rw [Entry.listing, List.map_cons, List.nodup_cons]
      refine ⟨fun hmem => ?_, nodup_listing _ entries h.2⟩
      obtain ⟨listed, hlisted, hpath⟩ := List.mem_map.1 hmem
      obtain ⟨rest, hrest⟩ := path_of_mem _ entries hlisted
      have hlength := congrArg List.length (hpath.symm.trans hrest)
      simp only [List.length_append, List.length_cons] at hlength
      omega

/-- **No two entries have the same path.** -/
theorem nodup_listing (folder : Text) : ∀ entries : List (Entry σ), WellFormed entries →
    ((listing folder entries).map Listed.path).Nodup
  | [], _ => by
      rw [listing]
      exact List.nodup_nil
  | entry :: rest, h => by
      rw [WellFormed] at h
      rw [listing, List.map_append, List.nodup_append']
      refine ⟨Entry.nodup_listing folder entry h.1, nodup_listing folder rest h.2.2, ?_⟩
      intro path hfirst hrest
      obtain ⟨listed, hlisted, rfl⟩ := List.mem_map.1 hfirst
      obtain ⟨listed', hlisted', hpath⟩ := List.mem_map.1 hrest
      obtain ⟨other, hother, hbelow⟩ := mem_listing.1 hlisted'
      -- Both paths go on from the name of the entry that they are below.
      have hname := takeWhile_of_mem (wellFormed_of_mem h.2.2 other hother) hbelow
      rw [hpath, takeWhile_of_mem h.1 hlisted] at hname
      exact h.2.1 other hother hname.symm

end

/-! ## What is in a directory -/

variable {directory : Listed σ} {first second : List (Listed σ)}

def Listed.IsBelow (directory listed : Listed σ) : Prop := directory.path ++ ['/'] <+: listed.path

/-- What is in the directory stands behind it, and nothing else in between. -/
def IsContiguous (directory : Listed σ) (all : List (Listed σ)) : Prop :=
  ∃ before below after, all = before ++ directory :: (below ++ after) ∧
    (∀ listed ∈ below, directory.IsBelow listed) ∧
      ∀ listed ∈ before ++ after, ¬ directory.IsBelow listed

lemma IsContiguous.append_right (h : IsContiguous directory first)
    (hsecond : ∀ listed ∈ second, ¬ directory.IsBelow listed) :
    IsContiguous directory (first ++ second) := by
  obtain ⟨before, below, after, rfl, hbelow, hother⟩ := h
  refine ⟨before, below, after ++ second, ?_, hbelow, ?_⟩
  · simp only [List.append_assoc, List.cons_append]
  · rw [← List.append_assoc]
    exact List.forall_mem_append.2 ⟨hother, hsecond⟩

lemma IsContiguous.append_left (h : IsContiguous directory second)
    (hfirst : ∀ listed ∈ first, ¬ directory.IsBelow listed) :
    IsContiguous directory (first ++ second) := by
  obtain ⟨before, below, after, rfl, hbelow, hother⟩ := h
  refine ⟨first ++ before, below, after, ?_, hbelow, ?_⟩
  · simp only [List.append_assoc]
  · rw [List.append_assoc]
    exact List.forall_mem_append.2 ⟨hfirst, hother⟩

/-- What is below different entries is not below each other. -/
lemma not_isBelow_of_mem {other : Entry σ} (hentry : entry.WellFormed) (hother : other.WellFormed)
    (hne : other.name ≠ entry.name) (hdirectory : directory ∈ entry.listing folder)
    (hlisted : listed ∈ other.listing folder) : ¬ directory.IsBelow listed := by
  rintro ⟨further, hfurther⟩
  obtain ⟨rest, hrest, hslash⟩ := Entry.path_of_mem folder entry hdirectory
  have hname := takeWhile_of_mem hother hlisted
  have hkeep : ∀ c ∈ entry.name, decide (c ≠ '/') = true := fun c hc =>
    decide_eq_true fun hc' => slash_not_mem_name hentry (hc' ▸ hc)
  rw [← hfurther, hrest, List.append_assoc, List.append_assoc, List.drop_left, List.append_assoc,
    List.takeWhile_append_of_pos hkeep] at hname
  apply hne
  rcases hslash with rfl | ⟨rest, rfl⟩
  · rw [List.nil_append, List.singleton_append, List.takeWhile_cons_of_neg (by decide),
      List.append_nil] at hname
    exact hname.symm
  · rw [List.cons_append, List.takeWhile_cons_of_neg (by decide), List.append_nil] at hname
    exact hname.symm

mutual

lemma Entry.isContiguous_of_mem (folder : Text) : ∀ entry : Entry σ, entry.WellFormed →
    directory ∈ entry.listing folder → directory.content = none →
      IsContiguous directory (entry.listing folder)
  | .file name content, _, hmem, hnone => by
      rw [Entry.listing, List.mem_singleton] at hmem
      rw [hmem] at hnone
      cases hnone
  | .directory name entries, h, hmem, hnone => by
      rw [Entry.WellFormed] at h
      rw [Entry.listing] at hmem ⊢
      rcases List.mem_cons.1 hmem with rfl | hmem
      · refine ⟨[], listing (folder ++ name ++ ['/']) entries, [], ?_, ?_, ?_⟩
        · rw [List.append_nil, List.nil_append]
        · intro listed hlisted
          obtain ⟨rest, hrest⟩ := path_of_mem _ entries hlisted
          exact ⟨rest, hrest.symm⟩
        · exact fun listed hlisted => absurd hlisted List.not_mem_nil
      · have hrest := isContiguous_of_mem _ entries h.2 hmem hnone
        rw [← List.singleton_append]
        apply hrest.append_left
        intro listed hlisted hbelow
        rw [List.mem_singleton.1 hlisted] at hbelow
        obtain ⟨rest, hpath⟩ := path_of_mem _ entries hmem
        have hlength := hbelow.length_le
        rw [hpath] at hlength
        simp only [List.length_append, List.length_cons] at hlength
        omega

/-- **What is in a directory is listed right behind it.** -/
theorem isContiguous_of_mem (folder : Text) : ∀ entries : List (Entry σ), WellFormed entries →
    directory ∈ listing folder entries → directory.content = none →
      IsContiguous directory (listing folder entries)
  | [], _, hmem, _ => by
      rw [listing] at hmem
      cases hmem
  | entry :: rest, h, hmem, hnone => by
      rw [WellFormed] at h
      obtain ⟨hentry, hdistinct, hrest⟩ := h
      rw [listing] at hmem ⊢
      rcases List.mem_append.1 hmem with hmem | hmem
      · apply (Entry.isContiguous_of_mem folder entry hentry hmem hnone).append_right
        intro listed hlisted
        obtain ⟨other, hother, hbelow⟩ := mem_listing.1 hlisted
        exact not_isBelow_of_mem hentry (wellFormed_of_mem hrest other hother)
          (hdistinct other hother) hmem hbelow
      · apply (isContiguous_of_mem folder rest hrest hmem hnone).append_left
        intro listed hlisted
        obtain ⟨other, hother, hbelow⟩ := mem_listing.1 hmem
        exact not_isBelow_of_mem (wellFormed_of_mem hrest other hother) hentry
          (hdistinct other hother).symm hbelow hlisted

end

/-! ## Ignoring -/

section Prune

variable (ignoresFile ignoresDirectory : Text → Bool)

mutual

def Entry.prune : Entry σ → List (Entry σ)
  | .file name content => if ignoresFile name then [] else [.file name content]
  | .directory name entries =>
      if ignoresDirectory name then [] else [.directory name (prune entries)]

/-- Without the ignored entries, and what is below them. -/
def prune : List (Entry σ) → List (Entry σ)
  | [] => []
  | entry :: rest => entry.prune ++ prune rest

end

/-- Neither it nor a directory above it is ignored. -/
def Listed.IsWanted (folder : Text) (listed : Listed σ) : Prop :=
  (∀ name ∈ ((listed.path.drop folder.length).splitOn '/').dropLast,
      ignoresDirectory name = false) ∧
    if listed.content.isSome then ignoresFile listed.name = false
    else ignoresDirectory listed.name = false

variable {ignoresFile ignoresDirectory}

lemma splitOn_path_of_slash_not_mem {name : Text} (h : '/' ∉ name) :
    (((folder ++ name).drop folder.length).splitOn '/').dropLast = [] := by
  rw [List.drop_left, List.splitOn_eq_singleton h]
  rfl

/-- In a directory, that one must not be ignored either. -/
lemma isWanted_below {name : Text} (hname : '/' ∉ name)
    (h : listed ∈ listing (folder ++ name ++ ['/']) entries) :
    listed.IsWanted ignoresFile ignoresDirectory folder ↔ ignoresDirectory name = false ∧
      listed.IsWanted ignoresFile ignoresDirectory (folder ++ name ++ ['/']) := by
  obtain ⟨rest, hrest⟩ := path_of_mem _ entries h
  have hnames : ((listed.path.drop folder.length).splitOn '/').dropLast =
      name :: (rest.splitOn '/').dropLast := by
    rw [hrest, List.append_assoc, List.append_assoc, List.drop_left, List.singleton_append,
      List.splitOn_append_cons_self_of_not_mem hname,
      List.dropLast_cons_of_ne_nil (List.splitOn_ne_nil '/' rest)]
  have hbelow : listed.path.drop (folder ++ name ++ ['/']).length = rest := by
    rw [hrest, List.drop_left]
  unfold Listed.IsWanted
  rw [hnames, hbelow, List.forall_mem_cons, and_assoc]

mutual

lemma Entry.mem_listing_prune (folder : Text) : ∀ (entry : Entry σ) (_ : entry.WellFormed)
    {listed : Listed σ}, listed ∈ listing folder (entry.prune ignoresFile ignoresDirectory) ↔
      listed ∈ entry.listing folder ∧ listed.IsWanted ignoresFile ignoresDirectory folder
  | .file name content, h, listed => by
      rw [Entry.WellFormed] at h
      rw [Entry.prune, Entry.listing, List.mem_singleton]
      have hwanted : Listed.IsWanted ignoresFile ignoresDirectory folder
          (⟨name, folder ++ name, some content⟩ : Listed σ) ↔ ignoresFile name = false := by
        unfold Listed.IsWanted
        rw [splitOn_path_of_slash_not_mem h]
        simp only [List.not_mem_nil, false_implies, implies_true, true_and, Option.isSome_some,
          if_true]
      cases hignores : ignoresFile name with
      | true =>
          rw [if_pos rfl, listing]
          refine iff_of_false List.not_mem_nil ?_
          rintro ⟨rfl, hlisted⟩
          rw [hwanted, hignores] at hlisted
          cases hlisted
      | false =>
          rw [if_neg Bool.false_ne_true, listing, listing, List.append_nil, Entry.listing,
            List.mem_singleton]
          refine ⟨?_, And.left⟩
          rintro rfl
          exact ⟨rfl, hwanted.2 hignores⟩
  | .directory name entries, h, listed => by
      rw [Entry.WellFormed] at h
      obtain ⟨hname, hentries⟩ := h
      rw [Entry.prune, Entry.listing, List.mem_cons]
      have hwanted : Listed.IsWanted ignoresFile ignoresDirectory folder
          (⟨name, folder ++ name, none⟩ : Listed σ) ↔ ignoresDirectory name = false := by
        unfold Listed.IsWanted
        rw [splitOn_path_of_slash_not_mem hname]
        simp only [List.not_mem_nil, false_implies, implies_true, true_and, Option.isSome_none,
          Bool.false_eq_true, if_false]
      cases hignores : ignoresDirectory name with
      | true =>
          rw [if_pos rfl, listing]
          refine iff_of_false List.not_mem_nil ?_
          rintro ⟨rfl | hbelow, hlisted⟩
          · rw [hwanted, hignores] at hlisted
            cases hlisted
          · rw [isWanted_below hname hbelow, hignores] at hlisted
            cases hlisted.1
      | false =>
          rw [if_neg Bool.false_ne_true, listing, listing, List.append_nil, Entry.listing,
            List.mem_cons, mem_listing_prune _ entries hentries]
          constructor
          · rintro (rfl | ⟨hbelow, hlisted⟩)
            · exact ⟨Or.inl rfl, hwanted.2 hignores⟩
            · exact ⟨Or.inr hbelow, (isWanted_below hname hbelow).2 ⟨hignores, hlisted⟩⟩
          · rintro ⟨rfl | hbelow, hlisted⟩
            · exact Or.inl rfl
            · exact Or.inr ⟨hbelow, ((isWanted_below hname hbelow).1 hlisted).2⟩

/-- **What is listed of a tree without the ignored entries.** -/
theorem mem_listing_prune (folder : Text) : ∀ (entries : List (Entry σ)) (_ : WellFormed entries)
    {listed : Listed σ}, listed ∈ listing folder (prune ignoresFile ignoresDirectory entries) ↔
      listed ∈ listing folder entries ∧ listed.IsWanted ignoresFile ignoresDirectory folder
  | [], _, listed => by
      rw [prune, listing]
      exact iff_of_false List.not_mem_nil fun h => List.not_mem_nil h.1
  | entry :: rest, h, listed => by
      rw [WellFormed] at h
      rw [prune, listing_append, List.mem_append, listing, List.mem_append,
        Entry.mem_listing_prune folder entry h.1, mem_listing_prune folder rest h.2.2, or_and_right]

end

lemma wellFormed_append {before after : List (Entry σ)} (hbefore : WellFormed before)
    (hafter : WellFormed after)
    (hdistinct : ∀ entry ∈ before, ∀ other ∈ after, other.name ≠ entry.name) :
    WellFormed (before ++ after) := by
  induction before with
  | nil => exact hafter
  | cons entry before ih =>
      rw [WellFormed] at hbefore
      obtain ⟨hentry, hnames, hrest⟩ := hbefore
      obtain ⟨hentryDistinct, hrestDistinct⟩ := List.forall_mem_cons.1 hdistinct
      rw [List.cons_append, WellFormed]
      refine ⟨hentry, ?_, ih hrest hrestDistinct⟩
      exact List.forall_mem_append.2 ⟨hnames, hentryDistinct⟩

lemma wellFormed_singleton (h : entry.WellFormed) : WellFormed [entry] := by
  rw [WellFormed, WellFormed]
  exact ⟨h, fun other hother => absurd hother List.not_mem_nil, trivial⟩

lemma Entry.name_of_mem_prune {kept : Entry σ}
    (h : kept ∈ entry.prune ignoresFile ignoresDirectory) : kept.name = entry.name := by
  cases entry with
  | file name content =>
      rw [Entry.prune] at h
      split at h
      · cases h
      · rw [List.mem_singleton.1 h]
  | directory name entries =>
      rw [Entry.prune] at h
      split at h
      · cases h
      · rw [List.mem_singleton.1 h]
        rfl

lemma exists_name_of_mem_prune {kept : Entry σ}
    (h : kept ∈ prune ignoresFile ignoresDirectory entries) :
    ∃ entry ∈ entries, kept.name = entry.name := by
  induction entries with
  | nil =>
      rw [prune] at h
      cases h
  | cons entry rest ih =>
      rw [prune] at h
      rcases List.mem_append.1 h with hfirst | hrest
      · exact ⟨entry, List.mem_cons_self, Entry.name_of_mem_prune hfirst⟩
      · obtain ⟨other, hother, hname⟩ := ih hrest
        exact ⟨other, List.mem_cons_of_mem entry hother, hname⟩

mutual

lemma Entry.wellFormed_prune : ∀ entry : Entry σ, entry.WellFormed →
    WellFormed (entry.prune ignoresFile ignoresDirectory)
  | .file name content, h => by
      rw [Entry.prune]
      split
      · exact trivial
      · exact wellFormed_singleton h
  | .directory name entries, h => by
      rw [Entry.WellFormed] at h
      rw [Entry.prune]
      split
      · exact trivial
      · apply wellFormed_singleton
        rw [Entry.WellFormed]
        exact ⟨h.1, wellFormed_prune entries h.2⟩

lemma wellFormed_prune : ∀ entries : List (Entry σ), WellFormed entries →
    WellFormed (prune ignoresFile ignoresDirectory entries)
  | [], _ => trivial
  | entry :: rest, h => by
      rw [WellFormed] at h
      rw [prune]
      apply wellFormed_append (Entry.wellFormed_prune entry h.1) (wellFormed_prune rest h.2.2)
      intro kept hkept other hother
      obtain ⟨later, hlater, hname⟩ := exists_name_of_mem_prune hother
      rw [hname, Entry.name_of_mem_prune hkept]
      exact h.2.1 later hlater

end

end Prune

end Autobackup.DirectoryTree
