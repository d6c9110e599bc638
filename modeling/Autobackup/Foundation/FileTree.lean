import Mathlib.Data.List.Infix
import Mathlib.Data.List.Nodup

/-!
# File trees

A file system is a finite map from paths to files and folders.  `rename` moves what is at a path,
with everything below it, and succeeds iff the source is there and the destination is not.

Such a map need not be a tree.  It is one, `WellFormed`, if each path is listed once and the
folders above an entry are there, and a rename into a folder that is there keeps that.
-/

namespace Autobackup

/-- The entries of a file system.  A folder is an entry without content. -/
abbrev FileTree (ν σ : Type) := List (List ν × Option σ)

namespace FileTree

variable {ν σ : Type}

def paths (tree : FileTree ν σ) : List (List ν) := tree.map Prod.fst

def files (tree : FileTree ν σ) : List (List ν × σ) :=
  tree.filterMap fun entry => entry.2.map fun content => (entry.1, content)

instance [DecidableEq ν] (tree : FileTree ν σ) (p : List ν) : Decidable (p ∈ tree.paths) :=
  List.instDecidableMemOfLawfulBEq p tree.paths

structure WellFormed (tree : FileTree ν σ) : Prop where
  nodup : tree.paths.Nodup
  closed : ∀ p q, p ≠ [] → p <+: q → q ∈ tree.paths → p ∈ tree.paths

variable {tree tree' : FileTree ν σ} {src dst p : List ν}

/-! ## Files -/

lemma mem_files {file : List ν × σ} : file ∈ tree.files ↔ (file.1, some file.2) ∈ tree := by
  rw [files, List.mem_filterMap]
  constructor
  · rintro ⟨⟨p, content⟩, hmem, heq⟩
    obtain ⟨content', rfl, rfl⟩ := Option.map_eq_some_iff.1 heq
    exact hmem
  · exact fun hmem => ⟨_, hmem, rfl⟩

lemma mem_paths_of_mem_files {file : List ν × σ} (h : file ∈ tree.files) : file.1 ∈ tree.paths :=
  List.mem_map.2 ⟨_, mem_files.1 h, rfl⟩

lemma files_subset_paths : tree.files.map Prod.fst ⊆ tree.paths := fun p hp => by
  obtain ⟨file, hfile, rfl⟩ := List.mem_map.1 hp
  exact mem_paths_of_mem_files hfile

/-- Each file has its place. -/
lemma WellFormed.nodup_files (h : tree.WellFormed) : (tree.files.map Prod.fst).Nodup := by
  have hsub : (tree.files.map Prod.fst).Sublist tree.paths := by
    rw [files, List.map_filterMap, paths, ← List.filterMap_eq_map]
    clear h
    induction tree with
    | nil => exact List.Sublist.slnil
    | cons entry rest ih =>
        obtain ⟨p, content⟩ := entry
        cases content with
        | none => exact ih.cons p
        | some content => exact ih.cons_cons p
  exact h.nodup.sublist hsub

/-! ## Operations -/

lemma nodup_inits (p : List ν) : p.inits.Nodup := by
  induction p with
  | nil => simp
  | cons n rest ih =>
      rw [List.inits_cons, List.nodup_cons]
      exact ⟨by simp, ih.map List.cons_injective⟩

variable [DecidableEq ν]

/-- Where `p` is once `src` has been moved to `dst`. -/
def moved (src dst p : List ν) : List ν :=
  if src <+: p then dst ++ p.drop src.length else p

def rename (tree : FileTree ν σ) (src dst : List ν) : Option (FileTree ν σ) :=
  if src ∈ tree.paths ∧ dst ∉ tree.paths then
    some (tree.map fun entry => (moved src dst entry.1, entry.2))
  else none

/-- A folder and those above it, as far as they are missing. -/
def mkpath (tree : FileTree ν σ) (p : List ν) : FileTree ν σ :=
  tree ++ (p.inits.filter fun q => q ≠ [] ∧ q ∉ tree.paths).map fun q => (q, none)

/-! ## Moving -/

lemma moved_inside (rest : List ν) : moved src dst (src ++ rest) = dst ++ rest := by
  rw [moved, if_pos (List.prefix_append src rest), List.drop_left]

lemma moved_self : moved src dst src = dst := by
  have h : moved src dst (src ++ []) = dst ++ [] := moved_inside []
  rwa [List.append_nil, List.append_nil] at h

lemma moved_outside (h : ¬ src <+: p) : moved src dst p = p := if_neg h

/-- If nothing is at the destination, no two paths are moved to one. -/
lemma moved_injOn (h : tree.WellFormed) (hdst : dst ∉ tree.paths) (hne : dst ≠ []) {p q : List ν}
    (hp : p ∈ tree.paths) (hq : q ∈ tree.paths) (heq : moved src dst p = moved src dst q) :
    p = q := by
  have hfree (rest : List ν) : dst ++ rest ∉ tree.paths := fun hmem =>
    hdst (h.closed dst _ hne (List.prefix_append dst rest) hmem)
  by_cases hsp : src <+: p <;> by_cases hsq : src <+: q
  · obtain ⟨r, rfl⟩ := hsp
    obtain ⟨r', rfl⟩ := hsq
    rw [moved_inside, moved_inside] at heq
    rw [List.append_cancel_left heq]
  · obtain ⟨r, rfl⟩ := hsp
    rw [moved_inside, moved_outside hsq] at heq
    exact absurd (heq ▸ hq) (hfree r)
  · obtain ⟨r, rfl⟩ := hsq
    rw [moved_inside, moved_outside hsp] at heq
    exact absurd (heq ▸ hp) (hfree r)
  · rwa [moved_outside hsp, moved_outside hsq] at heq

/-! ## What a rename does -/

lemma rename_eq_some : tree.rename src dst = some tree' ↔
    (src ∈ tree.paths ∧ dst ∉ tree.paths) ∧
      tree' = tree.map fun entry => (moved src dst entry.1, entry.2) := by
  unfold rename
  split
  · next h => rw [Option.some_inj, and_iff_right h, eq_comm]
  · next h => exact ⟨fun hnone => absurd hnone (by simp), fun hsome => absurd hsome.1 h⟩

lemma paths_rename (h : tree.rename src dst = some tree') :
    tree'.paths = tree.paths.map (moved src dst) := by
  rw [(rename_eq_some.1 h).2, paths, paths, List.map_map, List.map_map]
  rfl

/-- The files are the same ones, at other places. -/
lemma files_rename (h : tree.rename src dst = some tree') :
    tree'.files = tree.files.map fun file => (moved src dst file.1, file.2) := by
  rw [(rename_eq_some.1 h).2, files, files, List.filterMap_map, List.map_filterMap]
  refine List.filterMap_congr fun ⟨p, content⟩ _ => ?_
  cases content with
  | none => rfl
  | some content => rfl

lemma mem_paths_rename (h : tree.rename src dst = some tree') :
    p ∈ tree'.paths ↔ ∃ q ∈ tree.paths, moved src dst q = p := by
  rw [paths_rename h, List.mem_map]

/-- What was not moved is still there. -/
lemma mem_paths_rename_outside (h : tree.rename src dst = some tree') (hp : p ∈ tree.paths)
    (hsrc : ¬ src <+: p) : p ∈ tree'.paths :=
  (mem_paths_rename h).2 ⟨p, hp, moved_outside hsrc⟩

lemma dst_mem_paths_rename (h : tree.rename src dst = some tree') : dst ∈ tree'.paths :=
  (mem_paths_rename h).2 ⟨src, (rename_eq_some.1 h).1.1, moved_self⟩

/-- **A rename into a folder that is there** leaves a tree. -/
theorem WellFormed.rename (hwf : tree.WellFormed) (parent : List ν) {name : ν}
    (h : tree.rename src (parent ++ [name]) = some tree')
    (hparent : parent ≠ [] → parent ∈ tree.paths) (hsrc : ¬ src <+: parent ++ [name]) :
    tree'.WellFormed := by
  have ⟨⟨hmem, hfree⟩, _⟩ := rename_eq_some.1 h
  have hkept {p q : List ν} (hp : p ∈ tree.paths) (hpq : p <+: q) (hq : ¬ src <+: q) :
      p ∈ tree'.paths :=
    mem_paths_rename_outside h hp fun hsp => hq (hsp.trans hpq)
  refine ⟨?_, fun p q hne hpq hq => ?_⟩
  · rw [paths_rename h]
    exact List.Nodup.map_on (fun p hp q hq => moved_injOn hwf hfree (by simp) hp hq) hwf.nodup
  · obtain ⟨q, hold, rfl⟩ := (mem_paths_rename h).1 hq
    by_cases hsq : src <+: q
    · obtain ⟨rest, rfl⟩ := hsq
      rw [moved_inside] at hpq
      rcases List.prefix_or_prefix_of_prefix hpq (List.prefix_append _ rest) with hp | hp
      · rcases List.prefix_concat_iff.1 hp with rfl | hp
        · exact dst_mem_paths_rename h
        · have hp' : p ∈ tree.paths := by
            have hparent' : parent ≠ [] := fun hnil => hne (List.prefix_nil.1 (hnil ▸ hp))
            exact hwf.closed p parent hne hp (hparent hparent')
          exact hkept hp' (hp.trans (List.prefix_append _ _)) hsrc
      · obtain ⟨s, rfl⟩ := hp
        have hs : src ++ s <+: src ++ rest :=
          (List.prefix_append_right_inj _).2 ((List.prefix_append_right_inj _).1 hpq)
        refine (mem_paths_rename h).2 ⟨src ++ s, ?_, moved_inside s⟩
        by_cases hnil : src ++ s = []
        · obtain ⟨rfl, -⟩ := List.append_eq_nil_iff.1 hnil
          exact absurd List.nil_prefix hsrc
        · exact hwf.closed _ _ hnil hs hold
    · rw [moved_outside hsq] at hpq
      exact hkept (hwf.closed p q hne hpq hold) hpq hsq

/-! ## Folders -/

lemma mem_paths_mkpath {q : List ν} :
    q ∈ (tree.mkpath p).paths ↔ q ∈ tree.paths ∨ q ≠ [] ∧ q <+: p := by
  have hnew : q ∈ ((p.inits.filter fun q => q ≠ [] ∧ q ∉ tree.paths).map fun q =>
      ((q, none) : List ν × Option σ)).map Prod.fst ↔ (q ≠ [] ∧ q <+: p) ∧ q ∉ tree.paths := by
    rw [List.map_map]
    simp only [Function.comp_def, List.map_id', List.mem_filter, List.mem_inits,
      decide_eq_true_eq]
    tauto
  rw [mkpath, paths, List.map_append, List.mem_append, hnew]
  constructor
  · exact Or.imp_right And.left
  · rintro (hq | hq)
    · exact .inl hq
    · exact (Classical.em (q ∈ tree.paths)).imp_right fun hnot => ⟨hq, hnot⟩

@[simp] lemma files_mkpath : (tree.mkpath p).files = tree.files := by
  rw [mkpath, files, List.filterMap_append, List.filterMap_map]
  have hnone : ((fun entry : List ν × Option σ => entry.2.map fun content => (entry.1, content)) ∘
      fun q => (q, none)) = fun _ => none := rfl
  rw [hnone, List.filterMap_none, List.append_nil]
  rfl

theorem WellFormed.mkpath (h : tree.WellFormed) : (tree.mkpath p).WellFormed := by
  refine ⟨?_, fun q q' hne hpre hq => ?_⟩
  · rw [FileTree.mkpath, paths, List.map_append, List.map_map]
    refine List.Nodup.append h.nodup ?_ ?_
    · simpa [Function.comp_def] using (nodup_inits p).filter _
    · intro q hq hq'
      simp only [List.mem_map, List.mem_filter, decide_eq_true_eq, Function.comp_apply] at hq'
      obtain ⟨q', ⟨-, -, hnot⟩, rfl⟩ := hq'
      exact hnot hq
  · rcases mem_paths_mkpath.1 hq with hq | ⟨-, hq⟩
    · exact mem_paths_mkpath.2 (.inl (h.closed q q' hne hpre hq))
    · exact mem_paths_mkpath.2 (.inr ⟨hne, hpre.trans hq⟩)

end FileTree

end Autobackup
