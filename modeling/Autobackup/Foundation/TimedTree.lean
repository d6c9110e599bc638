import Mathlib.Data.List.Infix
import Mathlib.Logic.Function.Basic

/-!
# Trees with modification times

What is at a path is a file or a directory, with the time of its last modification.  To make a
directory is a modification of the one that it is in: `mkpath` makes all that are missing on the
way, each of them at a time of its own, and so it gives new times to some that were there
(`mkpath_concat`).  Nothing else changes (`mkpath_of_not_isPrefix`).  `touch` gives a time to what
is there, and makes a file where nothing is.  Nothing that was there goes away or becomes something
of another kind (`KeepsKinds`).
-/

namespace Autobackup

structure TimedEntry where
  isDirectory : Bool
  lastModified : ℤ
  deriving DecidableEq, Repr

abbrev TimedTree (ν : Type) := List ν → Option TimedEntry

namespace TimedTree

variable {ν : Type} [DecidableEq ν]

def setTime (tree : TimedTree ν) (path : List ν) (s : ℤ) : TimedTree ν :=
  Function.update tree path ((tree path).map fun entry => { entry with lastModified := s })

/-- Make a directory, unless it is there.  `now` is the time at which each one is made. -/
def mkdir (now : List ν → ℤ) (tree : TimedTree ν) (path : List ν) : Option (TimedTree ν) :=
  match tree path with
  | some entry => if entry.isDirectory then some tree else none
  | none => some (Function.update (tree.setTime path.dropLast (now path)) path
      (some ⟨true, now path⟩))

/-- Make a directory, and those above it that are missing. -/
def mkpath (now : List ν → ℤ) (tree : TimedTree ν) (path : List ν) : Option (TimedTree ν) :=
  path.inits.foldlM (mkdir now) tree

omit [DecidableEq ν] in
/-- There is a directory. -/
def IsDir (tree : TimedTree ν) (path : List ν) : Prop :=
  (tree path).map TimedEntry.isDirectory = some true

omit [DecidableEq ν] in
instance (tree : TimedTree ν) (path : List ν) : Decidable (tree.IsDir path) :=
  inferInstanceAs (Decidable (_ = _))

/-- Give a time to what is there, or make a file, which is at the time `now`. -/
def touch (now : List ν → ℤ) (tree : TimedTree ν) (path : List ν) (s : ℤ) : Option (TimedTree ν) :=
  match tree path with
  | some _ => some (tree.setTime path s)
  | none =>
      if tree.IsDir path.dropLast then
        some (Function.update (tree.setTime path.dropLast (now path)) path (some ⟨false, s⟩))
      else none

variable {now : List ν → ℤ} {tree tree' : TimedTree ν} {path p q : List ν} {name : ν} {s : ℤ}
  {paths : List (List ν)}

lemma setTime_of_ne (h : p ≠ path) : tree.setTime path s p = tree p := Function.update_of_ne h _ _

@[simp] lemma setTime_self :
    tree.setTime path s path = (tree path).map fun entry => { entry with lastModified := s } :=
  Function.update_self _ _ _

lemma map_isDirectory_setTime :
    (tree.setTime path s p).map TimedEntry.isDirectory = (tree p).map TimedEntry.isDirectory := by
  by_cases h : p = path
  · subst h
    rw [setTime_self, Option.map_map]
    rfl
  · rw [setTime_of_ne h]

lemma mkdir_of_isDir (h : tree.IsDir path) : mkdir now tree path = some tree := by
  obtain ⟨entry, hentry, hdirectory⟩ := Option.map_eq_some_iff.1 h
  rw [mkdir, hentry]
  exact if_pos hdirectory

lemma mkdir_of_ne (h : mkdir now tree p = some tree') (hself : q ≠ p) (hparent : q ≠ p.dropLast) :
    tree' q = tree q := by
  rw [mkdir] at h
  split at h
  · split_ifs at h
    rw [Option.some.inj h]
  · rw [← Option.some.inj h, Function.update_of_ne hself, setTime_of_ne hparent]

lemma foldlM_mkdir_of_isDir (h : ∀ p ∈ paths, tree.IsDir p) :
    paths.foldlM (mkdir now) tree = some tree := by
  induction paths with
  | nil => rfl
  | cons p paths ih =>
      obtain ⟨hp, hpaths⟩ := List.forall_mem_cons.1 h
      rw [List.foldlM_cons, mkdir_of_isDir hp]
      exact ih hpaths

/-- **Only the path and what is above it changes.** -/
theorem mkpath_of_not_isPrefix (h : mkpath now tree path = some tree') (hq : ¬ q <+: path) :
    tree' q = tree q := by
  have hpaths : ∀ p ∈ path.inits, q ≠ p ∧ q ≠ p.dropLast := fun p hp => by
    have habove := (List.mem_inits p path).1 hp
    constructor
    · rintro rfl
      exact hq habove
    · rintro rfl
      exact hq ((List.dropLast_prefix p).trans habove)
  rw [mkpath] at h
  generalize path.inits = paths at h hpaths
  induction paths generalizing tree with
  | nil => rw [← Option.some.inj h]
  | cons p paths ih =>
      obtain ⟨⟨hself, hparent⟩, hrest⟩ := List.forall_mem_cons.1 hpaths
      rw [List.foldlM_cons] at h
      obtain ⟨next, hnext, h⟩ := Option.bind_eq_some_iff.1 h
      rw [ih h hrest, mkdir_of_ne hnext hself hparent]

lemma mkpath_of_isDir (h : ∀ p, p <+: path → tree.IsDir p) : mkpath now tree path = some tree :=
  foldlM_mkdir_of_isDir fun p hp => h p ((List.mem_inits p path).1 hp)

/-- Where only the last name is missing, no other directory is made. -/
lemma mkpath_eq_mkdir (h : ∀ p, p <+: path → tree.IsDir p) :
    mkpath now tree (path ++ [name]) = mkdir now tree (path ++ [name]) := by
  have hinits : (path ++ [name]).inits = path.inits ++ [path ++ [name]] := by
    rw [List.inits_append]
    rfl
  have habove : path.inits.foldlM (mkdir now) tree = some tree := mkpath_of_isDir h
  rw [mkpath, hinits, List.foldlM_append, habove, Option.bind_eq_bind, Option.bind_some,
    List.foldlM_cons]
  cases mkdir now tree (path ++ [name]) with
  | none => rfl
  | some tree' => rfl

/-- A directory in one that is there. -/
theorem mkpath_concat (h : ∀ p, p <+: path → tree.IsDir p) (hnone : tree (path ++ [name]) = none) :
    mkpath now tree (path ++ [name]) =
      some (Function.update (tree.setTime path (now (path ++ [name]))) (path ++ [name])
        (some ⟨true, now (path ++ [name])⟩)) := by
  rw [mkpath_eq_mkdir h, mkdir, hnone, List.dropLast_concat]

/-! ## One entry -/

/-- Nothing but the entry at the path has changed, and the time of the directory that it is in. -/
structure IsUpdate (path : List ν) (tree tree' : TimedTree ν) : Prop where
  others : ∀ q, q ≠ path → q ≠ path.dropLast → tree' q = tree q
  kinds : ∀ q, q ≠ path → (tree' q).map TimedEntry.isDirectory = (tree q).map TimedEntry.isDirectory

lemma isUpdate_setTime : IsUpdate path tree (tree.setTime path s) where
  others := fun _ hpath _ => setTime_of_ne hpath
  kinds := fun _ _ => map_isDirectory_setTime

lemma isUpdate_update {entry : Option TimedEntry} :
    IsUpdate path tree (Function.update (tree.setTime path.dropLast s) path entry) where
  others := fun q hpath hparent => by
    rw [Function.update_of_ne hpath, setTime_of_ne hparent]
  kinds := fun q hpath => by
    rw [Function.update_of_ne hpath, map_isDirectory_setTime]

/-- A directory is made, or is there. -/
lemma exists_mkdir (now : List ν → ℤ) (h : tree path = none ∨ tree.IsDir path) :
    ∃ tree', mkdir now tree path = some tree' ∧ tree'.IsDir path ∧ IsUpdate path tree tree' := by
  rcases h with hnone | hdir
  · refine ⟨_, by rw [mkdir, hnone], ?_, isUpdate_update⟩
    rw [IsDir, Function.update_self]
    rfl
  · exact ⟨tree, mkdir_of_isDir hdir, hdir, fun _ _ _ => rfl, fun _ _ => rfl⟩

/-- What is touched keeps its kind; what is made is a file. -/
lemma exists_touch (now : List ν → ℤ) (s : ℤ) (h : tree path = none → tree.IsDir path.dropLast) :
    ∃ tree', touch now tree path s = some tree' ∧ IsUpdate path tree tree' ∧
      tree' path = some ⟨(tree path).elim false TimedEntry.isDirectory, s⟩ := by
  cases hentry : tree path with
  | some entry =>
      refine ⟨tree.setTime path s, by rw [touch, hentry], isUpdate_setTime, ?_⟩
      rw [setTime_self, hentry]
      rfl
  | none =>
      refine ⟨_, by rw [touch, hentry]; exact if_pos (h hentry), isUpdate_update, ?_⟩
      rw [Function.update_self]
      rfl

omit [DecidableEq ν] in
lemma IsUpdate.isDir (h : IsUpdate path tree tree') (hq : q ≠ path) :
    tree'.IsDir q ↔ tree.IsDir q := by
  rw [IsDir, IsDir, h.kinds q hq]

/-! ## Kinds -/

omit [DecidableEq ν] in
/-- What was there is there, and is a directory if it was one. -/
def KeepsKinds (tree tree' : TimedTree ν) : Prop :=
  ∀ path isDirectory, (tree path).map TimedEntry.isDirectory = some isDirectory →
    (tree' path).map TimedEntry.isDirectory = some isDirectory

namespace KeepsKinds

omit [DecidableEq ν] in
lemma refl (tree : TimedTree ν) : KeepsKinds tree tree := fun _ _ h => h

omit [DecidableEq ν] in
lemma trans {tree'' : TimedTree ν} (h : KeepsKinds tree tree') (h' : KeepsKinds tree' tree'') :
    KeepsKinds tree tree'' := fun path isDirectory hkind =>
  h' path isDirectory (h path isDirectory hkind)

lemma setTime : KeepsKinds tree (tree.setTime path s) := fun _ _ hkind =>
  map_isDirectory_setTime.trans hkind

/-- Something is made where nothing was. -/
lemma update {entry : Option TimedEntry} (hnone : tree path = none) :
    KeepsKinds tree (Function.update (tree.setTime path.dropLast s) path entry) := by
  intro q isDirectory hkind
  by_cases hq : q = path
  · rw [hq, hnone] at hkind
    exact absurd hkind.symm (Option.some_ne_none _)
  · exact (isUpdate_update.kinds q hq).trans hkind

lemma touch (h : touch now tree path s = some tree') : KeepsKinds tree tree' := by
  rw [TimedTree.touch] at h
  split at h
  · exact Option.some.inj h ▸ setTime
  · next hnone =>
      split_ifs at h
      exact Option.some.inj h ▸ update hnone

lemma mkdir (h : mkdir now tree path = some tree') : KeepsKinds tree tree' := by
  rw [TimedTree.mkdir] at h
  split at h
  · split_ifs at h
    exact Option.some.inj h ▸ refl tree
  · next hnone => exact Option.some.inj h ▸ update hnone

lemma mkpath (h : mkpath now tree path = some tree') : KeepsKinds tree tree' := by
  rw [TimedTree.mkpath] at h
  generalize path.inits = paths at h
  induction paths generalizing tree with
  | nil => exact Option.some.inj h ▸ refl tree
  | cons p paths ih =>
      rw [List.foldlM_cons] at h
      obtain ⟨next, hnext, h⟩ := Option.bind_eq_some_iff.1 h
      exact (mkdir hnext).trans (ih h)

end KeepsKinds

end TimedTree

end Autobackup
