import Mathlib.Data.List.Infix
import Mathlib.Logic.Function.Basic

/-!
# A directory that files are written to

At a path there is a folder, a file or nothing.  `put` writes a file and makes the folders above it,
which works unless a file is where a folder should be or the other way round (`CanPut`).  Each of
the operations changes one file (`fileAt_put`, `fileAt_remove`, `fileAt_touch`).

`Holds` says what a tree has that nothing was removed from: the files that were written, and the
folders that they are in.  Another file can be written there if none of the files is a folder of
another (`Holds.canPut_iff`).  Where files are removed, their folders stay, and it is only known
what a tree has at most (`IsWithin`).
-/

namespace Autobackup

inductive WrittenEntry (σ : Type)
  | folder
  | file (content : σ)

/-- What is at each path; the root is a folder, whatever is said of it. -/
abbrev WrittenTree (ν σ : Type) := List ν → Option (WrittenEntry σ)

namespace WrittenTree

variable {ν σ : Type} {tree tree' : WrittenTree ν σ} {p q : List ν} {content : σ}

def empty : WrittenTree ν σ := fun _ => none

def fileAt (tree : WrittenTree ν σ) (p : List ν) : Option σ :=
  match tree p with
  | some (.file content) => some content
  | _ => none

def isFolder (tree : WrittenTree ν σ) (p : List ν) : Bool :=
  match tree p with
  | some .folder => true
  | _ => false

/-- The file can be written when the folders above it are made. -/
def CanPut (tree : WrittenTree ν σ) (p : List ν) : Prop :=
  (∀ q ∈ p.dropLast.inits, (tree.fileAt q).isNone) ∧ tree.isFolder p = false

instance (tree : WrittenTree ν σ) (p : List ν) : Decidable (tree.CanPut p) :=
  inferInstanceAs (Decidable (_ ∧ _))

variable [DecidableEq ν]

/-- The file and the folders above it. -/
def placed (tree : WrittenTree ν σ) (p : List ν) (content : σ) : WrittenTree ν σ := fun q =>
  if q = p then some (.file content)
  else if q ≠ [] ∧ q <+: p.dropLast then some .folder
  else tree q

/-- `mkpath`, and a file that is opened for writing. -/
def put (tree : WrittenTree ν σ) (p : List ν) (content : σ) : Option (WrittenTree ν σ) :=
  if tree.CanPut p then some (tree.placed p content) else none

/-- `QFile::remove` -/
def remove (tree : WrittenTree ν σ) (p : List ν) : Option (WrittenTree ν σ) :=
  if (tree.fileAt p).isSome then some (Function.update tree p none) else none

/-- `touch` makes an empty file where nothing is. -/
def touch (tree : WrittenTree ν σ) (p : List ν) (emptyFile : σ) : Option (WrittenTree ν σ) :=
  if (tree p).isSome then some tree
  else if p ≠ [] ∧ (p.dropLast = [] ∨ tree.isFolder p.dropLast) then
    some (Function.update tree p (some (.file emptyFile)))
  else none

/-! ## Removing -/

lemma fileAt_update_none :
    fileAt (Function.update tree p none) q = if q = p then none else tree.fileAt q := by
  unfold fileAt
  by_cases hq : q = p
  · rw [hq, Function.update_self, if_pos rfl]
  · rw [Function.update_of_ne hq, if_neg hq]

lemma fileAt_remove (h : tree.remove p = some tree') :
    (tree.fileAt p).isSome ∧ ∀ q, tree'.fileAt q = if q = p then none else tree.fileAt q := by
  unfold remove at h
  split_ifs at h with hfile
  obtain rfl := Option.some.inj h
  exact ⟨hfile, fun q => fileAt_update_none⟩

/-! ## Writing -/

/-- One file is written. -/
lemma fileAt_placed (h : tree.CanPut p) :
    (tree.placed p content).fileAt q = if q = p then some content else tree.fileAt q := by
  unfold fileAt placed
  by_cases hq : q = p
  · rw [if_pos hq, if_pos hq]
  · rw [if_neg hq, if_neg hq]
    by_cases hfolder : q ≠ [] ∧ q <+: p.dropLast
    · rw [if_pos hfolder]
      exact (Option.isNone_iff_eq_none.1 (h.1 q ((List.mem_inits q _).2 hfolder.2))).symm
    · rw [if_neg hfolder]

lemma fileAt_put (h : tree.put p content = some tree') :
    ∀ q, tree'.fileAt q = if q = p then some content else tree.fileAt q := by
  unfold put at h
  split_ifs at h with hput
  obtain rfl := Option.some.inj h
  exact fun q => fileAt_placed hput

/-- What is touched stays as it is, if it is there. -/
lemma fileAt_touch (h : tree.touch p content = some tree') (hq : q ≠ p ∨ (tree.fileAt q).isSome) :
    tree'.fileAt q = tree.fileAt q := by
  unfold touch at h
  split_ifs at h with hsome hfolder
  · obtain rfl := Option.some.inj h
    rfl
  · obtain rfl := Option.some.inj h
    have hne : q ≠ p := hq.elim id fun hfile => by
      rintro rfl
      have hnone := Option.not_isSome_iff_eq_none.1 hsome
      rw [fileAt, hnone] at hfile
      exact Bool.false_ne_true hfile
    unfold fileAt
    rw [Function.update_of_ne hne]

/-! ## What there is -/

/-- None of these paths is a folder that another one is in. -/
def IsApart (paths : List (List ν)) : Prop := ∀ p ∈ paths, ∀ q ∈ paths, ¬ p <+: q.dropLast

instance (paths : List (List ν)) : Decidable (IsApart paths) :=
  inferInstanceAs (Decidable (∀ p ∈ paths, ∀ q ∈ paths, _))

variable {paths others : List (List ν)}

omit [DecidableEq ν] in
lemma IsApart.subset (h : IsApart others) (hsub : paths ⊆ others) : IsApart paths :=
  fun p hp q hq => h p (hsub hp) q (hsub hq)

omit [DecidableEq ν] in
lemma not_prefix_dropLast_self (hp : p ≠ []) : ¬ p <+: p.dropLast := fun h => by
  have hlength := h.length_le
  have hpos := List.length_pos_of_ne_nil hp
  rw [List.length_dropLast] at hlength
  omega

omit [DecidableEq ν] in
/-- One path more. -/
lemma isApart_concat_iff (h : IsApart paths) (hp : p ≠ []) : IsApart (paths ++ [p]) ↔
    ∀ q ∈ paths, ¬ q <+: p.dropLast ∧ ¬ p <+: q.dropLast := by
  constructor
  · intro hall q hq
    have hq' : q ∈ paths ++ [p] := List.mem_append_left _ hq
    have hp' : p ∈ paths ++ [p] := List.mem_append_right _ (List.mem_singleton_self p)
    exact ⟨hall q hq' p hp', hall p hp' q hq'⟩
  · intro hone q hq r hr
    rcases List.mem_append.1 hq with hq | hq
    · rcases List.mem_append.1 hr with hr | hr
      · exact h q hq r hr
      · rw [List.mem_singleton.1 hr]
        exact (hone q hq).1
    · rw [List.mem_singleton.1 hq]
      rcases List.mem_append.1 hr with hr | hr
      · exact (hone r hr).2
      · rw [List.mem_singleton.1 hr]
        exact not_prefix_dropLast_self hp

/-- There are no files but these, and no folders but those that they are in. -/
structure IsWithin (tree : WrittenTree ν σ) (paths : List (List ν)) : Prop where
  file : ∀ q, (tree.fileAt q).isSome → q ∈ paths
  folder : ∀ q, tree.isFolder q = true → ∃ p ∈ paths, q <+: p.dropLast

/-- These files are there, and the folders that they are in. -/
structure Contains (tree : WrittenTree ν σ) (paths : List (List ν)) : Prop where
  file : ∀ p ∈ paths, (tree.fileAt p).isSome
  folder : ∀ p ∈ paths, ∀ q ≠ [], q <+: p.dropLast → tree.isFolder q = true

structure Holds (tree : WrittenTree ν σ) (paths : List (List ν)) : Prop where
  within : tree.IsWithin paths
  contains : tree.Contains paths

omit [DecidableEq ν] in
lemma holds_empty : Holds (empty : WrittenTree ν σ) [] where
  within := ⟨fun _ h => absurd h Bool.false_ne_true, fun _ h => absurd h Bool.false_ne_true⟩
  contains := ⟨fun _ h => absurd h List.not_mem_nil, fun _ h => absurd h List.not_mem_nil⟩

omit [DecidableEq ν] in
lemma IsWithin.canPut (h : tree.IsWithin paths)
    (hp : ∀ q ∈ paths, ¬ q <+: p.dropLast ∧ ¬ p <+: q.dropLast) : tree.CanPut p := by
  refine ⟨fun q hq => ?_, ?_⟩
  · by_contra hsome
    rw [Option.isNone_iff_eq_none, ← ne_eq, Option.ne_none_iff_isSome] at hsome
    exact (hp q (h.file q hsome)).1 ((List.mem_inits q _).1 hq)
  · by_contra hfolder
    obtain ⟨q, hq, hprefix⟩ := h.folder p (Bool.of_not_eq_false hfolder)
    exact (hp q hq).2 hprefix

lemma isFolder_placed : (tree.placed p content).isFolder q = true ↔
    q ≠ p ∧ (q ≠ [] ∧ q <+: p.dropLast ∨ tree.isFolder q = true) := by
  unfold isFolder placed
  by_cases hq : q = p
  · simp [hq]
  · by_cases hfolder : q ≠ [] ∧ q <+: p.dropLast
    · simp [hq, hfolder]
    · simp [hq, hfolder]

lemma isFolder_put (h : tree.put p content = some tree') : tree'.isFolder q = true ↔
    q ≠ p ∧ (q ≠ [] ∧ q <+: p.dropLast ∨ tree.isFolder q = true) := by
  unfold put at h
  split_ifs at h with hput
  obtain rfl := Option.some.inj h
  exact isFolder_placed

lemma put_isSome_iff : (tree.put p content).isSome ↔ tree.CanPut p := by
  unfold put
  split_ifs with h
  · exact iff_of_true rfl h
  · exact iff_of_false Bool.false_ne_true h

lemma IsWithin.put (h : tree.IsWithin paths) (hput : tree.put p content = some tree')
    (hp : p ∈ others) (hsub : paths ⊆ others) : tree'.IsWithin others := by
  refine ⟨fun q hq => ?_, fun q hq => ?_⟩
  · rw [fileAt_put hput] at hq
    split_ifs at hq with heq
    · exact heq ▸ hp
    · exact hsub (h.file q hq)
  · obtain ⟨-, ⟨-, hprefix⟩ | hold⟩ := (isFolder_put hput).1 hq
    · exact ⟨p, hp, hprefix⟩
    · obtain ⟨r, hr, hprefix⟩ := h.folder q hold
      exact ⟨r, hsub hr, hprefix⟩

lemma IsWithin.remove (h : tree.IsWithin paths) (hremove : tree.remove p = some tree') :
    tree'.IsWithin paths := by
  refine ⟨fun q hq => ?_, fun q hq => ?_⟩
  · rw [(fileAt_remove hremove).2] at hq
    split_ifs at hq with heq
    · exact absurd hq Bool.false_ne_true
    · exact h.file q hq
  · unfold WrittenTree.remove at hremove
    split_ifs at hremove with hfile
    obtain rfl := Option.some.inj hremove
    unfold isFolder at hq
    by_cases heq : q = p
    · rw [heq, Function.update_self] at hq
      exact absurd hq Bool.false_ne_true
    · rw [Function.update_of_ne heq] at hq
      exact h.folder q hq

lemma IsWithin.touch (h : tree.IsWithin paths) (htouch : tree.touch p content = some tree')
    (hp : p ∈ paths) : tree'.IsWithin paths := by
  unfold WrittenTree.touch at htouch
  split_ifs at htouch with hsome hfolder
  · obtain rfl := Option.some.inj htouch
    exact h
  · obtain rfl := Option.some.inj htouch
    refine ⟨fun q hq => ?_, fun q hq => ?_⟩
    · by_cases heq : q = p
      · exact heq ▸ hp
      · unfold fileAt at hq
        rw [Function.update_of_ne heq] at hq
        exact h.file q hq
    · unfold isFolder at hq
      by_cases heq : q = p
      · rw [heq, Function.update_self] at hq
        exact absurd hq Bool.false_ne_true
      · rw [Function.update_of_ne heq] at hq
        exact h.folder q hq

lemma Contains.put (h : tree.Contains paths) (hp : p ≠ [])
    (hput : tree.put p content = some tree') : tree'.Contains (paths ++ [p]) := by
  have hcan : tree.CanPut p := put_isSome_iff.1 (Option.isSome_of_eq_some hput)
  refine ⟨fun q hq => ?_, fun q hq r hr hprefix => ?_⟩
  · rw [fileAt_put hput]
    split_ifs with heq
    · rfl
    · exact h.file q ((List.mem_append.1 hq).resolve_right fun hlast =>
        heq (List.mem_singleton.1 hlast))
  · rw [isFolder_put hput]
    rcases List.mem_append.1 hq with hq | hq
    · have hfolder := h.folder q hq r hr hprefix
      refine ⟨?_, .inr hfolder⟩
      rintro rfl
      exact absurd (hfolder.symm.trans hcan.2) Bool.false_ne_true.symm
    · rw [List.mem_singleton.1 hq] at hprefix
      refine ⟨?_, .inl ⟨hr, hprefix⟩⟩
      rintro rfl
      exact not_prefix_dropLast_self hp hprefix

lemma Holds.put (h : tree.Holds paths) (hp : p ≠ []) (hput : tree.put p content = some tree') :
    tree'.Holds (paths ++ [p]) where
  within := h.within.put hput (List.mem_append_right _ (List.mem_singleton_self p))
    (List.subset_append_left _ _)
  contains := h.contains.put hp hput

omit [DecidableEq ν] in
/-- **Another file can be written** if none of the files is a folder of another. -/
theorem Holds.canPut_iff (h : tree.Holds paths) (hapart : IsApart paths) (hp : p ≠ []) :
    tree.CanPut p ↔ IsApart (paths ++ [p]) := by
  rw [isApart_concat_iff hapart hp]
  refine ⟨fun hcan q hq => ⟨fun hprefix => ?_, fun hprefix => ?_⟩, h.within.canPut⟩
  · have hfile := h.contains.file q hq
    rw [Option.isNone_iff_eq_none.1 (hcan.1 q ((List.mem_inits q _).2 hprefix))] at hfile
    exact Bool.false_ne_true hfile
  · have hfolder := h.contains.folder q hq p hp hprefix
    exact absurd (hfolder.symm.trans hcan.2) Bool.false_ne_true.symm

lemma touch_of_file (h : (tree.fileAt p).isSome) : tree.touch p content = some tree := by
  refine if_pos ?_
  unfold fileAt at h
  cases hp : tree p with
  | none =>
      rw [hp] at h
      exact absurd h Bool.false_ne_true
  | some entry => rfl

end WrittenTree

end Autobackup
