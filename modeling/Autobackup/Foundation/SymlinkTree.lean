import Mathlib.Data.List.Infix
import Mathlib.Logic.Function.Basic

/-!
# Trees with symlinks

What is at a path is a directory, a file or a symlink.  A symlink says another path, from the root
or from the directory that it is in, and `resolve` follows the symlinks that are on the way, up to a
limit.  A path on which all are directories resolves to itself, and a symlink to such a path
resolves to that (`resolve_symlink`).

`.` and `..` have no special meaning in a path, they are names as any other.  So what is said here
about paths says something about a file system where the paths that a program is given, and the
texts of the symlinks that it follows, have neither.
-/

namespace Autobackup

/-- The path that a symlink says. -/
structure LinkText (ν : Type) where
  absolute : Bool
  names : List ν
  deriving DecidableEq, Repr

/-- The path as seen from a directory. -/
def LinkText.path {ν : Type} (text : LinkText ν) (directory : List ν) : List ν :=
  if text.absolute then text.names else directory ++ text.names

inductive SymlinkEntry (ν σ : Type)
  | directory
  | file (content : σ)
  | symlink (text : LinkText ν)
  deriving DecidableEq, Repr

/-- What is at each path. -/
abbrev SymlinkTree (ν σ : Type) := List ν → Option (SymlinkEntry ν σ)

namespace SymlinkTree

variable {ν σ : Type} (tree : SymlinkTree ν σ)

/-- Go down to `rest`.  At a symlink, `follow` goes on. -/
def walkWith (follow : List ν → Option (List ν)) : List ν → List ν → Option (List ν)
  | done, [] => some done
  | done, name :: rest =>
      match tree (done ++ [name]) with
      | none => none
      | some .directory => walkWith follow (done ++ [name]) rest
      | some (.file _) => if rest.isEmpty then some (done ++ [name]) else none
      | some (.symlink text) => follow (text.path done ++ rest)

/-- Where a path leads to, if there are not too many symlinks on the way. -/
def walk : ℕ → List ν → Option (List ν)
  | 0 => walkWith tree (fun _ => none) []
  | limit + 1 => walkWith tree (walk limit) []

/-- The number of symlinks after which Linux gives up with `ELOOP`. -/
def eloopThreshold : ℕ := 40

/-- `realpath` -/
def resolve : List ν → Option (List ν) := walk tree eloopThreshold

def isSymLink (path : List ν) : Bool :=
  match tree path with
  | some (.symlink _) => true
  | _ => false

/-- There are directories all the way down to the path. -/
def IsRealDirectory (path : List ν) : Prop :=
  ∀ p ∈ path.inits, p ≠ [] → tree p = some .directory

variable {tree} {path done rest : List ν} {follow : List ν → Option (List ν)} {name : ν}
  {text : LinkText ν} {limit : ℕ}

instance [DecidableEq ν] [DecidableEq σ] : Decidable (tree.IsRealDirectory path) :=
  inferInstanceAs (Decidable (∀ p ∈ path.inits, p ≠ [] → tree p = some .directory))

lemma IsRealDirectory.entry (h : tree.IsRealDirectory path) {p : List ν} (hp : p <+: path)
    (hne : p ≠ []) : tree p = some .directory :=
  h p ((List.mem_inits p path).2 hp) hne

lemma walkWith_of_isRealDirectory (h : tree.IsRealDirectory (done ++ rest)) :
    walkWith tree follow done rest = some (done ++ rest) := by
  induction rest generalizing done with
  | nil => rw [walkWith, List.append_nil]
  | cons name rest ih =>
      have hsplit : done ++ name :: rest = done ++ [name] ++ rest := by simp
      have hentry : tree (done ++ [name]) = some .directory := by
        refine h.entry ?_ (by simp)
        rw [hsplit]
        exact List.prefix_append _ _
      rw [hsplit] at h ⊢
      rw [walkWith, hentry]
      exact ih h

lemma walk_of_isRealDirectory (h : tree.IsRealDirectory path) :
    tree.walk limit path = some path := by
  cases limit with
  | zero => exact walkWith_of_isRealDirectory h
  | succ limit => exact walkWith_of_isRealDirectory h

lemma walkWith_symlink (h : tree.IsRealDirectory (done ++ rest))
    (hlink : tree (done ++ rest ++ [name]) = some (.symlink text)) :
    walkWith tree follow done (rest ++ [name]) = follow (text.path (done ++ rest)) := by
  induction rest generalizing done with
  | nil =>
      rw [List.append_nil] at hlink
      rw [List.append_nil, List.nil_append, walkWith, hlink]
      simp only [List.append_nil]
  | cons name' rest ih =>
      have hsplit : done ++ name' :: rest = done ++ [name'] ++ rest := by simp
      have hentry : tree (done ++ [name']) = some .directory := by
        refine h.entry ?_ (by simp)
        rw [hsplit]
        exact List.prefix_append _ _
      rw [hsplit] at h hlink ⊢
      rw [List.cons_append, walkWith, hentry]
      exact ih h hlink

/-- **A symlink to a directory resolves to the directory.** -/
theorem resolve_symlink {directory : List ν} (h : tree.IsRealDirectory directory)
    (hlink : tree (directory ++ [name]) = some (.symlink text))
    (htarget : tree.IsRealDirectory (text.path directory)) :
    tree.resolve (directory ++ [name]) = some (text.path directory) := by
  have hwalk : tree.walk (39 + 1) (directory ++ [name]) = tree.walk 39 (text.path directory) :=
    @walkWith_symlink _ _ tree [] directory (tree.walk 39) name text h hlink
  exact hwalk.trans (walk_of_isRealDirectory htarget)

/-! ## Changes -/

variable [DecidableEq ν]

/-- Put an entry at a path. -/
def put (tree : SymlinkTree ν σ) (path : List ν) (entry : SymlinkEntry ν σ) : SymlinkTree ν σ :=
  Function.update tree path (some entry)

/-- Take away what is at a path. -/
def erase (tree : SymlinkTree ν σ) (path : List ν) : SymlinkTree ν σ :=
  Function.update tree path none

/-- Make a directory, and those above it that are missing.  Nothing else may be in the way. -/
def mkpath [DecidableEq σ] (tree : SymlinkTree ν σ) (path : List ν) : Option (SymlinkTree ν σ) :=
  if ∀ p ∈ path.inits, p ≠ [] → tree p = none ∨ tree p = some .directory then
    some fun p => if p <+: path ∧ p ≠ [] then some .directory else tree p
  else none

variable {entry : SymlinkEntry ν σ} {p : List ν}

lemma put_of_ne (h : p ≠ path) : tree.put path entry p = tree p := Function.update_of_ne h _ _

@[simp] lemma put_self : tree.put path entry path = some entry := Function.update_self _ _ _

lemma erase_of_ne (h : p ≠ path) : tree.erase path p = tree p := Function.update_of_ne h _ _

lemma mkpath_entry [DecidableEq σ] {tree' : SymlinkTree ν σ} (h : tree.mkpath path = some tree') :
    tree'.IsRealDirectory path ∧ ∀ p entry, tree p = some entry → tree' p = some entry := by
  rw [mkpath] at h
  split at h
  · next hfree =>
      obtain rfl := Option.some.inj h
      refine ⟨fun p hp hne => if_pos ⟨(List.mem_inits p path).1 hp, hne⟩, fun p entry hentry => ?_⟩
      simp only
      split
      · next hmem =>
          rcases hfree p ((List.mem_inits p path).2 hmem.1) hmem.2 with hnone | hdirectory
          · rw [hnone] at hentry
            exact absurd hentry (Option.some_ne_none entry).symm
          · rw [← hdirectory, hentry]
      · exact hentry
  · exact absurd h (Option.some_ne_none tree').symm

end SymlinkTree

end Autobackup
