import Mathlib.Logic.Function.Basic
import Mathlib.Data.List.Nodup

/-!
# Chains that are linked by hashes

An entry names the one before it by its id, and its id is a hash of all that it holds.  From an id
the chain of entries is then determined (`Linked.unique`), so that no entry can come back in its own
past (`Linked.nodup`), however alike two entries are.
-/

namespace Autobackup.HashChain

variable {Entry Id : Type} (idOf : Entry → Id) (parent : Entry → Id) (root : Id)

/-- From an id the entries lead to the root, the newest of them first. -/
inductive Linked : Id → List Entry → Prop
  | root : Linked root []
  | link (e : Entry) {rest : List Entry} (h : Linked (parent e) rest) : Linked (idOf e) (e :: rest)

variable {idOf parent root} {i : Id} {entries entries' : List Entry} {e : Entry}

/-- The chain behind an id is determined by it. -/
theorem Linked.unique (hinj : Function.Injective idOf) (hroot : ∀ e, idOf e ≠ root)
    (h : Linked idOf parent root i entries) (h' : Linked idOf parent root i entries') :
    entries = entries' := by
  induction h generalizing entries' with
  | root =>
      generalize hi : root = i at h'
      cases h' with
      | root => rfl
      | link e h' => exact absurd hi.symm (hroot e)
  | link e h ih =>
      generalize hi : idOf e = i at h'
      cases h' with
      | root => exact absurd hi (hroot e)
      | link e' h' =>
          obtain rfl := hinj hi
          rw [ih h']

/-- Every entry of a chain has its own chain, which is a part of it. -/
lemma Linked.suffix (h : Linked idOf parent root i entries) (he : e ∈ entries) :
    ∃ before rest, entries = before ++ e :: rest ∧
      Linked idOf parent root (idOf e) (e :: rest) := by
  induction h with
  | root => cases he
  | link e' h ih =>
      rcases List.mem_cons.1 he with rfl | he
      · exact ⟨[], _, rfl, .link _ h⟩
      · obtain ⟨before, rest, heq, hlinked⟩ := ih he
        exact ⟨e' :: before, rest, by rw [heq, List.cons_append], hlinked⟩

/-- **No id comes twice in a chain.** -/
theorem Linked.nodup (hinj : Function.Injective idOf) (hroot : ∀ e, idOf e ≠ root)
    (h : Linked idOf parent root i entries) : (entries.map idOf).Nodup := by
  induction h with
  | root => exact List.nodup_nil
  | link e h ih =>
      refine List.nodup_cons.2 ⟨fun hmem => ?_, ih⟩
      obtain ⟨e', he', hid⟩ := List.mem_map.1 hmem
      obtain rfl := hinj hid
      obtain ⟨before, rest, heq, hlinked⟩ := h.suffix he'
      -- The same id would be the start of a chain and of a shorter one.
      have hsame := List.tail_eq_of_cons_eq (Linked.unique hinj hroot hlinked (.link e' h))
      have hlength := congrArg List.length heq
      rw [← hsame, List.length_append, List.length_cons] at hlength
      omega

lemma Linked.eq_root_iff (hroot : ∀ e, idOf e ≠ root) (h : Linked idOf parent root i entries) :
    i = root ↔ entries = [] := by
  cases h with
  | root => simp
  | link e h => simp [hroot e]

end Autobackup.HashChain
