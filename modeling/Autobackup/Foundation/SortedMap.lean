import Mathlib.Order.Defs.LinearOrder
import Mathlib.Data.List.Nodup
import Mathlib.Data.List.Perm.Basic
import Mathlib.Order.Lattice

/-!
# Maps that are sorted by their keys

The entries of a `SortedMap` are listed by their keys, each key once, which the type guarantees.
That is what a `QMap` is.
-/

namespace Autobackup

/-- A map whose entries are iterated over in the order of their keys. -/
structure SortedMap (κ α : Type) [LinearOrder κ] where
  entries : List (κ × α)
  sorted : entries.Pairwise fun e e' => e.1 < e'.1

namespace SortedMap

variable {κ α : Type} [LinearOrder κ]

def empty : SortedMap κ α := ⟨[], List.Pairwise.nil⟩

def lookup (m : SortedMap κ α) (k : κ) : Option α := (m.entries.find? (·.1 = k)).map Prod.snd

def insertEntry (k : κ) (a : α) : List (κ × α) → List (κ × α)
  | [] => [(k, a)]
  | e :: rest =>
      if k < e.1 then (k, a) :: e :: rest
      else if e.1 < k then e :: insertEntry k a rest
      else (k, a) :: rest

variable {k : κ} {a : α} {m : SortedMap κ α}

lemma mem_of_mem_insertEntry {e : κ × α} {entries : List (κ × α)}
    (h : e ∈ insertEntry k a entries) : e = (k, a) ∨ e ∈ entries := by
  induction entries with
  | nil => exact .inl (List.mem_singleton.1 h)
  | cons e' rest ih =>
      rw [insertEntry] at h
      split at h
      · exact List.mem_cons.1 h
      · split at h
        · rcases List.mem_cons.1 h with rfl | h
          · exact .inr List.mem_cons_self
          · exact (ih h).imp_right (List.mem_cons_of_mem _)
        · exact (List.mem_cons.1 h).imp_right (List.mem_cons_of_mem _)

lemma sorted_insertEntry {entries : List (κ × α)} (h : entries.Pairwise fun e e' => e.1 < e'.1) :
    (insertEntry k a entries).Pairwise fun e e' => e.1 < e'.1 := by
  induction entries with
  | nil => exact List.pairwise_singleton _ _
  | cons e rest ih =>
      obtain ⟨hhead, hrest⟩ := List.pairwise_cons.1 h
      rw [insertEntry]
      split
      · next hlt =>
          refine List.pairwise_cons.2 ⟨fun e' he' => ?_, h⟩
          rcases List.mem_cons.1 he' with rfl | he'
          · exact hlt
          · exact lt_trans hlt (hhead e' he')
      · next hnot =>
          split
          · next hlt =>
              refine List.pairwise_cons.2 ⟨fun e' he' => ?_, ih hrest⟩
              rcases mem_of_mem_insertEntry he' with rfl | he'
              · exact hlt
              · exact hhead e' he'
          · next hge =>
              have heq : k = e.1 := le_antisymm (not_lt.1 hge) (not_lt.1 hnot)
              exact List.pairwise_cons.2 ⟨fun e' he' => heq ▸ hhead e' he', hrest⟩

/-- A key that is there gets the new value. -/
def insert (m : SortedMap κ α) (k : κ) (a : α) : SortedMap κ α :=
  ⟨insertEntry k a m.entries, sorted_insertEntry m.sorted⟩

lemma lookup_eq_none : m.lookup k = none ↔ ∀ e ∈ m.entries, e.1 ≠ k := by
  rw [lookup, Option.map_eq_none_iff, List.find?_eq_none]
  simp

lemma nodup_keys (m : SortedMap κ α) : (m.entries.map Prod.fst).Nodup := by
  rw [List.Nodup, List.pairwise_map]
  exact m.sorted.imp fun hlt => ne_of_lt hlt

/-- A key has one value. -/
lemma eq_of_mem {e e' : κ × α} (h : e ∈ m.entries) (h' : e' ∈ m.entries) (heq : e.1 = e'.1) :
    e = e' := List.inj_on_of_nodup_map m.nodup_keys h h' heq

lemma lookup_eq_some : m.lookup k = some a ↔ (k, a) ∈ m.entries := by
  rw [lookup, Option.map_eq_some_iff]
  constructor
  · rintro ⟨e, hfound, rfl⟩
    have hk : e.1 = k := by simpa using List.find?_some hfound
    exact hk ▸ List.mem_of_find?_eq_some hfound
  · intro hmem
    cases hfound : m.entries.find? (·.1 = k) with
    | none =>
        have hno := List.find?_eq_none.1 hfound (k, a) hmem
        simp at hno
    | some e =>
        have hk : e.1 = k := by simpa using List.find?_some hfound
        exact ⟨e, rfl, by rw [eq_of_mem (List.mem_of_find?_eq_some hfound) hmem hk]⟩

/-- A new key gets an entry, and the others stay as they are. -/
lemma insert_perm (h : m.lookup k = none) : (m.insert k a).entries.Perm ((k, a) :: m.entries) := by
  rw [lookup_eq_none] at h
  obtain ⟨entries, hsorted⟩ := m
  change ∀ e ∈ entries, e.1 ≠ k at h
  change (insertEntry k a entries).Perm ((k, a) :: entries)
  clear hsorted
  induction entries with
  | nil => exact List.Perm.refl _
  | cons e rest ih =>
      rw [insertEntry]
      split
      · exact List.Perm.refl _
      · next hnot =>
          have hlt : e.1 < k := lt_of_le_of_ne (not_lt.1 hnot) (h e List.mem_cons_self)
          rw [if_pos hlt]
          exact ((ih fun e' he' => h e' (List.mem_cons_of_mem _ he')).cons e).trans
            (List.Perm.swap _ _ _)

lemma lookup_insert_eq_some (h : m.lookup k = none) {k' : κ} {a' : α} :
    (m.insert k a).lookup k' = some a' ↔ k' = k ∧ a' = a ∨ m.lookup k' = some a' := by
  rw [lookup_eq_some, lookup_eq_some, (insert_perm h).mem_iff, List.mem_cons, Prod.mk.injEq]

end SortedMap
end Autobackup
