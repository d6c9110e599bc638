import Mathlib.Data.Int.Order.Basic
import Mathlib.Data.List.Perm.Basic

/-!
# The order of a hash

A hash is iterated over in an order that nobody knows: any permutation of its entries.  What a loop
over it finds is the same in every order only where no two entries are equally good
(`pickLargest_eq`, `pickLargest_append_of_le`).
-/

namespace Autobackup

variable {α : Type*}

/-- An order for every hash. -/
structure HashOrder (α : Type*) where
  order : List α → List α
  perm : ∀ entries, (order entries).Perm entries

namespace HashOrder

lemma mem_order (o : HashOrder α) {x : α} {entries : List α} :
    x ∈ o.order entries ↔ x ∈ entries := (o.perm entries).mem_iff

@[simp] lemma order_nil (o : HashOrder α) : o.order [] = [] := (o.perm []).eq_nil

/-- As they were inserted. -/
def inserted : HashOrder α := ⟨id, fun _ => List.Perm.refl _⟩

/-- Some entries first. -/
def first (p : α → Bool) : HashOrder α :=
  ⟨fun entries => entries.filter p ++ entries.filter fun x => !p x, List.filter_append_perm p⟩

end HashOrder

/-! ## The largest -/

variable (weight : α → ℤ)

/-- A loop that goes for the largest, and keeps what it has where another one is as large. -/
def pickLargest (start : α) (entries : List α) : α :=
  entries.foldl (fun best x => if weight x > weight best then x else best) start

variable {weight} {start x : α} {entries : List α}

lemma pickLargest_cons {y : α} : pickLargest weight start (y :: entries) =
    pickLargest weight (if weight y > weight start then y else start) entries := rfl

lemma pickLargest_eq_start (h : ∀ y ∈ entries, weight y ≤ weight start) :
    pickLargest weight start entries = start := by
  induction entries with
  | nil => rfl
  | cons y entries ih =>
      obtain ⟨hy, hrest⟩ := List.forall_mem_cons.1 h
      rw [pickLargest_cons, if_neg (Int.not_lt.2 hy)]
      exact ih hrest

lemma pickLargest_mem : pickLargest weight start entries ∈ start :: entries := by
  induction entries generalizing start with
  | nil => exact List.mem_singleton_self start
  | cons y entries ih =>
      rw [pickLargest_cons]
      split
      · exact List.mem_cons_of_mem start ih
      · have hlater : pickLargest weight start entries ∈ start :: entries := ih
        rcases List.mem_cons.1 hlater with heq | hmem
        · rw [heq]
          exact List.mem_cons_self
        · exact List.mem_cons_of_mem start (List.mem_cons_of_mem y hmem)

lemma le_pickLargest (hx : x ∈ start :: entries) :
    weight x ≤ weight (pickLargest weight start entries) := by
  induction entries generalizing start x with
  | nil =>
      rw [List.mem_singleton.1 hx]
      exact Int.le_refl _
  | cons y entries ih =>
      rw [pickLargest_cons]
      split
      · next hlarger =>
          rcases List.mem_cons.1 hx with rfl | hx
          · exact le_trans (Int.le_of_lt hlarger) (ih List.mem_cons_self)
          · exact ih hx
      · next hnot =>
          rcases List.mem_cons.1 hx with rfl | hx
          · exact ih List.mem_cons_self
          · rcases List.mem_cons.1 hx with rfl | hx
            · exact le_trans (Int.not_lt.1 hnot) (ih List.mem_cons_self)
            · exact ih (List.mem_cons_of_mem start hx)

/-- What comes later and is no larger than something before it is not found. -/
lemma pickLargest_append_of_le {later : List α}
    (h : ∀ x ∈ later, ∃ y ∈ start :: entries, weight x ≤ weight y) :
    pickLargest weight start (entries ++ later) = pickLargest weight start entries := by
  unfold pickLargest
  rw [List.foldl_append]
  apply pickLargest_eq_start
  intro x hx
  obtain ⟨y, hy, hle⟩ := h x hx
  exact le_trans hle (le_pickLargest hy)

/-- The largest is found, wherever it is. -/
lemma pickLargest_eq (hmem : x ∈ entries) (hstart : weight start < weight x)
    (hlargest : ∀ y ∈ entries, y ≠ x → weight y < weight x) :
    pickLargest weight start entries = x := by
  induction entries generalizing start with
  | nil => exact absurd hmem List.not_mem_nil
  | cons y entries ih =>
      obtain ⟨hy, hrest⟩ := List.forall_mem_cons.1 hlargest
      rw [pickLargest_cons]
      by_cases heq : y = x
      · rw [heq, if_pos hstart]
        apply pickLargest_eq_start
        intro z hz
        by_cases hzx : z = x
        · rw [hzx]
        · exact Int.le_of_lt (hrest z hz hzx)
      · have hlater : x ∈ entries := (List.mem_cons.1 hmem).resolve_left (Ne.symm heq)
        have hless := hy heq
        apply ih hlater
        · split
          · exact hless
          · exact hstart
        · exact hrest

end Autobackup
