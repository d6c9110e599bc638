import Mathlib.Data.List.InsertIdx

/-!
# Inserting into a list

`QList::insert` appends if the index is behind the end of the list, where `List.insertIdx` does
nothing.  Up to the end they are the same (`insert_eq_insertIdx`).
-/

namespace Autobackup.QList

variable {α : Type*} {l : List α} {i j : ℕ} {x : α}

def insert (l : List α) (i : ℕ) (x : α) : List α := l.take i ++ x :: l.drop i

lemma insert_eq_insertIdx (h : i ≤ l.length) : insert l i x = l.insertIdx i x := by
  induction l generalizing i with
  | nil =>
      obtain rfl : i = 0 := Nat.le_zero.1 h
      rfl
  | cons y l ih =>
      cases i with
      | zero => rfl
      | succ i => exact congrArg (y :: ·) (ih (Nat.le_of_succ_le_succ h))

lemma insert_ne_nil : insert l i x ≠ [] :=
  List.append_ne_nil_of_right_ne_nil _ (List.cons_ne_nil _ _)

lemma insert_perm : (insert l i x).Perm (x :: l) := by
  have h : (insert l i x).Perm (x :: (l.take i ++ l.drop i)) := List.perm_middle
  rwa [List.take_append_drop] at h

lemma mem_insert {y : α} : y ∈ insert l i x ↔ y = x ∨ y ∈ l := by
  rw [insert_perm.mem_iff, List.mem_cons]

lemma getElem?_insert_of_lt (hi : i ≤ l.length) (h : j < i) : (insert l i x)[j]? = l[j]? := by
  rw [insert_eq_insertIdx hi, List.getElem?_insertIdx_of_lt h]

lemma getElem?_insert_self (hi : i ≤ l.length) : (insert l i x)[i]? = some x := by
  rw [insert_eq_insertIdx hi, List.getElem?_insertIdx_self, if_pos hi]

lemma getElem?_insert_of_gt (hi : i ≤ l.length) (h : i < j) :
    (insert l i x)[j]? = l[j - 1]? := by
  rw [insert_eq_insertIdx hi, List.getElem?_insertIdx_of_gt h]

end Autobackup.QList
