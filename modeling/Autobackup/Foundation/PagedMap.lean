import Autobackup.Foundation.SortedMap
import Mathlib.Data.List.TakeDrop
import Mathlib.Data.List.TakeWhile

/-!
# Searching a sorted map, and its pages

`atOrAfter` is what a search by a key finds: the entries from the first one on that is not smaller
than it.  The entries come in pages of a fixed size, and a search that starts from the last key of a
full page and leaves that one out goes on with the next page (`drop_atOrAfter`).
-/

namespace Autobackup.SortedMap

variable {κ α : Type} [LinearOrder κ] {m : SortedMap κ α} {k : κ} {e : κ × α}

/-- The entries with a smaller key. -/
def before (m : SortedMap κ α) (k : κ) : List (κ × α) := m.entries.takeWhile (·.1 < k)

/-- The entries from the lower bound of the key on. -/
def atOrAfter (m : SortedMap κ α) (k : κ) : List (κ × α) := m.entries.dropWhile (·.1 < k)

def erase (m : SortedMap κ α) (k : κ) : SortedMap κ α :=
  ⟨m.entries.filter (·.1 ≠ k), m.sorted.filter _⟩

/-- A key that is there keeps its value. -/
def insertNew (m : SortedMap κ α) (k : κ) (a : α) : SortedMap κ α :=
  if (m.lookup k).isSome then m else m.insert k a

lemma before_append_atOrAfter (m : SortedMap κ α) (k : κ) :
    m.before k ++ m.atOrAfter k = m.entries :=
  List.takeWhile_append_dropWhile

lemma mem_of_mem_erase (h : e ∈ (m.erase k).entries) : e ∈ m.entries := (List.mem_filter.1 h).1

lemma mem_of_mem_insertNew {a : α} (h : e ∈ (m.insertNew k a).entries) :
    e = (k, a) ∨ e ∈ m.entries := by
  unfold insertNew at h
  split_ifs at h
  · exact .inr h
  · exact mem_of_mem_insertEntry h

lemma lt_of_mem_before (h : e ∈ m.before k) : e.1 < k := by
  have hlt := List.mem_takeWhile_imp h
  exact of_decide_eq_true hlt

/-- Nothing is found if and only if all keys are smaller. -/
lemma atOrAfter_eq_nil_iff : m.atOrAfter k = [] ↔ ∀ e ∈ m.entries, e.1 < k := by
  unfold atOrAfter
  rw [List.dropWhile_eq_nil_iff]
  simp only [decide_eq_true_eq]

/-- **A search by the key of an entry finds it first.** -/
lemma atOrAfter_eq_drop {i : ℕ} (h : m.entries[i]? = some e) :
    m.atOrAfter e.1 = m.entries.drop i := by
  obtain ⟨hlt, hget⟩ := List.getElem?_eq_some_iff.1 h
  have hsplit : m.entries = m.entries.take i ++ m.entries.drop i :=
    (List.take_append_drop i m.entries).symm
  have hdrop : m.entries.drop i = e :: m.entries.drop (i + 1) := by
    rw [List.drop_eq_getElem_cons hlt, hget]
  have hsmaller : ∀ e' ∈ m.entries.take i, decide (e'.1 < e.1) = true := by
    have hsorted := m.sorted
    rw [hsplit, List.pairwise_append] at hsorted
    intro e' he'
    exact decide_eq_true (hsorted.2.2 e' he' e (hdrop ▸ List.mem_cons_self))
  unfold atOrAfter
  conv_lhs => rw [hsplit]
  rw [List.dropWhile_append_of_pos hsmaller, hdrop,
    List.dropWhile_cons_of_neg (by simp)]

/-! ## Pages -/

/-- The page with this number, where the first one has number 1. -/
def page (size : ℕ) (m : SortedMap κ α) (p : ℕ) : List (κ × α) :=
  (m.entries.drop ((p - 1) * size)).take size

def pageCount (size : ℕ) (m : SortedMap κ α) : ℕ :=
  m.entries.length / size + if m.entries.length % size ≠ 0 then 1 else 0

variable {size p q : ℕ}

/-- The pages are as many as are needed. -/
lemma le_pageCount_iff (hsize : 0 < size) (hp : 1 ≤ p) :
    p ≤ m.pageCount size ↔ (p - 1) * size < m.entries.length := by
  obtain ⟨p, rfl⟩ : ∃ p', p = p' + 1 := ⟨p - 1, (Nat.sub_add_cancel hp).symm⟩
  rw [Nat.add_sub_cancel]
  unfold pageCount
  have hdivmod := Nat.div_add_mod m.entries.length size
  have hmod := Nat.mod_lt m.entries.length hsize
  set a := m.entries.length / size
  set b := m.entries.length % size
  rw [← hdivmod]
  by_cases hb : b = 0
  · rw [if_neg (not_not.2 hb), hb, Nat.add_zero (size * a), Nat.mul_comm size a,
      Nat.mul_lt_mul_right hsize]
    exact Nat.succ_le_iff
  · rw [if_pos hb, Nat.add_le_add_iff_right]
    constructor
    · intro hle
      calc p * size ≤ a * size := Nat.mul_le_mul_right size hle
        _ = size * a := Nat.mul_comm a size
        _ < size * a + b := Nat.lt_add_of_pos_right (Nat.pos_of_ne_zero hb)
    · intro hlt
      by_contra hle
      have hmul : (a + 1) * size ≤ p * size := Nat.mul_le_mul_right size (not_le.1 hle)
      have hexpand : (a + 1) * size = size * a + size := by
        rw [Nat.succ_mul, Nat.mul_comm]
      omega

lemma page_eq_nil_iff (hsize : 0 < size) (hp : 1 ≤ p) :
    m.page size p = [] ↔ m.pageCount size < p := by
  unfold page
  rw [← not_le, le_pageCount_iff hsize hp, List.take_eq_nil_iff, List.drop_eq_nil_iff, not_lt]
  exact ⟨fun h => h.resolve_left hsize.ne', .inr⟩

/-- **A search from the last key of a page** goes on behind that page. -/
lemma drop_atOrAfter (hq : 1 ≤ q) (hqp : q < p) (hp : p ≤ m.pageCount size) (hsize : 0 < size)
    (hlast : (m.page size q).getLast? = some e) :
    ((m.atOrAfter e.1).drop (1 + (p - q - 1) * size)).take size = m.page size p := by
  have hfull : (p - 1) * size < m.entries.length :=
    (le_pageCount_iff hsize (hq.trans hqp.le)).1 hp
  have hqfull : q * size ≤ (p - 1) * size := Nat.mul_le_mul_right size (by omega)
  obtain ⟨q, rfl⟩ : ∃ q', q = q' + 1 := ⟨q - 1, (Nat.sub_add_cancel hq).symm⟩
  have hexpand : (q + 1) * size = q * size + size := Nat.succ_mul q size
  have hlength : (m.page size (q + 1)).length = size := by
    unfold page
    rw [List.length_take, List.length_drop, Nat.add_sub_cancel]
    omega
  have hget : m.entries[q * size + (size - 1)]? = some e := by
    rw [List.getLast?_eq_getElem?, hlength] at hlast
    unfold page at hlast
    rw [List.getElem?_take, if_pos (by omega), List.getElem?_drop, Nat.add_sub_cancel] at hlast
    exact hlast
  rw [atOrAfter_eq_drop hget, List.drop_drop]
  unfold page
  have hskip : q * size + (size - 1) + (1 + (p - (q + 1) - 1) * size) = (p - 1) * size := by
    obtain ⟨r, rfl⟩ : ∃ r, p = q + 1 + r + 1 := ⟨p - (q + 1) - 1, by omega⟩
    have h1 : q + 1 + r + 1 - (q + 1) - 1 = r := by omega
    have h2 : q + 1 + r + 1 - 1 = q + 1 + r := by omega
    rw [h1, h2, Nat.add_mul, hexpand]
    omega
  rw [hskip]

end Autobackup.SortedMap
