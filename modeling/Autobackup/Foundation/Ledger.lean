import Mathlib.Data.List.Nodup
import Mathlib.Data.List.Perm.Basic

/-!
# A ledger of requests

What was accepted is either outstanding or answered, and never both.  The operations are the ones a
server has: it accepts something, it passes on what is outstanding, it answers, and it answers
somebody who is not in the ledger.
-/

namespace Autobackup

structure Ledger {α : Type} (accepted outstanding answered : List α) : Prop where
  nodup : outstanding.Nodup
  mem_accepted : ∀ n ∈ outstanding, n ∈ accepted
  outstanding_iff : ∀ n ∈ accepted, (n ∈ outstanding ↔ n ∉ answered)

namespace Ledger

variable {α : Type} {accepted outstanding outstanding' answered : List α} {n : α}

lemma empty (answered : List α) : Ledger ([] : List α) [] answered where
  nodup := List.nodup_nil
  mem_accepted := by simp
  outstanding_iff := by simp

/-- Somebody new is accepted. -/
lemma accept (h : Ledger accepted outstanding answered) (hnew : n ∉ accepted)
    (hanswered : n ∉ answered) : Ledger (accepted ++ [n]) (n :: outstanding) answered where
  nodup := List.nodup_cons.2 ⟨fun hn => hnew (h.mem_accepted n hn), h.nodup⟩
  mem_accepted m hm := by
    rcases List.mem_cons.1 hm with rfl | hm
    · exact List.mem_append_right _ List.mem_cons_self
    · exact List.mem_append_left _ (h.mem_accepted m hm)
  outstanding_iff m hm := by
    rw [List.mem_append, List.mem_singleton] at hm
    rcases hm with hm | rfl
    · have hne : m ≠ n := fun heq => hnew (heq ▸ hm)
      rw [List.mem_cons, or_iff_right hne, h.outstanding_iff m hm]
    · simp [hanswered]

/-- What is outstanding is passed on. -/
lemma perm (h : Ledger accepted outstanding answered) (hperm : outstanding.Perm outstanding') :
    Ledger accepted outstanding' answered where
  nodup := hperm.nodup_iff.1 h.nodup
  mem_accepted m hm := h.mem_accepted m (hperm.mem_iff.2 hm)
  outstanding_iff m hm := by rw [← hperm.mem_iff, h.outstanding_iff m hm]

/-- Somebody is answered. -/
lemma answer (h : Ledger accepted (n :: outstanding) answered) :
    Ledger accepted outstanding (answered ++ [n]) where
  nodup := (List.nodup_cons.1 h.nodup).2
  mem_accepted m hm := h.mem_accepted m (List.mem_cons_of_mem n hm)
  outstanding_iff m hm := by
    have hm' := h.outstanding_iff m hm
    rw [List.mem_cons] at hm'
    by_cases heq : m = n
    · subst heq
      simp [(List.nodup_cons.1 h.nodup).1]
    · rw [or_iff_right heq] at hm'
      simp [hm', heq]

/-- Others are answered. -/
lemma answerOthers (h : Ledger accepted outstanding answered) {others : List α}
    (hothers : ∀ m ∈ others, m ∉ accepted) : Ledger accepted outstanding (answered ++ others) where
  nodup := h.nodup
  mem_accepted := h.mem_accepted
  outstanding_iff m hm := by
    have hm' : m ∉ others := fun hmem => hothers m hmem hm
    rw [h.outstanding_iff m hm, List.mem_append, or_iff_left hm']

lemma forall_answered_iff (h : Ledger accepted outstanding answered) :
    (∀ m ∈ accepted, m ∈ answered) ↔ outstanding = [] := by
  constructor
  · intro hall
    refine List.eq_nil_iff_forall_not_mem.2 fun m hm => ?_
    exact (h.outstanding_iff m (h.mem_accepted m hm)).1 hm (hall m (h.mem_accepted m hm))
  · rintro rfl m hm
    by_contra hnot
    exact absurd ((h.outstanding_iff m hm).2 hnot) (by simp)

end Ledger

end Autobackup
