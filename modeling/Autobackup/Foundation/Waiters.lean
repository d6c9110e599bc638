import Mathlib.Data.List.Nodup
import Mathlib.Logic.Function.Basic
import Mathlib.Order.Nat

/-!
# Requests that share an answer

Requests for the same thing wait in one list until it is there, and then all of them are answered.
A request is known by its place in the list of all requests.  `Accounted` says that each of them
either waits or was answered, and not twice; the rules are about a request that waits, one that is
answered at once, and an answer to all that wait for a thing.
-/

namespace Autobackup.Waiters

variable {ρ γ : Type}

/-- Those who wait for the thing. -/
def waitingFor (waiting : γ → Option (List ℕ)) (c : γ) : List ℕ := (waiting c).getD []

/-- Each request waits for what it wants or was answered once. -/
structure Accounted (want : ρ → γ) (requests : List ρ) (waiting : γ → Option (List ℕ))
    (answered : List ℕ) : Prop where
  nodup : ∀ c, (waitingFor waiting c).Nodup
  wants : ∀ c, ∀ i ∈ waitingFor waiting c, ∃ r, requests[i]? = some r ∧ want r = c
  lt : ∀ i ∈ answered, i < requests.length
  once : ∀ i r, requests[i]? = some r →
    answered.count i = if i ∈ waitingFor waiting (want r) then 0 else 1

variable {want : ρ → γ} {requests : List ρ} {waiting : γ → Option (List ℕ)} {answered w : List ℕ}
  {r : ρ} {c : γ}

lemma waitingFor_of_eq_some (h : waiting c = some w) : waitingFor waiting c = w := by
  rw [waitingFor, h, Option.getD_some]

lemma waitingFor_of_eq_none (h : waiting c = none) : waitingFor waiting c = [] := by
  rw [waitingFor, h, Option.getD_none]

section

variable [DecidableEq γ]

@[simp] lemma waitingFor_update_self (v : Option (List ℕ)) :
    waitingFor (Function.update waiting c v) c = v.getD [] := by
  rw [waitingFor, Function.update_self]

lemma waitingFor_update_of_ne {d : γ} (hne : d ≠ c) (v : Option (List ℕ)) :
    waitingFor (Function.update waiting c v) d = waitingFor waiting d := by
  rw [waitingFor, waitingFor, Function.update_of_ne hne]

end

/-- What a request that is not the last one says was said before it. -/
lemma getElem?_snoc {i : ℕ} {r' : ρ} (h : (requests ++ [r])[i]? = some r') :
    requests[i]? = some r' ∨ i = requests.length ∧ r' = r := by
  rcases Nat.lt_trichotomy i requests.length with hlt | heq | hgt
  · rw [List.getElem?_append_left hlt] at h
    exact .inl h
  · subst heq
    rw [List.getElem?_concat_length] at h
    exact .inr ⟨rfl, (Option.some.inj h).symm⟩
  · rw [List.getElem?_eq_none (by simp; omega)] at h
    exact absurd h (Option.some_ne_none r').symm

namespace Accounted

lemma nil (h : ∀ c, waiting c = none) : Accounted want [] waiting [] where
  nodup c := waitingFor_of_eq_none (h c) ▸ List.nodup_nil
  wants c i hi := absurd (waitingFor_of_eq_none (h c) ▸ hi) List.not_mem_nil
  lt i hi := absurd hi List.not_mem_nil
  once i r hr := absurd hr (by simp)

/-- A request that waits is one of those that are there. -/
lemma lt_of_mem (h : Accounted want requests waiting answered) {i : ℕ}
    (hi : i ∈ waitingFor waiting c) : i < requests.length := by
  obtain ⟨r, hr, -⟩ := h.wants c i hi
  exact (List.getElem?_eq_some_iff.1 hr).1

/-- **A new request is answered at once.** -/
lemma answerNow (h : Accounted want requests waiting answered) :
    Accounted want (requests ++ [r]) waiting (answered ++ [requests.length]) where
  nodup := h.nodup
  wants c i hi := by
    obtain ⟨r', hr', hwant⟩ := h.wants c i hi
    exact ⟨r', List.getElem?_append_left (h.lt_of_mem hi) ▸ hr', hwant⟩
  lt i hi := by
    rw [List.length_append, List.length_singleton]
    rcases List.mem_append.1 hi with hi | hi
    · exact Nat.lt_succ_of_lt (h.lt i hi)
    · exact Nat.lt_succ_of_le (List.mem_singleton.1 hi).le
  once i r' hr' := by
    rw [List.count_append]
    rcases getElem?_snoc hr' with hr' | ⟨rfl, rfl⟩
    · have hlt : i < requests.length := (List.getElem?_eq_some_iff.1 hr').1
      have hnone : [requests.length].count i = 0 :=
        List.count_eq_zero.2 fun hmem => hlt.ne (List.mem_singleton.1 hmem)
      rw [h.once i r' hr', hnone, Nat.add_zero]
    · have hnot : requests.length ∉ waitingFor waiting (want r') :=
        fun hmem => lt_irrefl _ (h.lt_of_mem hmem)
      have hfresh : requests.length ∉ answered := fun hmem => lt_irrefl _ (h.lt _ hmem)
      rw [if_neg hnot, List.count_eq_zero.2 hfresh, List.count_singleton_self]

variable [DecidableEq γ]

/-- **A new request waits.** -/
lemma wait (h : Accounted want requests waiting answered) :
    Accounted want (requests ++ [r])
      (Function.update waiting (want r)
        (some (waitingFor waiting (want r) ++ [requests.length]))) answered where
  nodup c := by
    by_cases hc : c = want r
    · subst hc
      rw [waitingFor_update_self, Option.getD_some]
      have hnew : requests.length ∉ waitingFor waiting (want r) :=
        fun hmem => lt_irrefl _ (h.lt_of_mem hmem)
      exact List.Nodup.append (h.nodup _) (List.nodup_singleton _)
        (List.disjoint_singleton.2 hnew)
    · rw [waitingFor_update_of_ne hc]
      exact h.nodup c
  wants c i hi := by
    by_cases hc : c = want r
    · subst hc
      rw [waitingFor_update_self, Option.getD_some] at hi
      rcases List.mem_append.1 hi with hi | hi
      · obtain ⟨r', hr', hwant⟩ := h.wants _ i hi
        exact ⟨r', List.getElem?_append_left (h.lt_of_mem hi) ▸ hr', hwant⟩
      · exact ⟨r, List.mem_singleton.1 hi ▸ List.getElem?_concat_length, rfl⟩
    · rw [waitingFor_update_of_ne hc] at hi
      obtain ⟨r', hr', hwant⟩ := h.wants c i hi
      exact ⟨r', List.getElem?_append_left (h.lt_of_mem hi) ▸ hr', hwant⟩
  lt i hi := by
    rw [List.length_append]
    exact Nat.lt_add_right _ (h.lt i hi)
  once i r' hr' := by
    rcases getElem?_snoc hr' with hr' | ⟨rfl, rfl⟩
    · rw [h.once i r' hr']
      have hlt : i < requests.length := (List.getElem?_eq_some_iff.1 hr').1
      by_cases hwant : want r' = want r
      · rw [hwant, waitingFor_update_self, Option.getD_some]
        have hne : i ≠ requests.length := hlt.ne
        simp only [List.mem_append, List.mem_singleton, hne, or_false]
      · rw [waitingFor_update_of_ne hwant]
    · rw [waitingFor_update_self, Option.getD_some, if_pos (by simp)]
      exact List.count_eq_zero.2 fun hmem => lt_irrefl _ (h.lt _ hmem)

/-- **All that wait for a thing are answered.** -/
lemma answerAll (h : Accounted want requests waiting answered) :
    Accounted want requests (Function.update waiting c none)
      (answered ++ waitingFor waiting c) where
  nodup d := by
    by_cases hd : d = c
    · subst hd
      rw [waitingFor_update_self, Option.getD_none]
      exact List.nodup_nil
    · rw [waitingFor_update_of_ne hd]
      exact h.nodup d
  wants d i hi := by
    by_cases hd : d = c
    · subst hd
      rw [waitingFor_update_self, Option.getD_none] at hi
      exact absurd hi List.not_mem_nil
    · rw [waitingFor_update_of_ne hd] at hi
      exact h.wants d i hi
  lt i hi := by
    rcases List.mem_append.1 hi with hi | hi
    · exact h.lt i hi
    · exact h.lt_of_mem hi
  once i r hr := by
    rw [List.count_append, h.once i r hr, (h.nodup c).count]
    by_cases hc : want r = c
    · -- it waited and is answered now, or it was answered before
      subst hc
      rw [waitingFor_update_self, Option.getD_none, if_neg List.not_mem_nil]
      split_ifs <;> rfl
    · have hnot : i ∉ waitingFor waiting c := by
        intro hmem
        obtain ⟨r', hr', rfl⟩ := h.wants c i hmem
        rw [hr] at hr'
        exact hc (congrArg want (Option.some.inj hr'))
      rw [waitingFor_update_of_ne hc, if_neg hnot, Nat.add_zero]

end Accounted

end Autobackup.Waiters
