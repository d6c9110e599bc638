import Mathlib.Data.List.Basic
import Mathlib.Data.List.Induction

/-!
# Scripts

A script is a list of actions.  An action succeeds or fails, and may change the state in both cases;
the first that fails is the last that is done.

What every action keeps is kept by the script, however far it gets (`perform_of_forall`).  A script
that succeeds has succeeded in each of its parts (`perform_append_eq_true`).  Where each action
achieves something that the others leave alone, the script achieves it all, in any order
(`perform_of_achieves`).
-/

namespace Autobackup.Script

variable {σ α : Type} (act : α → σ → σ × Bool)

def perform : List α → σ → σ × Bool
  | [], s => (s, true)
  | action :: rest, s =>
      if (act action s).2 then perform rest (act action s).1 else ((act action s).1, false)

variable {act} {I : σ → Prop} {action : α} {actions more : List α} {s : σ}

@[simp] lemma perform_nil : perform act [] s = (s, true) := rfl

lemma perform_cons_of_fails (h : (act action s).2 = false) :
    perform act (action :: actions) s = ((act action s).1, false) := by
  rw [perform, h]
  rfl

lemma perform_cons_of_succeeds (h : (act action s).2 = true) :
    perform act (action :: actions) s = perform act actions (act action s).1 := by
  rw [perform, if_pos h]

lemma perform_singleton : perform act [action] s = act action s := by
  cases hok : (act action s).2 with
  | false =>
      rw [perform_cons_of_fails hok, ← hok]
  | true =>
      rw [perform_cons_of_succeeds hok, perform_nil, ← hok]

/-- **The rule for what every action keeps.** -/
theorem perform_of_forall (h : ∀ action ∈ actions, ∀ s, I s → I (act action s).1) (hs : I s) :
    I (perform act actions s).1 := by
  induction actions generalizing s with
  | nil => exact hs
  | cons action rest ih =>
      have hfirst := h action List.mem_cons_self s hs
      cases hok : (act action s).2 with
      | false =>
          rw [perform_cons_of_fails hok]
          exact hfirst
      | true =>
          rw [perform_cons_of_succeeds hok]
          exact ih (fun other hother => h other (List.mem_cons_of_mem _ hother)) hfirst

lemma perform_cons_eq_true (h : (perform act (action :: actions) s).2 = true) :
    (act action s).2 = true ∧
      perform act (action :: actions) s = perform act actions (act action s).1 := by
  cases hok : (act action s).2 with
  | false =>
      rw [perform_cons_of_fails hok] at h
      exact absurd h Bool.false_ne_true
  | true => exact ⟨rfl, perform_cons_of_succeeds hok⟩

lemma perform_append_of_succeeds (h : (perform act actions s).2 = true) :
    perform act (actions ++ more) s = perform act more (perform act actions s).1 := by
  induction actions generalizing s with
  | nil => rfl
  | cons action rest ih =>
      obtain ⟨hfirst, heq⟩ := perform_cons_eq_true h
      rw [heq] at h ⊢
      rw [List.cons_append, perform_cons_of_succeeds hfirst]
      exact ih h

/-- What comes after a part that fails is not done. -/
lemma perform_append_of_fails (h : (perform act actions s).2 = false) :
    perform act (actions ++ more) s = perform act actions s := by
  induction actions generalizing s with
  | nil => exact absurd h.symm Bool.false_ne_true
  | cons action rest ih =>
      rw [List.cons_append]
      cases hok : (act action s).2 with
      | false => rw [perform_cons_of_fails hok, perform_cons_of_fails hok]
      | true =>
          rw [perform_cons_of_succeeds hok] at h
          rw [perform_cons_of_succeeds hok, perform_cons_of_succeeds hok]
          exact ih h

/-- A script that succeeds has succeeded in its first part. -/
lemma perform_append_eq_true (h : (perform act (actions ++ more) s).2 = true) :
    (perform act actions s).2 = true ∧
      perform act (actions ++ more) s = perform act more (perform act actions s).1 := by
  cases hok : (perform act actions s).2 with
  | false =>
      rw [perform_append_of_fails hok, hok] at h
      exact absurd h Bool.false_ne_true
  | true => exact ⟨rfl, perform_append_of_succeeds hok⟩

/-- **A script succeeds** if its first part does, and the rest after that. -/
theorem perform_append_iff : (perform act (actions ++ more) s).2 = true ↔
    (perform act actions s).2 = true ∧ (perform act more (perform act actions s).1).2 = true := by
  constructor
  · intro h
    obtain ⟨hfirst, heq⟩ := perform_append_eq_true h
    exact ⟨hfirst, heq ▸ h⟩
  · rintro ⟨hfirst, hmore⟩
    rw [perform_append_of_succeeds hfirst]
    exact hmore

lemma perform_cons_iff : (perform act (action :: actions) s).2 = true ↔
    (act action s).2 = true ∧ (perform act actions (act action s).1).2 = true := by
  have h := @perform_append_iff _ _ act [action] actions s
  rwa [List.singleton_append, perform_singleton] at h

/-- **The rule for actions that each achieve something,** and do not undo what another has. -/
theorem perform_of_achieves (act : α → σ → σ × Bool) (actions : List α) {E : α → σ → Prop}
    (h : ∀ action ∈ actions, ∀ s, I s → (act action s).2 = true ∧ I (act action s).1 ∧
      E action (act action s).1 ∧
      ∀ other ∈ actions, other ≠ action → E other s → E other (act action s).1)
    (hs : I s) :
    (perform act actions s).2 = true ∧ I (perform act actions s).1 ∧
      ∀ action ∈ actions, E action (perform act actions s).1 := by
  induction actions using List.reverseRecOn with
  | nil => exact ⟨rfl, hs, fun _ haction => absurd haction List.not_mem_nil⟩
  | append_singleton front last ih =>
      obtain ⟨hok, hinvariant, hachieved⟩ := ih fun action haction s hI => by
        obtain ⟨hok, hkept, hself, hothers⟩ := h action (List.mem_append_left _ haction) s hI
        exact ⟨hok, hkept, hself, fun other hother => hothers other (List.mem_append_left _ hother)⟩
      obtain ⟨hlast, hkept, hself, hothers⟩ :=
        h last (List.mem_append_right _ List.mem_cons_self) _ hinvariant
      rw [perform_append_of_succeeds hok, perform_singleton]
      refine ⟨hlast, hkept, fun action haction => ?_⟩
      by_cases heq : action = last
      · rw [heq]
        exact hself
      · have hfront : action ∈ front := (List.mem_append.1 haction).resolve_right fun hmem =>
          heq (List.mem_singleton.1 hmem)
        exact hothers action haction heq (hachieved action hfront)

end Autobackup.Script
