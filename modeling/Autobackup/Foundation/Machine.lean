import Mathlib.Data.List.Basic

/-!
# Machines and what holds throughout a run

A machine is a state type with a function that takes one event.  A run is a list of events.
`HoldsThroughout` speaks of every state that a run goes through, the first one included, and
`StaysWithin` of every step that it takes.

There are two rules.  `holdsThroughout_of_staysWithin` derives an invariant of the states from a
condition on the steps.  `holdsThroughout_iff_of_staysWithin` says that the condition is exact: it
needs an invariant that the good runs keep, and in the states that satisfy it the property is lost
by precisely those steps that miss the condition.
-/

namespace Autobackup.Machine

variable {σ α : Type} (step : σ → α → σ)

/-- The state that a run leads to. -/
def run (s : σ) (events : List α) : σ := events.foldl step s

/-- All states that a run goes through satisfy `P`. -/
def HoldsThroughout (P : σ → Prop) : σ → List α → Prop
  | s, [] => P s
  | s, x :: rest => P s ∧ HoldsThroughout P (step s x) rest

/-- All steps that a run takes satisfy `ok`. -/
def StaysWithin (ok : σ → α → Prop) : σ → List α → Prop
  | _, [] => True
  | s, x :: rest => ok s x ∧ StaysWithin ok (step s x) rest

instance decidableStaysWithin (ok : σ → α → Prop) [∀ s x, Decidable (ok s x)] (s : σ)
    (events : List α) : Decidable (StaysWithin step ok s events) :=
  match events with
  | [] => .isTrue trivial
  | x :: rest =>
      have := decidableStaysWithin ok (step s x) rest
      inferInstanceAs (Decidable (_ ∧ _))

/-- How many of the steps that a run takes satisfy `ok`. -/
def count (ok : σ → α → Prop) [∀ s x, Decidable (ok s x)] : σ → List α → ℕ
  | _, [] => 0
  | s, x :: rest => (if ok s x then 1 else 0) + count ok (step s x) rest

variable {step} {P I : σ → Prop} {ok : σ → α → Prop} {s : σ} {events : List α}

@[simp] lemma run_nil : run step s [] = s := rfl

@[simp] lemma run_cons (x : α) (rest : List α) :
    run step s (x :: rest) = run step (step s x) rest := rfl

lemma run_append (before after : List α) :
    run step s (before ++ after) = run step (run step s before) after :=
  List.foldl_append

lemma HoldsThroughout.start (h : HoldsThroughout step P s events) : P s := by
  cases events with
  | nil => exact h
  | cons x rest => exact h.1

lemma HoldsThroughout.run (h : HoldsThroughout step P s events) : P (run step s events) := by
  induction events generalizing s with
  | nil => exact h
  | cons x rest ih => exact ih h.2

lemma HoldsThroughout.imp {Q : σ → Prop} (h : HoldsThroughout step P s events)
    (himp : ∀ s, P s → Q s) : HoldsThroughout step Q s events := by
  induction events generalizing s with
  | nil => exact himp s h
  | cons x rest ih => exact ⟨himp s h.1, ih h.2⟩

lemma holdsThroughout_and {Q : σ → Prop} : HoldsThroughout step (fun s => P s ∧ Q s) s events ↔
    HoldsThroughout step P s events ∧ HoldsThroughout step Q s events := by
  induction events generalizing s with
  | nil => exact Iff.rfl
  | cons x rest ih =>
      rw [HoldsThroughout, HoldsThroughout, HoldsThroughout, ih]
      exact and_and_and_comm

/-- Two properties that are the same where `I` holds, which one of them keeps. -/
lemma holdsThroughout_congr {Q : σ → Prop} (hstep : ∀ s x, I s → Q s → I (step s x))
    (h : ∀ s, I s → (P s ↔ Q s)) (hI : I s) :
    HoldsThroughout step P s events ↔ HoldsThroughout step Q s events := by
  induction events generalizing s with
  | nil => exact h s hI
  | cons x rest ih =>
      rw [HoldsThroughout, HoldsThroughout, h s hI]
      exact and_congr_right fun hQ => ih (hstep s x hI hQ)

/-- **The invariant rule.** -/
theorem holdsThroughout_of_staysWithin (hstep : ∀ s x, I s → ok s x → I (step s x)) (hs : I s)
    (h : StaysWithin step ok s events) : HoldsThroughout step I s events := by
  induction events generalizing s with
  | nil => exact hs
  | cons x rest ih => exact ⟨hs, ih (hstep s x hs h.1) h.2⟩

/-- The invariant rule, for an invariant that every step keeps. -/
theorem holdsThroughout_of_step (hstep : ∀ s x, I s → I (step s x)) (hs : I s) :
    HoldsThroughout step I s events := by
  induction events generalizing s with
  | nil => exact hs
  | cons x rest ih => exact ⟨hs, ih (hstep s x hs)⟩

lemma StaysWithin.and {ok' : σ → α → Prop} (h : StaysWithin step ok s events)
    (h' : StaysWithin step ok' s events) :
    StaysWithin step (fun s x => ok s x ∧ ok' s x) s events := by
  induction events generalizing s with
  | nil => exact trivial
  | cons x rest ih => exact ⟨⟨h.1, h'.1⟩, ih h.2 h'.2⟩

/-- Steps that are taken from states with an invariant only. -/
lemma StaysWithin.imp {ok' : σ → α → Prop} (hstep : ∀ s x, I s → ok s x → I (step s x))
    (himp : ∀ s x, I s → ok s x → ok' s x) (hs : I s) (h : StaysWithin step ok s events) :
    StaysWithin step ok' s events := by
  induction events generalizing s with
  | nil => exact trivial
  | cons x rest ih => exact ⟨himp s x hs h.1, ih (hstep s x hs h.1) h.2⟩

lemma staysWithin_append {before after : List α} : StaysWithin step ok s (before ++ after) ↔
    StaysWithin step ok s before ∧ StaysWithin step ok (Machine.run step s before) after := by
  induction before generalizing s with
  | nil => exact (and_iff_right trivial).symm
  | cons x rest ih =>
      rw [List.cons_append, StaysWithin, StaysWithin, ih, and_assoc]
      rfl

/-- Two conditions on the steps that are the same where `I` holds, which the first of them keeps.
Of the events of the run, `dom` is known. -/
lemma staysWithin_congr {ok' : σ → α → Prop} (dom : α → Prop)
    (hstep : ∀ s x, dom x → I s → ok s x → I (step s x))
    (h : ∀ s x, dom x → I s → (ok s x ↔ ok' s x)) (hdom : ∀ x ∈ events, dom x) (hI : I s) :
    StaysWithin step ok s events ↔ StaysWithin step ok' s events := by
  induction events generalizing s with
  | nil => exact Iff.rfl
  | cons x rest ih =>
      have hx := hdom x List.mem_cons_self
      rw [StaysWithin, StaysWithin, ← h s x hx hI]
      exact and_congr_right fun hok =>
        ih (fun y hy => hdom y (List.mem_cons_of_mem x hy)) (hstep s x hx hI hok)

/-- **The rule for an exact condition.**  Of the steps of the run, `dom` is known. -/
theorem holdsThroughout_iff_of_staysWithin {dom : σ → α → Prop}
    (hstep : ∀ s x, dom s x → I s → P s → ok s x → I (step s x))
    (hexact : ∀ s x, dom s x → I s → P s → (P (step s x) ↔ ok s x))
    (hdom : StaysWithin step dom s events) (hI : I s) (hP : P s) :
    HoldsThroughout step P s events ↔ StaysWithin step ok s events := by
  induction events generalizing s with
  | nil => exact ⟨fun _ => trivial, fun _ => hP⟩
  | cons x rest ih =>
      obtain ⟨hx, hrest⟩ := hdom
      have hhead := hexact s x hx hI hP
      constructor
      · rintro ⟨-, hlater⟩
        have hok := hhead.1 hlater.start
        exact ⟨hok, (ih hrest (hstep s x hx hI hP hok) hlater.start).1 hlater⟩
      · rintro ⟨hok, hlater⟩
        exact ⟨hP, (ih hrest (hstep s x hx hI hP hok) (hhead.2 hok)).2 hlater⟩

lemma staysWithin_of_forall {dom : α → Prop} (hdom : ∀ x ∈ events, dom x) :
    StaysWithin step (fun _ x => dom x) s events := by
  induction events generalizing s with
  | nil => exact trivial
  | cons x rest ih =>
      exact ⟨hdom x List.mem_cons_self, ih fun y hy => hdom y (List.mem_cons_of_mem x hy)⟩

/-- What holds throughout a run holds after each of its steps. -/
lemma HoldsThroughout.staysWithin (h : HoldsThroughout step P s events) :
    StaysWithin step (fun s x => P (step s x)) s events := by
  induction events generalizing s with
  | nil => exact trivial
  | cons x rest ih => exact ⟨h.2.start, ih h.2⟩

/-- The rule for an exact condition, where of the events of the run `dom` is known. -/
theorem holdsThroughout_iff_staysWithin (dom : α → Prop)
    (hstep : ∀ s x, dom x → I s → P s → ok s x → I (step s x))
    (hexact : ∀ s x, dom x → I s → P s → (P (step s x) ↔ ok s x)) (hdom : ∀ x ∈ events, dom x)
    (hI : I s) (hP : P s) : HoldsThroughout step P s events ↔ StaysWithin step ok s events :=
  holdsThroughout_iff_of_staysWithin hstep hexact (staysWithin_of_forall hdom) hI hP

end Autobackup.Machine
