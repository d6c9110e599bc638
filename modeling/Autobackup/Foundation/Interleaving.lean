import Autobackup.Foundation.VersionedStore

/-!
# Clients of a shared store, interleaved

A client is a state type `σ` together with a function `act` saying what a client in a given
state does next: a local move, or *one* store operation and how the client continues with the
reply.  Nothing else of a client can touch the store, so a single store operation is the unit of
interleaving.  `act` also takes an input, through which everything the client does not control
enters (a click, a clock, a random number).

A `World` is a store and one client state for every index.  A step lets one client perform its
next action; a client that is never scheduled again has stopped for good, so crashes need no
constructor of their own.  `Reaches act ok w₀ w` says that `w` is reachable from `w₀` by steps
that all satisfy `ok`; the unrestricted system is the case `ok = anyStep`.

The rule the rest of the development rests on is `Reaches.threadModular`.  It asks for an
invariant `I` of the store and a predicate `L` relating the store to one client's state,
where `L` must survive the growth of the store.  What one client does is then checked once
and for all, without mentioning the others.
-/

namespace Autobackup

/-- The answer to a write. -/
inductive Reply
  /-- The write was accepted; the new version has this CAS. -/
  | stored (cas : ℕ)
  /-- The key is present (`add`), or its current CAS is another one (`set`). -/
  | keyExists
  /-- A `set` with a CAS, of a key that does not exist. -/
  | keyMissing
  deriving DecidableEq, Repr

/-- What a client does next. -/
inductive Action (ν : Type) {κ : Type} (Doc : κ → Type) (σ : Type)
  /-- A move that does not involve the store. -/
  | pause (next : σ)
  /-- Read the current document and its CAS. -/
  | get (k : κ) (resume : Option (ℕ × Doc k) → σ)
  /-- Be handed a past or present version of a document, as by a change feed. -/
  | feed (k : κ) (c : ℕ) (resume : Option (ℕ × Doc k) → σ)
  /-- Create a document, unless the key exists. -/
  | add (k : κ) (n : ν) (d : Doc k) (resume : Reply → σ)
  /-- Replace the document whose CAS is `c`; unconditionally when `c` is zero. -/
  | set (k : κ) (n : ν) (d : Doc k) (c : ℕ) (resume : Reply → σ)

section Perform

variable {ν κ σ τ : Type} {Doc : κ → Type} [DecidableEq κ]

/-- Perform one action: the new store and the client's new state. -/
def perform (st : Store ν Doc) : Action ν Doc σ → Store ν Doc × σ
  | .pause next => (st, next)
  | .get k resume => (st, resume (st k).get)
  | .feed k c resume => (st, resume (((st k).docAt c).map fun d => (c, d)))
  | .add k n d resume =>
      if (st k).cas = 0 then (st.push k n d, resume (.stored 1)) else (st, resume .keyExists)
  | .set k n d c resume =>
      if c = 0 ∨ c = (st k).cas then (st.push k n d, resume (.stored ((st k).cas + 1)))
      else if (st k).cas = 0 then (st, resume .keyMissing)
      else (st, resume .keyExists)

omit [DecidableEq κ] in
/-- Rename the states a client continues in. -/
def Action.map (f : σ → τ) : Action ν Doc σ → Action ν Doc τ
  | .pause next => .pause (f next)
  | .get k resume => .get k fun r => f (resume r)
  | .feed k c resume => .feed k c fun r => f (resume r)
  | .add k n d resume => .add k n d fun r => f (resume r)
  | .set k n d c resume => .set k n d c fun r => f (resume r)

lemma perform_map (f : σ → τ) (st : Store ν Doc) (a : Action ν Doc σ) :
    perform st (a.map f) = ((perform st a).1, f (perform st a).2) := by
  cases a with
  | pause next => rfl
  | get k resume => rfl
  | feed k c resume => rfl
  | add k n d resume =>
      simp only [Action.map, perform]
      split <;> rfl
  | set k n d c resume =>
      simp only [Action.map, perform]
      split
      · rfl
      · split <;> rfl

/-- Case rule for `add`: either the key was absent and now has its first version, or nothing
happened. -/
lemma perform_add {P : Store ν Doc × σ → Prop} {st : Store ν Doc} {k : κ} {n : ν} {d : Doc k}
    {resume : Reply → σ}
    (hnew : (st k).cas = 0 → P (st.push k n d, resume (.stored 1)))
    (hold : (st k).cas ≠ 0 → P (st, resume .keyExists)) :
    P (perform st (.add k n d resume)) := by
  simp only [perform]
  split
  · next h => exact hnew h
  · next h => exact hold h

/-- Case rule for `set` with a CAS that a read returned: an accepted `set` replaces the very
version the CAS belongs to, a refused one changes nothing. -/
lemma perform_set {P : Store ν Doc × σ → Prop} {st : Store ν Doc} {k : κ} {n : ν} {d : Doc k}
    {c : ℕ} {resume : Reply → σ} (hc : 0 < c)
    (haccept : c = (st k).cas → P (st.push k n d, resume (.stored (c + 1))))
    (hrefuse : ∀ r, (∀ e, r ≠ .stored e) → P (st, resume r)) :
    P (perform st (.set k n d c resume)) := by
  simp only [perform]
  split
  · next h =>
      have hcas : c = (st k).cas := h.resolve_left (by omega)
      have := haccept hcas
      rwa [hcas] at this
  · split
    · exact hrefuse _ (by simp)
    · exact hrefuse _ (by simp)

/-- A `set` with the current CAS is accepted. -/
lemma perform_set_current {st : Store ν Doc} {k : κ} {n : ν} {d : Doc k} {c : ℕ}
    {resume : Reply → σ} (hc : c = (st k).cas) :
    perform st (.set k n d c resume) = (st.push k n d, resume (.stored (c + 1))) := by
  rw [perform, if_pos (.inr hc), hc]

/-- Case rule for a `set` of which nothing is known. -/
lemma perform_set_any {P : Store ν Doc × σ → Prop} {st : Store ν Doc} {k : κ} {n : ν}
    {d : Doc k} {c : ℕ} {resume : Reply → σ}
    (haccept : P (st.push k n d, resume (.stored ((st k).cas + 1))))
    (hrefuse : ∀ r, P (st, resume r)) : P (perform st (.set k n d c resume)) := by
  simp only [perform]
  split
  · exact haccept
  · split
    · exact hrefuse _
    · exact hrefuse _

lemma le_perform (st : Store ν Doc) (a : Action ν Doc σ) : st ≤ (perform st a).1 := by
  cases a with
  | pause next => exact fun k => Cell.le_refl _
  | get k resume => exact fun k => Cell.le_refl _
  | feed k c resume => exact fun k => Cell.le_refl _
  | add k n d resume =>
      simp only [perform]
      split
      · exact Store.le_push st k n d
      · exact fun k => Cell.le_refl _
  | set k n d c resume =>
      simp only [perform]
      split
      · exact Store.le_push st k n d
      · split <;> exact fun k => Cell.le_refl _

/-- Inversion: what changed a cell was an accepted write of that cell. -/
lemma perform_ne {st : Store ν Doc} {a : Action ν Doc σ} {k : κ}
    (h : (perform st a).1 k ≠ st k) :
    (∃ n d resume, a = .add k n d resume ∧ (st k).cas = 0 ∧ (perform st a).1 = st.push k n d) ∨
      ∃ n d c resume, a = .set k n d c resume ∧ (c = 0 ∨ c = (st k).cas) ∧
        (perform st a).1 = st.push k n d := by
  cases a with
  | pause next => exact absurd rfl h
  | get k' resume => exact absurd rfl h
  | feed k' c resume => exact absurd rfl h
  | add k' n d resume =>
      simp only [perform] at h ⊢
      split at h
      · next hcas =>
          obtain rfl : k = k' := by
            by_contra hne
            exact h (Store.push_of_ne st hne n d)
          exact .inl ⟨n, d, resume, rfl, hcas, by rw [if_pos hcas]⟩
      · exact absurd rfl h
  | set k' n d c resume =>
      simp only [perform] at h ⊢
      split at h
      · next hcas =>
          obtain rfl : k = k' := by
            by_contra hne
            exact h (Store.push_of_ne st hne n d)
          exact .inr ⟨n, d, c, resume, rfl, hcas, by rw [if_pos hcas]⟩
      · split at h <;> exact absurd rfl h

end Perform

/-! ## Worlds and runs -/

/-- A store and the state of every client. -/
structure World (ν : Type) {κ : Type} (Doc : κ → Type) (σ ι : Type) where
  store : Store ν Doc
  client : ι → σ

section Runs

variable {ν κ σ ι Inp : Type} {Doc : κ → Type} [DecidableEq κ] [DecidableEq ι]
variable (act : σ → Inp → Action ν Doc σ)

/-- Client `i` performs its next action on input `x`. -/
def World.step (w : World ν Doc σ ι) (i : ι) (x : Inp) : World ν Doc σ ι :=
  let r := perform w.store (act (w.client i) x)
  { store := r.1, client := Function.update w.client i r.2 }

/-- Carry out a schedule. -/
def World.run (w : World ν Doc σ ι) (sched : List (ι × Inp)) : World ν Doc σ ι :=
  sched.foldl (fun w e => w.step act e.1 e.2) w

/-- Every step of the schedule satisfies `ok` where it is taken. -/
def World.StaysWithin (ok : Store ν Doc → σ → Inp → Prop) (w : World ν Doc σ ι) :
    List (ι × Inp) → Prop
  | [] => True
  | e :: sched => ok w.store (w.client e.1) e.2 ∧ (w.step act e.1 e.2).StaysWithin ok sched

instance World.decidableStaysWithin (ok : Store ν Doc → σ → Inp → Prop)
    [∀ st s x, Decidable (ok st s x)] (w : World ν Doc σ ι) (sched : List (ι × Inp)) :
    Decidable (w.StaysWithin act ok sched) :=
  match sched with
  | [] => .isTrue trivial
  | e :: sched =>
      have := World.decidableStaysWithin ok (w.step act e.1 e.2) sched
      inferInstanceAs (Decidable (_ ∧ _))

/-- No restriction on the steps of a run. -/
def anyStep : Store ν Doc → σ → Inp → Prop := fun _ _ _ => True

/-- Reachability by steps that all satisfy `ok`. -/
inductive Reaches (ok : Store ν Doc → σ → Inp → Prop) (w₀ : World ν Doc σ ι) :
    World ν Doc σ ι → Prop
  | start : Reaches ok w₀ w₀
  | step {w : World ν Doc σ ι} (i : ι) (x : Inp) :
      Reaches ok w₀ w → ok w.store (w.client i) x → Reaches ok w₀ (w.step act i x)

variable {act} {ok : Store ν Doc → σ → Inp → Prop} {w₀ w : World ν Doc σ ι}

lemma World.step_store_le (w : World ν Doc σ ι) (i : ι) (x : Inp) :
    w.store ≤ (w.step act i x).store :=
  le_perform _ _

lemma Reaches.store_le (h : Reaches act ok w₀ w) : w₀.store ≤ w.store := by
  induction h with
  | start => exact fun k => Cell.le_refl _
  | step i x _ _ ih => exact fun k => Cell.le_trans (ih k) (World.step_store_le _ i x k)

lemma Reaches.trans {w' : World ν Doc σ ι} (h : Reaches act ok w₀ w) (h' : Reaches act ok w w') :
    Reaches act ok w₀ w' := by
  induction h' with
  | start => exact h
  | step i x _ hok ih => exact .step i x ih hok

lemma reaches_run_of_staysWithin {w : World ν Doc σ ι} {sched : List (ι × Inp)}
    (h : w.StaysWithin act ok sched) : Reaches act ok w (w.run act sched) := by
  induction sched generalizing w with
  | nil => exact .start
  | cons e rest ih => exact (Reaches.step e.1 e.2 .start h.1).trans (ih h.2)

lemma reaches_run (w : World ν Doc σ ι) (sched : List (ι × Inp)) :
    Reaches act anyStep w (w.run act sched) := by
  induction sched generalizing w with
  | nil => exact .start
  | cons e rest ih =>
      exact (Reaches.step e.1 e.2 .start trivial).trans (ih (w.step act e.1 e.2))

/-- Whatever is known of the reachable worlds may be added to the condition on steps. -/
lemma Reaches.strengthen {ok' : Store ν Doc → σ → Inp → Prop}
    (hok : ∀ w i x, Reaches act ok w₀ w → ok w.store (w.client i) x →
      ok' w.store (w.client i) x)
    (h : Reaches act ok w₀ w) : Reaches act ok' w₀ w := by
  induction h with
  | start => exact .start
  | step i x hw hx ih => exact .step i x ih (hok _ i x hw hx)

/-- **The thread-modular rule.**  An invariant of the store and a growth-stable property of
every client's state hold in all reachable worlds, if the action of a single client keeps the
invariant and its own property. -/
theorem Reaches.threadModular {I : Store ν Doc → Prop} {L : Store ν Doc → σ → Prop}
    (hstable : ∀ st st' s, st ≤ st' → I st' → L st s → L st' s)
    (hstep : ∀ st s x, ok st s x → I st → L st s →
      I (perform st (act s x)).1 ∧
        L (perform st (act s x)).1 (perform st (act s x)).2)
    (hinv : I w₀.store) (hlocal : ∀ i, L w₀.store (w₀.client i))
    (h : Reaches act ok w₀ w) : I w.store ∧ ∀ i, L w.store (w.client i) := by
  induction h with
  | start => exact ⟨hinv, hlocal⟩
  | @step w i x _ hok ih =>
      obtain ⟨hI, hL⟩ := ih
      obtain ⟨hI', hL'⟩ := hstep w.store (w.client i) x hok hI (hL i)
      refine ⟨hI', fun j => ?_⟩
      by_cases hj : j = i
      · subst hj
        simpa [World.step] using hL'
      · have := hstable _ _ _ (le_perform w.store (act (w.client i) x)) hI' (hL j)
        simpa [World.step, hj] using this

end Runs

end Autobackup
