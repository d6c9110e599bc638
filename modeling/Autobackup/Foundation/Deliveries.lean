import Mathlib.Data.List.Basic

/-!
# Reading a stream that arrives in pieces

A reader is a state `σ` and a function `step` that takes one byte and may put out something.
`readAll` reads a list of bytes at a stretch.  A device hands the bytes over in *deliveries*, and
between two of them the reader may lose a part of its state: `settle` says what is left of it.
`readDeliveries` reads delivery by delivery.

Where the reader loses nothing that matters, the cuts between the deliveries do not matter either;
`settle_readDeliveries` is that rule.  What must be known of a state and of the bytes still to come
is a parameter of the rule.
-/

namespace Autobackup

variable {σ β ω : Type} (step : σ → β → σ × Option ω) (settle : σ → σ)

/-- Read all the bytes: the state afterwards and what was put out. -/
def readAll : σ → List β → σ × List ω
  | s, [] => (s, [])
  | s, b :: rest =>
      let r := step s b
      let t := readAll r.1 rest
      (t.1, r.2.toList ++ t.2)

/-- Read one delivery after the other. -/
def readDeliveries : σ → List (List β) → σ × List ω
  | s, [] => (s, [])
  | s, delivery :: deliveries =>
      let r := readAll step s delivery
      let t := readDeliveries (settle r.1) deliveries
      (t.1, r.2 ++ t.2)

@[simp] lemma readAll_nil (s : σ) : readAll step s [] = (s, []) := rfl

lemma readAll_cons (s : σ) (b : β) (rest : List β) :
    readAll step s (b :: rest) = ((readAll step (step s b).1 rest).1,
      (step s b).2.toList ++ (readAll step (step s b).1 rest).2) := rfl

lemma readAll_append (s : σ) (bytes rest : List β) :
    readAll step s (bytes ++ rest) = ((readAll step (readAll step s bytes).1 rest).1,
      (readAll step s bytes).2 ++ (readAll step (readAll step s bytes).1 rest).2) := by
  induction bytes generalizing s with
  | nil => simp
  | cons b bytes ih =>
      rw [List.cons_append, readAll_cons, ih]
      simp [readAll_cons]

/-- Reading on from where some bytes have led without putting anything out. -/
lemma readAll_append_of_eq {s s' : σ} {bytes : List β} (h : readAll step s bytes = (s', []))
    (rest : List β) : readAll step s (bytes ++ rest) = readAll step s' rest := by
  rw [readAll_append, h]
  rfl

/-- Reading on where some deliveries have led without putting anything out. -/
lemma readDeliveries_append_of_eq {s s' : σ} {deliveries : List (List β)}
    (h : readDeliveries step settle s deliveries = (s', [])) (rest : List (List β)) :
    readDeliveries step settle s (deliveries ++ rest) = readDeliveries step settle s' rest := by
  induction deliveries generalizing s with
  | nil =>
      obtain rfl : s = s' := (Prod.mk.inj h).1
      rfl
  | cons delivery deliveries ih =>
      rw [readDeliveries, Prod.mk.injEq, List.append_eq_nil_iff] at h
      rw [List.cons_append, readDeliveries, ih (Prod.ext h.1 h.2.2), h.2.1]
      rfl

variable {step settle}

/-- **Cuts do not matter.**  `Good` is to hold of the state and the bytes still to come, to
survive the reading of a byte, and to survive `settle`, which then must not change what the rest
of the bytes leads to. -/
theorem settle_readDeliveries {Good : σ → List β → Prop}
    (hstep : ∀ s b rest, Good s (b :: rest) → Good (step s b).1 rest)
    (hsettle : ∀ s rest, Good s rest → Good (settle s) rest)
    (hsame : ∀ s rest, Good s rest →
      settle (readAll step (settle s) rest).1 = settle (readAll step s rest).1 ∧
        (readAll step (settle s) rest).2 = (readAll step s rest).2)
    {s : σ} {deliveries : List (List β)} (h : Good s deliveries.flatten) :
    settle (readDeliveries step settle s deliveries).1 =
        settle (readAll step s deliveries.flatten).1 ∧
      (readDeliveries step settle s deliveries).2 = (readAll step s deliveries.flatten).2 := by
  have hread {s : σ} {bytes rest : List β} (h : Good s (bytes ++ rest)) :
      Good (readAll step s bytes).1 rest := by
    induction bytes generalizing s with
    | nil => exact h
    | cons b bytes ih => exact ih (hstep s b _ h)
  induction deliveries generalizing s with
  | nil => exact ⟨rfl, rfl⟩
  | cons delivery deliveries ih =>
      rw [List.flatten_cons] at h ⊢
      have hafter := hread h
      obtain ⟨hstate, hout⟩ := ih (hsettle _ _ hafter)
      obtain ⟨hstate', hout'⟩ := hsame _ _ hafter
      rw [readAll_append, readDeliveries]
      refine ⟨hstate.trans hstate', ?_⟩
      rw [hout, hout']

end Autobackup
