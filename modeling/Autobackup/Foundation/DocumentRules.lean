import Autobackup.Foundation.Interleaving

/-!
# Rules for documents

Many store invariants say nothing but what every single document has to be like, and how each
version of a document follows from the one before.  `Keeps Q R` is such an invariant.  Both the
rule `Q` for a document and the rule `R` for a pair of consecutive versions may refer to the
store, as long as they survive its growth (`GrowsWith`): what a document refers to (another
document, an old version) is never taken away again.

Then an action keeps the rules if what it writes does, at the time it is written (`WritesKeep`).
-/

namespace Autobackup

variable {ν κ σ τ : Type} {Doc : κ → Type}

/-- A rule for single documents. -/
abbrev DocRule (ν : Type) {κ : Type} (Doc : κ → Type) : Type :=
  Store ν Doc → (k : κ) → Doc k → Prop

/-- A rule for consecutive versions of a document. -/
abbrev VersionRule (ν : Type) {κ : Type} (Doc : κ → Type) : Type :=
  Store ν Doc → (k : κ) → Doc k → Doc k → Prop

/-- The rules survive the growth of the store. -/
structure GrowsWith (Q : DocRule ν Doc) (R : VersionRule ν Doc) : Prop where
  doc : ∀ {st st' : Store ν Doc} {k : κ} {d : Doc k}, st ≤ st' → Q st k d → Q st' k d
  version : ∀ {st st' : Store ν Doc} {k : κ} {d e : Doc k}, st ≤ st' → R st k d e → R st' k d e

/-- Every version of every document satisfies `Q`, and consecutive versions are related by
`R`. -/
structure Keeps (Q : DocRule ν Doc) (R : VersionRule ν Doc) (st : Store ν Doc) : Prop where
  docs : ∀ k c d, (st k).docAt c = some d → Q st k d
  versions : ∀ k, (st k).Chain fun d _ e => R st k d e

/-- What the action writes, if it is accepted, satisfies the rules. -/
def WritesKeep (Q : DocRule ν Doc) (R : VersionRule ν Doc) (st : Store ν Doc) :
    Action ν Doc σ → Prop
  | .add k _ d _ => (st k).cas = 0 → Q st k d
  | .set k _ d c _ =>
      (c = 0 ∨ c = (st k).cas) → Q st k d ∧ ∀ e, (st k).current = some e → R st k e d
  | _ => True

variable {Q : DocRule ν Doc} {R : VersionRule ν Doc} {st : Store ν Doc}

lemma writesKeep_map {a : Action ν Doc σ} (f : σ → τ) (h : WritesKeep Q R st a) :
    WritesKeep Q R st (a.map f) := by
  cases a with
  | add k n d resume => exact h
  | set k n d c resume => exact h
  | _ => trivial

/-- A rule that is transported from version to version holds of all later ones. -/
lemma Keeps.later (h : Keeps Q R st) {k : κ} {P : Doc k → Prop}
    (hP : ∀ d e, P d → R st k d e → P e) {c c' : ℕ} {d d' : Doc k} (hc : c ≤ c')
    (hd : (st k).docAt c = some d) (hd' : (st k).docAt c' = some d') (hPd : P d) : P d' :=
  (h.versions k).later (P := P) (fun d _ e => hP d e) hc hd hd' hPd

/-- What no later version takes away again is the same wherever two versions have it. -/
lemma Keeps.sticky_unique (h : Keeps Q R st) {k : κ} {α : Type} {f : Doc k → Option α}
    {S : α → Prop} (hsticks : ∀ a d e, S a → f d = some a → R st k d e → f e = some a)
    {c c' : ℕ} {d d' : Doc k} {a a' : α} (hd : (st k).docAt c = some d)
    (hd' : (st k).docAt c' = some d') (ha : f d = some a) (ha' : f d' = some a') (hS : S a)
    (hS' : S a') : a = a' := by
  rcases Nat.le_total c c' with hc | hc
  · have := h.later (P := fun e => f e = some a) (fun d e => hsticks a d e hS) hc hd hd' ha
    exact Option.some.inj (this.symm.trans ha')
  · have := h.later (P := fun e => f e = some a') (fun d e => hsticks a' d e hS') hc hd' hd ha'
    exact Option.some.inj (ha.symm.trans this)

section

variable [DecidableEq κ]

lemma Keeps.push (hgrows : GrowsWith Q R) (h : Keeps Q R st) {k : κ} {n : ν} {d : Doc k}
    (hdoc : Q st k d) (hversion : ∀ e, (st k).current = some e → R st k e d) :
    Keeps Q R (st.push k n d) := by
  have hst := Store.le_push st k n d
  constructor
  · intro k' c e he
    by_cases hk : k' = k
    · subst hk
      rw [Store.push_self, Cell.docAt_push] at he
      split at he
      · exact hgrows.doc hst (Option.some.inj he ▸ hdoc)
      · exact hgrows.doc hst (h.docs _ _ _ he)
    · rw [Store.push_of_ne st hk] at he
      exact hgrows.doc hst (h.docs _ _ _ he)
  · intro k'
    have hold : (st k').Chain fun e _ e' => R (st.push k n d) k' e e' :=
      (h.versions k').imp fun _ _ _ => hgrows.version hst
    by_cases hk : k' = k
    · subst hk
      rw [Store.push_self]
      exact hold.push fun e he => hgrows.version hst (hversion e he)
    · rw [Store.push_of_ne st hk]
      exact hold

/-- Step lemma: writes that satisfy the rules keep them. -/
lemma Keeps.perform (hgrows : GrowsWith Q R) (h : Keeps Q R st) {a : Action ν Doc σ}
    (ha : WritesKeep Q R st a) : Keeps Q R (perform st a).1 := by
  cases a with
  | pause next => exact h
  | get k resume => exact h
  | feed k c resume => exact h
  | add k n d resume =>
      refine perform_add (P := fun r => Keeps Q R r.1) (fun habsent => ?_) (fun _ => h)
      refine h.push hgrows (ha habsent) fun e he => ?_
      have := Cell.docAt_bounds he
      omega
  | set k n d c resume =>
      simp only [Autobackup.perform]
      split
      · next hcas => exact h.push hgrows (ha hcas).1 (ha hcas).2
      · split <;> exact h

end

end Autobackup
