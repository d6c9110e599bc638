import Autobackup.Foundation.Interleaving
import Mathlib.Algebra.BigOperators.Group.Finset.Basic
import Mathlib.Data.Finset.Card
import Mathlib.Data.List.Nodup

/-!
# Versions that one client owns

A client that notes a version of a document in the very step in which it writes it is the only one
that ever notes it, and notes it once (`Reaches.ownedOnce`).  So if only some versions are noted,
then all clients together note no more of them than there are (`World.OwnedOnce.sum_count_le`).

A key that is created with `add` is the case of a first version (`Reaches.createdOnce`).
-/

namespace Autobackup

variable {ν κ σ ι Inp : Type} {Doc : κ → Type}

/-- The versions that clients note as theirs are there, and each is noted once. -/
structure World.OwnedOnce (owned : σ → List (κ × ℕ)) (w : World ν Doc σ ι) : Prop where
  exist : ∀ i, ∀ v ∈ owned (w.client i), v.2 ≤ (w.store v.1).cas
  nodup : ∀ i, (owned (w.client i)).Nodup
  disjoint : ∀ i j, i ≠ j → (owned (w.client i)).Disjoint (owned (w.client j))

lemma World.OwnedOnce.of_nil {owned : σ → List (κ × ℕ)} {w : World ν Doc σ ι}
    (h : ∀ i, owned (w.client i) = []) : w.OwnedOnce owned where
  exist i v hv := by
    rw [h i] at hv
    exact absurd hv List.not_mem_nil
  nodup i := by
    rw [h i]
    exact List.nodup_nil
  disjoint i j _ := by
    rw [h i]
    exact List.disjoint_nil_left _

/-- **Nobody notes a version twice.** -/
theorem World.OwnedOnce.sum_count_le [DecidableEq κ] {owned : σ → List (κ × ℕ)}
    {w : World ν Doc σ ι} (h : w.OwnedOnce owned) {k : κ} {versions : Finset ℕ}
    (hversions : ∀ i, ∀ v ∈ owned (w.client i), v.1 = k → v.2 ∈ versions) (T : Finset ι) :
    ∑ i ∈ T, (owned (w.client i)).countP (fun v => v.1 = k) ≤ versions.card := by
  classical
  let noted (i : ι) : List (κ × ℕ) := (owned (w.client i)).filter fun v => v.1 = k
  have hmem {i : ι} {v : κ × ℕ} (hv : v ∈ noted i) : v ∈ owned (w.client i) ∧ v.1 = k := by
    rw [List.mem_filter, decide_eq_true_iff] at hv
    exact hv
  have hcard (i : ι) : (owned (w.client i)).countP (fun v => v.1 = k) =
      (noted i).toFinset.card := by
    rw [List.toFinset_card_of_nodup ((h.nodup i).filter _), List.countP_eq_length_filter]
  have hdisjoint : (T : Set ι).PairwiseDisjoint fun i => (noted i).toFinset := by
    intro i _ j _ hne
    rw [Function.onFun, Finset.disjoint_left]
    intro v hi hj
    rw [List.mem_toFinset] at hi hj
    exact h.disjoint i j hne (hmem hi).1 (hmem hj).1
  have hinto : ∀ v ∈ T.biUnion (fun i => (noted i).toFinset), v.2 ∈ versions := by
    intro v hv
    obtain ⟨i, _, hvi⟩ := Finset.mem_biUnion.1 hv
    obtain ⟨howned, hkey⟩ := hmem (List.mem_toFinset.1 hvi)
    exact hversions i v howned hkey
  have hinj : Set.InjOn Prod.snd (T.biUnion (fun i => (noted i).toFinset) : Set (κ × ℕ)) := by
    intro v hv v' hv' heq
    obtain ⟨i, _, hvi⟩ := Finset.mem_biUnion.1 hv
    obtain ⟨i', _, hvi'⟩ := Finset.mem_biUnion.1 hv'
    have hkey := (hmem (List.mem_toFinset.1 hvi)).2
    have hkey' := (hmem (List.mem_toFinset.1 hvi')).2
    exact Prod.ext (hkey.trans hkey'.symm) heq
  calc ∑ i ∈ T, (owned (w.client i)).countP (fun v => v.1 = k)
      = ∑ i ∈ T, (noted i).toFinset.card := Finset.sum_congr rfl fun i _ => hcard i
    _ = (T.biUnion fun i => (noted i).toFinset).card := (Finset.card_biUnion hdisjoint).symm
    _ ≤ versions.card := Finset.card_le_card_of_injOn Prod.snd hinto hinj

variable [DecidableEq κ] [DecidableEq ι] {act : σ → Inp → Action ν Doc σ}
  {ok : Store ν Doc → σ → Inp → Prop} {w₀ w : World ν Doc σ ι}

/-- **A version is owned by the client that wrote it.**  A client notes a version in the very step
in which it is written; it may forget it. -/
theorem Reaches.ownedOnce {owned : σ → List (κ × ℕ)}
    (hstep : ∀ st s x, ok st s x →
      (owned (perform st (act s x)).2).Sublist (owned s) ∨
      ∃ k, (st k).cas < ((perform st (act s x)).1 k).cas ∧
        (owned (perform st (act s x)).2).Sublist (owned s ++ [(k, (st k).cas + 1)]))
    (hstart : w₀.OwnedOnce owned) (h : Reaches act ok w₀ w) : w.OwnedOnce owned := by
  induction h with
  | start => exact hstart
  | @step w i x _ hok ih =>
      have hself : (w.step act i x).client i = (perform w.store (act (w.client i) x)).2 := by
        simp [World.step]
      have hother (j : ι) (hj : j ≠ i) : (w.step act i x).client j = w.client j := by
        simp [World.step, hj]
      have hgrows (k : κ) : (w.store k).cas ≤ ((w.step act i x).store k).cas :=
        Cell.cas_mono (w.step_store_le i x k)
      -- what the client that moves may note, which nobody else has noted
      obtain ⟨noted, hsub, hexist, hnodup, hdisjoint⟩ : ∃ noted : List (κ × ℕ),
          (owned ((w.step act i x).client i)).Sublist noted ∧
          (∀ v ∈ noted, v.2 ≤ ((w.step act i x).store v.1).cas) ∧ noted.Nodup ∧
          ∀ j, j ≠ i → noted.Disjoint (owned (w.client j)) := by
        rw [hself]
        rcases hstep w.store (w.client i) x hok with hsame | ⟨k, hwritten, hnew⟩
        · refine ⟨owned (w.client i), hsame, ?_, ih.nodup i, fun j hj => ih.disjoint i j hj.symm⟩
          intro v hv
          exact (ih.exist i v hv).trans (hgrows v.1)
        · have hfresh (j : ι) : (k, (w.store k).cas + 1) ∉ owned (w.client j) := by
            intro hmem
            have hle : (w.store k).cas + 1 ≤ (w.store k).cas := ih.exist j _ hmem
            omega
          refine ⟨_, hnew, ?_, ?_, ?_⟩
          · intro v hv
            rw [List.mem_append, List.mem_singleton] at hv
            rcases hv with hv | rfl
            · exact (ih.exist i v hv).trans (hgrows v.1)
            · exact hwritten
          · rw [← List.concat_eq_append]
            exact List.Nodup.concat (hfresh i) (ih.nodup i)
          · intro j hj
            rw [List.disjoint_append_left, List.singleton_disjoint]
            exact ⟨ih.disjoint i j hj.symm, hfresh j⟩
      constructor
      · intro j v hv
        by_cases hj : j = i
        · rw [hj] at hv
          exact hexist v (hsub.subset hv)
        · rw [hother j hj] at hv
          exact (ih.exist j v hv).trans (hgrows v.1)
      · intro j
        by_cases hj : j = i
        · rw [hj]
          exact hnodup.sublist hsub
        · rw [hother j hj]
          exact ih.nodup j
      · have hmoved (j : ι) (hj : j ≠ i) :
            (owned ((w.step act i x).client i)).Disjoint (owned ((w.step act i x).client j)) := by
          rw [hother j hj]
          exact fun v hv => hdisjoint j hj (hsub.subset hv)
        intro j j' hne
        by_cases hj : j = i
        · subst hj
          exact hmoved j' hne.symm
        · by_cases hj' : j' = i
          · subst hj'
            exact List.disjoint_symm (hmoved j hj)
          · rw [hother j hj, hother j' hj']
            exact ih.disjoint j j' hne

/-! ## Keys that one client has created -/

/-- The keys that clients note as created by them exist, and each was created once. -/
structure World.CreatedOnce (created : σ → List κ) (w : World ν Doc σ ι) : Prop where
  exist : ∀ i, ∀ k ∈ created (w.client i), (w.store k).cas ≠ 0
  nodup : ∀ i, (created (w.client i)).Nodup
  disjoint : ∀ i j, i ≠ j → (created (w.client i)).Disjoint (created (w.client j))

/-- The first version of each. -/
def firstVersions (keys : List κ) : List (κ × ℕ) := keys.map fun k => (k, 1)

omit [DecidableEq κ] in
lemma mem_firstVersions {keys : List κ} {k : κ} (h : k ∈ keys) : (k, 1) ∈ firstVersions keys :=
  List.mem_map_of_mem h

omit [DecidableEq κ] [DecidableEq ι] in
lemma World.OwnedOnce.createdOnce {created : σ → List κ}
    (h : w.OwnedOnce fun s => firstVersions (created s)) : w.CreatedOnce created where
  exist i k hk := by
    have hfirst : 1 ≤ (w.store k).cas := h.exist i _ (mem_firstVersions hk)
    omega
  nodup i := List.Nodup.of_map _ (h.nodup i)
  disjoint i j hne k hi hj := h.disjoint i j hne (mem_firstVersions hi) (mem_firstVersions hj)

/-- **What is created with `add` is created by one client, once.**  A client notes a key in the very
step in which the key comes into existence. -/
theorem Reaches.createdOnce {created : σ → List κ}
    (hstep : ∀ st s x, ok st s x →
      created (perform st (act s x)).2 = created s ∨
      ∃ k, (st k).cas = 0 ∧ ((perform st (act s x)).1 k).cas ≠ 0 ∧
        created (perform st (act s x)).2 = created s ++ [k])
    (hstart : ∀ i, created (w₀.client i) = []) (h : Reaches act ok w₀ w) :
    w.CreatedOnce created := by
  have howned : w.OwnedOnce fun s => firstVersions (created s) := by
    apply h.ownedOnce
    · intro st s x hok
      rcases hstep st s x hok with hsame | ⟨k, habsent, hpresent, hnew⟩
      · rw [hsame]
        exact .inl (List.Sublist.refl _)
      · refine .inr ⟨k, by omega, ?_⟩
        rw [hnew, habsent, firstVersions, List.map_append]
        exact List.Sublist.refl _
    · apply World.OwnedOnce.of_nil
      intro i
      rw [hstart i]
      rfl
  exact howned.createdOnce

end Autobackup
