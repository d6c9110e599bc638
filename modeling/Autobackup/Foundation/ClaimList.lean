import Mathlib.Data.List.Basic

/-!
# Claiming places on a page

A page is a list of places, each free or claimed by an owner.  A claimant walks the page from
the front: it stops at a place that is already its own, or else takes the first free place it
meets.  `claim` is that walk, bounded by the number of places a page is supposed to have.

Claims made this way never leave a hole, which is why stopping at the first free place is enough
to conclude that one's own claim is not further back (`claim_took_not_owner`).  `Packed` is that
property of a page, and taking a place preserves it.
-/

namespace Autobackup

/-- The outcome of a walk over a page. -/
inductive Claim (α : Type)
  /-- A place of the claimant's own. -/
  | found (place : α)
  /-- The first free place, and the page on which it is taken. -/
  | took (place : α) (page : List α)
  /-- All places belong to others. -/
  | full
  /-- The page ended early. -/
  | short
  deriving DecidableEq, Repr

namespace Claim

/-- The outcome on a page with one more place in front. -/
def cons {α : Type} (first : α) : Claim α → Claim α
  | found place => found place
  | took place page => took place (first :: page)
  | full => full
  | short => short

end Claim

section

variable {α υ : Type} [DecidableEq υ] (owner : α → Option υ) (mark : α → α) (u : υ)

/-- Look at up to `n` places, for one owned by `u` or else the first free one. -/
def claim : ℕ → List α → Claim α
  | 0, _ => .full
  | _ + 1, [] => .short
  | n + 1, place :: page =>
      match owner place with
      | some v => if v = u then .found place else (claim n page).cons place
      | none => .took place (mark place :: page)

/-- No free place comes before a claimed one. -/
def Packed (page : List α) : Prop :=
  page.Pairwise fun a b => owner b ≠ none → owner a ≠ none

/-- No owner has two places. -/
def OncePerOwner (page : List α) : Prop :=
  page.Pairwise fun a b => owner a ≠ none → owner a ≠ owner b

variable {owner mark u}

lemma claim_cons {n : ℕ} {place : α} {page : List α} :
    claim owner mark u (n + 1) (place :: page) =
      match owner place with
      | some v => if v = u then .found place else (claim owner mark u n page).cons place
      | none => .took place (mark place :: page) := rfl

/-- A place is found only if it is there and one's own. -/
lemma claim_found {n : ℕ} {page : List α} {place : α}
    (h : claim owner mark u n page = .found place) : place ∈ page ∧ owner place = some u := by
  induction page generalizing n with
  | nil => cases n <;> simp [claim] at h
  | cons first page ih =>
      cases n with
      | zero => simp [claim] at h
      | succ n =>
          rw [claim_cons] at h
          cases hfirst : owner first with
          | none => simp [hfirst] at h
          | some v =>
              simp only [hfirst] at h
              split at h
              · next hv =>
                  obtain rfl := Claim.found.inj h
                  exact ⟨List.mem_cons_self, by rw [hfirst, hv]⟩
              · cases hrest : claim owner mark u n page with
                | found b =>
                    rw [hrest] at h
                    obtain rfl := Claim.found.inj h
                    obtain ⟨hmem, howner⟩ := ih hrest
                    exact ⟨List.mem_cons_of_mem _ hmem, howner⟩
                | took b p => rw [hrest] at h; cases h
                | full => rw [hrest] at h; cases h
                | short => rw [hrest] at h; cases h

/-- A place that is taken is one of the first `n`, was free, and everything before it belongs to
others. -/
lemma claim_took {n : ℕ} {page page' : List α} {place : α}
    (h : claim owner mark u n page = .took place page') :
    ∃ before after, page = before ++ place :: after ∧ page' = before ++ mark place :: after ∧
      owner place = none ∧ (∀ b ∈ before, ∃ v, owner b = some v ∧ v ≠ u) ∧
      before.length < n := by
  induction page generalizing n page' with
  | nil => cases n <;> simp [claim] at h
  | cons first page ih =>
      cases n with
      | zero => simp [claim] at h
      | succ n =>
          rw [claim_cons] at h
          cases hfirst : owner first with
          | none =>
              simp only [hfirst] at h
              obtain ⟨rfl, rfl⟩ := Claim.took.inj h
              exact ⟨[], page, rfl, rfl, hfirst, by simp, Nat.succ_pos n⟩
          | some v =>
              simp only [hfirst] at h
              split at h
              · cases h
              · next hv =>
                  cases hrest : claim owner mark u n page with
                  | took b p =>
                      rw [hrest] at h
                      obtain ⟨rfl, rfl⟩ := Claim.took.inj h
                      obtain ⟨before, after, rfl, rfl, hfree, hbefore, hlt⟩ := ih hrest
                      refine ⟨first :: before, after, rfl, rfl, hfree, ?_, by simpa using hlt⟩
                      intro c hc
                      rcases List.mem_cons.1 hc with rfl | hc
                      · exact ⟨v, hfirst, hv⟩
                      · exact hbefore c hc
                  | found b => rw [hrest] at h; cases h
                  | full => rw [hrest] at h; cases h
                  | short => rw [hrest] at h; cases h

/-- A page is full when its first `n` places belong to others. -/
lemma claim_full {n : ℕ} {page : List α} (h : claim owner mark u n page = .full) {i : ℕ} {b : α}
    (hi : i < n) (hb : page[i]? = some b) : ∃ v, owner b = some v ∧ v ≠ u := by
  induction page generalizing n i with
  | nil => simp at hb
  | cons first page ih =>
      obtain ⟨n, rfl⟩ : ∃ m, n = m + 1 := ⟨n - 1, by omega⟩
      rw [claim_cons] at h
      cases hfirst : owner first with
      | none => simp [hfirst] at h
      | some v =>
          simp only [hfirst] at h
          split at h
          · cases h
          · next hv =>
              cases i with
              | zero =>
                  rw [List.getElem?_cons_zero] at hb
                  obtain rfl := Option.some.inj hb
                  exact ⟨v, hfirst, hv⟩
              | succ i =>
                  rw [List.getElem?_cons_succ] at hb
                  cases hrest : claim owner mark u n page with
                  | full => exact ih hrest (by omega) hb
                  | found b => rw [hrest] at h; cases h
                  | took b p => rw [hrest] at h; cases h
                  | short => rw [hrest] at h; cases h

/-- On a packed page, whoever has to take a place owns none. -/
lemma claim_took_not_owner {n : ℕ} {page page' : List α} {place : α}
    (h : claim owner mark u n page = .took place page') (hpacked : Packed owner page) :
    ∀ b ∈ page, owner b ≠ some u := by
  obtain ⟨before, after, rfl, -, hfree, hbefore, -⟩ := claim_took h
  intro b hb
  rcases List.mem_append.1 hb with hb | hb
  · obtain ⟨v, hv, hne⟩ := hbefore b hb
    rw [hv]
    exact fun h => hne (Option.some.inj h)
  · rcases List.mem_cons.1 hb with rfl | hb
    · rw [hfree]
      simp
    · have hafter := (List.pairwise_cons.1 (List.pairwise_append.1 hpacked).2.1).1 b hb
      intro hown
      exact hafter (by rw [hown]; simp) hfree

lemma Packed.took {n : ℕ} {page page' : List α} {place : α} (hpacked : Packed owner page)
    (hmark : ∀ a, owner (mark a) = some u)
    (h : claim owner mark u n page = .took place page') : Packed owner page' := by
  obtain ⟨before, after, rfl, rfl, hfree, hbefore, -⟩ := claim_took h
  unfold Packed at hpacked ⊢
  rw [List.pairwise_append, List.pairwise_cons] at hpacked ⊢
  obtain ⟨hb, ⟨hcons, ha⟩, hcross⟩ := hpacked
  refine ⟨hb, ⟨fun b _ _ => by rw [hmark]; simp, ha⟩, ?_⟩
  intro a hain b _ _
  obtain ⟨v, hv, -⟩ := hbefore a hain
  rw [hv]
  simp

lemma OncePerOwner.took {n : ℕ} {page page' : List α} {place : α}
    (honce : OncePerOwner owner page) (hpacked : Packed owner page)
    (hmark : ∀ a, owner (mark a) = some u)
    (h : claim owner mark u n page = .took place page') : OncePerOwner owner page' := by
  have hnot := claim_took_not_owner h hpacked
  obtain ⟨before, after, rfl, rfl, hfree, hbefore, -⟩ := claim_took h
  unfold OncePerOwner at honce ⊢
  rw [List.pairwise_append, List.pairwise_cons] at honce ⊢
  obtain ⟨hb, ⟨hcons, ha⟩, hcross⟩ := honce
  refine ⟨hb, ⟨fun b hbin _ => ?_, ha⟩, ?_⟩
  · rw [hmark]
    exact fun heq => hnot b (List.mem_append_right _ (List.mem_cons_of_mem _ hbin)) heq.symm
  · intro a hain b hbin howned
    rcases List.mem_cons.1 hbin with rfl | hbin
    · rw [hmark]
      exact hnot a (List.mem_append_left _ hain)
    · exact hcross a hain b (List.mem_cons_of_mem _ hbin) howned

end

/-! ## Claimants of many names

So far one claimant `u` with one way to mark a place.  On a page in a store the claimants come
and go; `Takes` is what any one of them does to it. -/

section

variable {α υ ω : Type} [DecidableEq υ] (owner : α → Option υ) (name : ω → υ) (mark : ω → α → α)

/-- On `page'` somebody has taken a place of `page`. -/
def Takes (n : ℕ) (page page' : List α) : Prop :=
  ∃ w place, claim owner (mark w) (name w) n page = .took place page'

/-- None of the first `n` places is free. -/
def Exhausted (n : ℕ) (page : List α) : Prop :=
  ∀ i b, i < n → page[i]? = some b → owner b ≠ none

/-- Nothing behind the first `n` places is claimed. -/
def FreeBeyond (n : ℕ) (page : List α) : Prop :=
  ∀ i b, n ≤ i → page[i]? = some b → owner b = none

variable {owner name mark} {n : ℕ} {page page' : List α}

/-- Claimed places stay as they are. -/
lemma Takes.getElem?_of_claimed (h : Takes owner name mark n page page') {i : ℕ} {b : α}
    (hb : page[i]? = some b) (howned : owner b ≠ none) : page'[i]? = some b := by
  obtain ⟨w, place, hclaim⟩ := h
  obtain ⟨before, after, rfl, rfl, hfree, -, -⟩ := claim_took hclaim
  rcases Nat.lt_trichotomy i before.length with hlt | rfl | hgt
  · rw [List.getElem?_append_left hlt] at hb ⊢
    exact hb
  · rw [List.getElem?_append_right (Nat.le_refl _), Nat.sub_self, List.getElem?_cons_zero] at hb
    obtain rfl := Option.some.inj hb
    exact absurd hfree howned
  · obtain ⟨j, hj⟩ : ∃ j, i - before.length = j + 1 := ⟨i - before.length - 1, by omega⟩
    rw [List.getElem?_append_right (by omega), hj, List.getElem?_cons_succ] at hb ⊢
    exact hb

/-- What marking leaves alone is the same on both pages. -/
lemma Takes.map_eq {κ : Type} {f : α → κ} (hf : ∀ w a, f (mark w a) = f a)
    (h : Takes owner name mark n page page') : page'.map f = page.map f := by
  obtain ⟨w, place, hclaim⟩ := h
  obtain ⟨before, after, rfl, rfl, -⟩ := claim_took hclaim
  simp [hf]

/-- An exhausted page is final. -/
lemma Exhausted.not_takes (h : Exhausted owner n page) : ¬ Takes owner name mark n page page' := by
  rintro ⟨w, place, hclaim⟩
  obtain ⟨before, after, rfl, -, hfree, -, hlt⟩ := claim_took hclaim
  exact h before.length place hlt (by simp) hfree

end

section

variable {α υ : Type} [DecidableEq υ] {owner : α → Option υ} {mark : α → α} {u : υ} {n : ℕ}
  {page page' : List α} {place : α}

lemma exhausted_of_claim_full (h : claim owner mark u n page = .full) :
    Exhausted owner n page := by
  intro i b hi hb
  obtain ⟨v, hv, -⟩ := claim_full h hi hb
  rw [hv]
  simp

/-- Whoever finds the page full has no place on it at all. -/
lemma claim_full_not_owner (h : claim owner mark u n page = .full)
    (hbeyond : FreeBeyond owner n page) : ∀ b ∈ page, owner b ≠ some u := by
  intro b hb
  obtain ⟨i, hi⟩ := List.getElem?_of_mem hb
  rcases Nat.lt_or_ge i n with hlt | hge
  · obtain ⟨v, hv, hne⟩ := claim_full h hlt hi
    rw [hv]
    exact fun h => hne (Option.some.inj h)
  · rw [hbeyond i b hge hi]
    simp

/-- The places of the new page are those of the old one, and the one taken. -/
lemma mem_of_claim_took (h : claim owner mark u n page = .took place page') {b : α}
    (hb : b ∈ page') : b ∈ page ∨ b = mark place := by
  obtain ⟨before, after, rfl, rfl, -⟩ := claim_took h
  simp only [List.mem_append, List.mem_cons] at hb ⊢
  tauto

/-- The place taken is at the same position before and after. -/
lemma getElem?_claim_took (h : claim owner mark u n page = .took place page') :
    ∃ i : ℕ, page[i]? = some place ∧ page'[i]? = some (mark place) := by
  obtain ⟨before, after, rfl, rfl, -⟩ := claim_took h
  exact ⟨before.length, by simp, by simp⟩

lemma FreeBeyond.took (hbeyond : FreeBeyond owner n page)
    (h : claim owner mark u n page = .took place page') : FreeBeyond owner n page' := by
  obtain ⟨before, after, rfl, rfl, -, -, hlt⟩ := claim_took h
  intro i b hi hb
  refine hbeyond i b hi ?_
  obtain ⟨j, hj⟩ : ∃ j, i - before.length = j + 1 := ⟨i - before.length - 1, by omega⟩
  rw [List.getElem?_append_right (by omega), hj, List.getElem?_cons_succ] at hb ⊢
  exact hb

end

end Autobackup
