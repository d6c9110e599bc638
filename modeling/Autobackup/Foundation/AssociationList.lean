import Mathlib.Data.List.AList

/-!
# Association lists whose values are filtered and mapped

What Mathlib's `AList` lacks here: its values as a list, a map over them that may drop entries, and
what a predicate selects that only one key can satisfy.
-/

namespace Autobackup.AssociationList

variable {κ α : Type}

/-- The values, in the order of the entries. -/
def values (s : AList fun _ : κ => α) : List α := s.entries.map Sigma.snd

/-- Map the values, and drop the entries whose value has no image. -/
def filterMap (f : α → Option α) (s : AList fun _ : κ => α) : AList fun _ : κ => α where
  entries := s.entries.filterMap fun e => (f e.2).map (Sigma.mk e.1)
  nodupKeys := by
    have hkeys : List.Sublist (s.entries.filterMap fun e =>
        (f e.2).map (Sigma.mk (β := fun _ => α) e.1)).keys s.entries.keys := by
      induction s.entries with
      | nil => exact List.Sublist.slnil
      | cons e rest ih =>
          cases hf : f e.2 with
          | none =>
              rw [List.filterMap_cons_none (by simp [hf])]
              exact ih.cons _
          | some b =>
              rw [List.filterMap_cons_some (b := ⟨e.1, b⟩) (by simp [hf])]
              exact ih.cons_cons _
    exact s.keys_nodup.sublist hkeys

variable [DecidableEq κ] {s t : AList fun _ : κ => α} {a : κ} {p : α → Bool}

lemma mem_entries {b : α} : ⟨a, b⟩ ∈ s.entries ↔ s.lookup a = some b :=
  AList.mem_lookup_iff.symm

@[simp] lemma lookup_filterMap (f : α → Option α) :
    (filterMap f s).lookup a = (s.lookup a).bind f := by
  ext b
  have hmem : (filterMap f s).lookup a = some b ↔
      ∃ e ∈ s.entries, (f e.2).map (Sigma.mk (β := fun _ => α) e.1) = some ⟨a, b⟩ :=
    AList.mem_lookup_iff.trans List.mem_filterMap
  rw [hmem, Option.bind_eq_some_iff]
  constructor
  · rintro ⟨⟨a', c⟩, he, hf⟩
    obtain ⟨b', hb', heq⟩ := Option.map_eq_some_iff.1 hf
    cases heq
    exact ⟨c, mem_entries.1 he, hb'⟩
  · rintro ⟨c, hc, hf⟩
    exact ⟨⟨a, c⟩, mem_entries.2 hc, by simp [hf]⟩

@[simp] lemma lookup_union : (s ∪ t).lookup a = (s.lookup a).or (t.lookup a) := by
  by_cases ha : a ∈ s
  · rw [AList.lookup_union_left ha]
    obtain ⟨b, hb⟩ := Option.isSome_iff_exists.1 (AList.lookup_isSome.2 ha)
    rw [hb, Option.some_or]
  · rw [AList.lookup_union_right ha, AList.lookup_eq_none.2 ha, Option.none_or]

/-- A key that is new gets its value, and the others keep theirs. -/
lemma lookup_insert_iff {b : α} (h : s.lookup a = none) {a' : κ} {b' : α} :
    (s.insert a b).lookup a' = some b' ↔ a' = a ∧ b' = b ∨ s.lookup a' = some b' := by
  by_cases heq : a' = a
  · subst heq
    rw [AList.lookup_insert, h]
    simp [eq_comm]
  · rw [AList.lookup_insert_ne heq]
    simp [heq]

lemma mem_values {b : α} : b ∈ values s ↔ ∃ a, s.lookup a = some b := by
  rw [values, List.mem_map]
  constructor
  · rintro ⟨⟨a, c⟩, he, rfl⟩
    exact ⟨a, mem_entries.1 he⟩
  · rintro ⟨a, ha⟩
    exact ⟨⟨a, b⟩, mem_entries.2 ha, rfl⟩

lemma values_eq_nil : values s = [] ↔ ∀ a, s.lookup a = none := by
  rw [List.eq_nil_iff_forall_not_mem]
  constructor
  · intro h a
    by_contra hne
    obtain ⟨b, hb⟩ := Option.ne_none_iff_exists'.1 hne
    exact h b (mem_values.2 ⟨a, hb⟩)
  · intro h b hb
    obtain ⟨a, ha⟩ := mem_values.1 hb
    rw [h a] at ha
    cases ha

/-- What a predicate selects that only the value under `a` can satisfy. -/
lemma filter_values (hp : ∀ a' b, s.lookup a' = some b → p b → a' = a) :
    (values s).filter p = ((s.lookup a).filter p).toList := by
  obtain ⟨entries, hnodup⟩ := s
  change ∀ a' b, List.dlookup a' entries = some b → p b → a' = a at hp
  change (entries.map Sigma.snd).filter p = ((List.dlookup a entries).filter p).toList
  induction entries with
  | nil => rfl
  | cons e rest ih =>
      obtain ⟨a₁, b₁⟩ := e
      obtain ⟨hnotMem, hrest⟩ := List.nodupKeys_cons.1 hnodup
      have hlater := ih hrest fun a' b hb hpb => by
        refine hp a' b ?_ hpb
        have hne : a' ≠ a₁ := fun h => by
          rw [h, List.dlookup_eq_none.2 hnotMem] at hb
          cases hb
        rw [List.dlookup_cons_ne _ _ hne, hb]
      rw [List.map_cons]
      by_cases hpb : p b₁
      · obtain rfl := hp a₁ b₁ (List.dlookup_cons_eq _ _ _) hpb
        rw [List.filter_cons_of_pos hpb, hlater, List.dlookup_cons_eq,
          List.dlookup_eq_none.2 hnotMem, Option.filter_some_pos hpb]
        rfl
      · rw [List.filter_cons_of_neg hpb, hlater]
        by_cases ha : a = a₁
        · rw [ha, List.dlookup_cons_eq, List.dlookup_eq_none.2 hnotMem]
          rw [Option.filter_none, Option.filter_some_neg (Bool.eq_false_iff.2 hpb)]
        · rw [List.dlookup_cons_ne _ _ ha]

/-! ## One update for each entry -/

/-- Entries with distinct keys are gone through, and each of them determines what stands under its
key, or fails. -/
lemma exists_foldlM_entries {β : Type} (update : AList (fun _ : κ => α) → κ → β →
    Option (AList fun _ : κ => α)) {effect : β → Option α} {entries : List (Sigma fun _ : κ => β)}
    (hupdate : ∀ e ∈ entries, ∀ s, ∃ s', update s e.1 e.2 = some s' ∧
      ∀ a, s'.lookup a = if a = e.1 then effect e.2 else s.lookup a)
    (hnodup : entries.NodupKeys) (s : AList fun _ : κ => α) :
    ∃ s', entries.foldlM (fun s e => update s e.1 e.2) s = some s' ∧
      ∀ a, s'.lookup a = (entries.dlookup a).elim (s.lookup a) effect := by
  induction entries generalizing s with
  | nil => exact ⟨s, rfl, fun _ => rfl⟩
  | cons e rest ih =>
      obtain ⟨hnotMem, hrest⟩ := List.nodupKeys_cons.1 hnodup
      obtain ⟨s₁, hs₁, hlookup₁⟩ := hupdate e List.mem_cons_self s
      obtain ⟨s', hs', hlookup⟩ := ih (fun e' he' => hupdate e' (List.mem_cons_of_mem e he')) hrest
        s₁
      refine ⟨s', by rw [List.foldlM_cons, hs₁]; exact hs', fun a => ?_⟩
      rw [hlookup, hlookup₁]
      by_cases ha : a = e.1
      · rw [ha, List.dlookup_eq_none.2 hnotMem, List.dlookup_cons_eq, if_pos rfl]
        rfl
      · rw [List.dlookup_cons_ne _ _ ha, if_neg ha]

lemma lookup_foldl_entries {β : Type} (update : AList (fun _ : κ => α) → κ → β →
    AList fun _ : κ => α) {effect : β → Option α} {entries : List (Sigma fun _ : κ => β)}
    (hupdate : ∀ s k b a, (update s k b).lookup a = if a = k then effect b else s.lookup a)
    (hnodup : entries.NodupKeys) (s : AList fun _ : κ => α) :
    (entries.foldl (fun s e => update s e.1 e.2) s).lookup a =
      (entries.dlookup a).elim (s.lookup a) effect := by
  obtain ⟨s', hs', hlookup⟩ := exists_foldlM_entries (fun s k b => some (update s k b))
    (fun e _ s => ⟨_, rfl, hupdate s e.1 e.2⟩) hnodup s
  rw [← hlookup, ← Option.some.inj (List.foldlM_pure.symm.trans hs')]

/-- Keys are inserted with what a function gives for them. -/
lemma lookup_foldl_insert {keys : List κ} (f : κ → α) (s : AList fun _ : κ => α) :
    (keys.foldl (fun s key => s.insert key (f key)) s).lookup a =
      if a ∈ keys then some (f a) else s.lookup a := by
  induction keys generalizing s with
  | nil => rfl
  | cons key rest ih =>
      rw [List.foldl_cons, ih]
      by_cases ha : a = key
      · rw [ha, AList.lookup_insert, ite_self, if_pos List.mem_cons_self]
      · rw [AList.lookup_insert_ne ha]
        simp only [List.mem_cons, ha, false_or]

end Autobackup.AssociationList
