import Mathlib.Data.Fintype.EquivFin
import Mathlib.Data.List.Nodup
import Mathlib.Data.List.Sigma
import Mathlib.Logic.Relation

/-!
# Unfolding a graph

A graph is gone through depth first, without remembering where one has been: each edge puts out
something, and then its target is gone through.  So everything is put out once for each path to it
(`mem_trace`, `nodup_trace`), and one comes back if and only if no node that can be reached leads to
itself (`exists_trace_iff`).

The edges of a node have labels of their own, and so do the things that an edge puts out.
-/

namespace Autobackup.Unfolding

structure Edge (κ ι ε α : Type*) where
  label : κ
  outputs : List (ι × ε)
  target : α

variable {κ ι ε α : Type*}

/-- What is put out along the edges, with the path to it. -/
def traceEdges (trace : α → Option (List ((List κ × ι) × ε))) :
    List (Edge κ ι ε α) → Option (List ((List κ × ι) × ε))
  | [] => some []
  | e :: rest =>
      (trace e.target).bind fun inner => (traceEdges trace rest).map fun later =>
        e.outputs.map (fun o => (([e.label], o.1), o.2)) ++
          (inner.map (fun t => ((e.label :: t.1.1, t.1.2), t.2)) ++ later)

variable (edges : α → List (Edge κ ι ε α))

/-- Everything that is put out, if one comes back in time. -/
def trace : ℕ → α → Option (List ((List κ × ι) × ε))
  | 0, _ => none
  | fuel + 1, a => traceEdges (trace fuel) (edges a)

/-- It is put out at the end of this path. -/
inductive PutsOut (o : ε) : α → List κ → ι → Prop
  | here {a : α} {e : Edge κ ι ε α} {i : ι} (he : e ∈ edges a) (ho : (i, o) ∈ e.outputs) :
      PutsOut o a [e.label] i
  | further {a : α} {e : Edge κ ι ε α} {path : List κ} {i : ι} (he : e ∈ edges a)
      (h : PutsOut o e.target path i) : PutsOut o a (e.label :: path) i

def Leads (a b : α) : Prop := ∃ e ∈ edges a, e.target = b

variable {edges} {trace' : α → Option (List ((List κ × ι) × ε))} {es es' : List (Edge κ ι ε α)}
  {ts : List ((List κ × ι) × ε)} {fuel fuel' : ℕ} {a b : α}

lemma traceEdges_append : traceEdges trace' (es ++ es') = (traceEdges trace' es).bind fun first =>
    (traceEdges trace' es').map fun later => first ++ later := by
  induction es with
  | nil =>
      rw [List.nil_append, traceEdges, Option.bind_some]
      exact Option.map_id'.symm
  | cons e es ih =>
      rw [List.cons_append, traceEdges, traceEdges, ih]
      cases trace' e.target with
      | none => rfl
      | some inner =>
          cases traceEdges trace' es with
          | none => rfl
          | some first =>
              cases traceEdges trace' es' with
              | none => rfl
              | some later =>
                  simp only [Option.bind_some, Option.map_some, List.append_assoc]

lemma exists_of_traceEdges_cons {e : Edge κ ι ε α} (h : traceEdges trace' (e :: es) = some ts) :
    ∃ inner later, trace' e.target = some inner ∧ traceEdges trace' es = some later ∧
      ts = e.outputs.map (fun o => (([e.label], o.1), o.2)) ++
        (inner.map (fun t => ((e.label :: t.1.1, t.1.2), t.2)) ++ later) := by
  obtain ⟨inner, hinner, h⟩ := Option.bind_eq_some_iff.1 h
  obtain ⟨later, hlater, h⟩ := Option.map_eq_some_iff.1 h
  exact ⟨inner, later, hinner, hlater, h.symm⟩

/-- One comes back from all targets. -/
lemma exists_traceEdges_iff :
    (∃ ts, traceEdges trace' es = some ts) ↔ ∀ e ∈ es, ∃ ts, trace' e.target = some ts := by
  induction es with
  | nil => exact ⟨fun _ e he => absurd he List.not_mem_nil, fun _ => ⟨[], rfl⟩⟩
  | cons e es ih =>
      rw [List.forall_mem_cons, ← ih]
      constructor
      · rintro ⟨ts, h⟩
        obtain ⟨inner, later, hinner, hlater, -⟩ := exists_of_traceEdges_cons h
        exact ⟨⟨inner, hinner⟩, later, hlater⟩
      · rintro ⟨⟨inner, hinner⟩, later, hlater⟩
        exact ⟨_, by rw [traceEdges, hinner, hlater, Option.bind_some, Option.map_some]⟩

/-! ## Fuel -/

lemma traceEdges_mono {trace'' : α → Option (List ((List κ × ι) × ε))}
    (h : ∀ a ts, trace' a = some ts → trace'' a = some ts) (hts : traceEdges trace' es = some ts) :
    traceEdges trace'' es = some ts := by
  induction es generalizing ts with
  | nil => exact hts
  | cons e es ih =>
      obtain ⟨inner, later, hinner, hlater, rfl⟩ := exists_of_traceEdges_cons hts
      rw [traceEdges, h _ _ hinner, ih hlater]
      rfl

lemma trace_succ (h : trace edges fuel a = some ts) : trace edges (fuel + 1) a = some ts := by
  induction fuel generalizing a ts with
  | zero => exact absurd h (Option.some_ne_none ts).symm
  | succ fuel ih => exact traceEdges_mono (fun _ _ => ih) h

lemma trace_mono (hle : fuel ≤ fuel') (h : trace edges fuel a = some ts) :
    trace edges fuel' a = some ts := by
  induction hle with
  | refl => exact h
  | step _ ih => exact trace_succ ih

/-- The fuel that is enough for each one of some nodes is enough for all of them. -/
lemma exists_fuel (h : ∀ e ∈ es, ∃ fuel ts, trace edges fuel e.target = some ts) :
    ∃ fuel, ∀ e ∈ es, ∃ ts, trace edges fuel e.target = some ts := by
  induction es with
  | nil => exact ⟨0, fun e he => absurd he List.not_mem_nil⟩
  | cons e es ih =>
      obtain ⟨⟨fuel, ts, hfirst⟩, hrest⟩ := List.forall_mem_cons.1 h
      obtain ⟨fuel', hfuel'⟩ := ih hrest
      refine ⟨max fuel fuel', List.forall_mem_cons.2 ⟨⟨ts, ?_⟩, fun e he => ?_⟩⟩
      · exact trace_mono (le_max_left fuel fuel') hfirst
      · obtain ⟨ts, hts⟩ := hfuel' e he
        exact ⟨ts, trace_mono (le_max_right fuel fuel') hts⟩

/-! ## What is put out -/

lemma putsOut_iff {path : List κ} {i : ι} {o : ε} : PutsOut edges o a path i ↔ ∃ e ∈ edges a,
    path = [e.label] ∧ (i, o) ∈ e.outputs ∨
      ∃ rest, path = e.label :: rest ∧ PutsOut edges o e.target rest i := by
  constructor
  · intro hputs
    cases hputs with
    | here he ho => exact ⟨_, he, Or.inl ⟨rfl, ho⟩⟩
    | further he hfurther => exact ⟨_, he, Or.inr ⟨_, rfl, hfurther⟩⟩
  · rintro ⟨e, he, ⟨rfl, ho⟩ | ⟨rest, rfl, hfurther⟩⟩
    · exact .here he ho
    · exact .further he hfurther

lemma mem_traceEdges (h : traceEdges trace' es = some ts) {path : List κ} {i : ι} {o : ε} :
    ((path, i), o) ∈ ts ↔ ∃ e ∈ es, path = [e.label] ∧ (i, o) ∈ e.outputs ∨
      ∃ rest, path = e.label :: rest ∧ ∃ inner, trace' e.target = some inner ∧
        ((rest, i), o) ∈ inner := by
  induction es generalizing ts with
  | nil =>
      obtain rfl : [] = ts := Option.some.inj h
      constructor
      · exact fun hmem => absurd hmem List.not_mem_nil
      · rintro ⟨e, he, -⟩
        exact absurd he List.not_mem_nil
  | cons e es ih =>
      obtain ⟨inner, later, hinner, hlater, rfl⟩ := exists_of_traceEdges_cons h
      rw [List.mem_append, List.mem_append, ih hlater, List.exists_mem_cons_iff, ← or_assoc]
      refine or_congr (or_congr ?_ ?_) Iff.rfl
      · constructor
        · intro hmem
          obtain ⟨out, hout, heq⟩ := List.mem_map.1 hmem
          obtain ⟨hkey, rfl⟩ := Prod.mk.inj heq
          obtain ⟨rfl, rfl⟩ := Prod.mk.inj hkey
          exact ⟨rfl, hout⟩
        · rintro ⟨rfl, hout⟩
          exact List.mem_map.2 ⟨(i, o), hout, rfl⟩
      · constructor
        · intro hmem
          obtain ⟨t, ht, heq⟩ := List.mem_map.1 hmem
          obtain ⟨hkey, rfl⟩ := Prod.mk.inj heq
          obtain ⟨rfl, rfl⟩ := Prod.mk.inj hkey
          exact ⟨_, rfl, inner, hinner, ht⟩
        · rintro ⟨rest, rfl, inner', hinner', hmem⟩
          obtain rfl := Option.some.inj (hinner.symm.trans hinner')
          exact List.mem_map.2 ⟨((rest, i), o), hmem, rfl⟩

/-- **Everything is put out that stands at the end of a path**, and nothing else. -/
lemma mem_trace (h : trace edges fuel a = some ts) {path : List κ} {i : ι} {o : ε} :
    ((path, i), o) ∈ ts ↔ PutsOut edges o a path i := by
  induction fuel generalizing a ts path with
  | zero => exact absurd h (Option.some_ne_none ts).symm
  | succ fuel ih =>
      have hinner := fun e he => exists_traceEdges_iff.1 ⟨ts, h⟩ e he
      rw [mem_traceEdges h, putsOut_iff]
      constructor
      · rintro ⟨e, he, hlast | ⟨rest, hrest, inner, hin, hmem⟩⟩
        · exact ⟨e, he, Or.inl hlast⟩
        · exact ⟨e, he, Or.inr ⟨rest, hrest, (ih hin).1 hmem⟩⟩
      · rintro ⟨e, he, hlast | ⟨rest, hrest, hputs⟩⟩
        · exact ⟨e, he, Or.inl hlast⟩
        · obtain ⟨inner, hin⟩ := hinner e he
          exact ⟨e, he, Or.inr ⟨rest, hrest, inner, hin, (ih hin).2 hputs⟩⟩

lemma PutsOut.ne_nil {path : List κ} {i : ι} {o : ε} (h : PutsOut edges o a path i) :
    path ≠ [] := by
  cases h with
  | here _ _ => exact List.cons_ne_nil _ _
  | further _ _ => exact List.cons_ne_nil _ _

/-- The labels tell the edges apart, and what they put out. -/
structure Labelled (es : List (Edge κ ι ε α)) : Prop where
  edges : (es.map Edge.label).Nodup
  outputs : ∀ e ∈ es, (e.outputs.map Prod.fst).Nodup

/-- Labels that tell the positions apart that they come from. -/
lemma nodup_flatMap_zipIdx {β γ : Type*} {xs : List β} {f : β × ℕ → List γ} (index : γ → ℕ)
    (h : ∀ x ∈ xs.zipIdx, (f x).Nodup ∧ ∀ y ∈ f x, index y = x.2) :
    (xs.zipIdx.flatMap f).Nodup := by
  refine List.nodup_flatMap.2 ⟨fun x hx => (h x hx).1, ?_⟩
  have hindexes := List.pairwise_map.1 (List.nodup_zipIdx_map_snd xs)
  refine hindexes.imp_of_mem fun {x x'} hx hx' hne y hy hy' => hne ?_
  exact ((h x hx).2 y hy).symm.trans ((h x' hx').2 y hy')

lemma nodup_traceEdges (hes : Labelled es)
    (hinner : ∀ e ∈ es, ∀ inner, trace' e.target = some inner →
      (inner.map Prod.fst).Nodup ∧ ∀ t ∈ inner, t.1.1 ≠ [])
    (h : traceEdges trace' es = some ts) : (ts.map Prod.fst).Nodup := by
  induction es generalizing ts with
  | nil =>
      obtain rfl : [] = ts := Option.some.inj h
      exact List.nodup_nil
  | cons e es ih =>
      obtain ⟨inner, later, hin, hlater, rfl⟩ := exists_of_traceEdges_cons h
      obtain ⟨hlabel, hlabels⟩ := List.nodup_cons.1 hes.edges
      obtain ⟨houtputs, houtputs'⟩ := List.forall_mem_cons.1 hes.outputs
      obtain ⟨hhere, hothers⟩ := List.forall_mem_cons.1 hinner
      obtain ⟨hnodup, hne⟩ := hhere inner hin
      have hfirst : ((e.outputs.map fun o => (([e.label], o.1), o.2)).map Prod.fst).Nodup := by
        have heq : (e.outputs.map fun o => (([e.label], o.1), o.2)).map Prod.fst =
            (e.outputs.map Prod.fst).map fun i => ([e.label], i) := by
          rw [List.map_map, List.map_map]
          rfl
        rw [heq]
        exact houtputs.map fun i i' heq => (Prod.mk.inj heq).2
      have hsecond : ((inner.map fun t => ((e.label :: t.1.1, t.1.2), t.2)).map
          Prod.fst).Nodup := by
        have heq : (inner.map fun t => ((e.label :: t.1.1, t.1.2), t.2)).map Prod.fst =
            (inner.map Prod.fst).map fun key => (e.label :: key.1, key.2) := by
          rw [List.map_map, List.map_map]
          rfl
        rw [heq]
        refine hnodup.map fun key key' heq => ?_
        obtain ⟨hpath, hi⟩ := Prod.mk.inj heq
        exact Prod.ext (List.cons.inj hpath).2 hi
      -- A later path starts with another label.
      have hhead : ∀ t ∈ later, t.1.1.head? ≠ some e.label := by
        rintro ⟨⟨path, i⟩, o⟩ ht heq
        apply hlabel
        obtain ⟨e', he', ⟨rfl, -⟩ | ⟨rest, rfl, -⟩⟩ := (mem_traceEdges hlater).1 ht
        · exact Option.some.inj heq ▸ List.mem_map_of_mem he'
        · exact Option.some.inj heq ▸ List.mem_map_of_mem he'
      rw [List.map_append, List.map_append]
      refine hfirst.append (hsecond.append (ih ⟨hlabels, houtputs'⟩ hothers hlater) ?_) ?_
      · intro key hkey hkey'
        obtain ⟨t', ht', rfl⟩ := List.mem_map.1 hkey'
        rw [List.map_map] at hkey
        obtain ⟨t, -, heq⟩ := List.mem_map.1 hkey
        exact hhead t' ht' (heq ▸ rfl)
      · intro key hkey hkey'
        rw [List.map_map] at hkey
        obtain ⟨out, -, rfl⟩ := List.mem_map.1 hkey
        rcases List.mem_append.1 hkey' with hkey' | hkey'
        · rw [List.map_map] at hkey'
          obtain ⟨t, ht, heq⟩ := List.mem_map.1 hkey'
          exact hne t ht (List.cons.inj (Prod.mk.inj heq).1).2
        · obtain ⟨t', ht', heq⟩ := List.mem_map.1 hkey'
          exact hhead t' ht' (heq ▸ rfl)

/-- **Each path is gone once.** -/
lemma nodup_trace (hedges : ∀ a, Labelled (edges a)) (h : trace edges fuel a = some ts) :
    (ts.map Prod.fst).Nodup := by
  induction fuel generalizing a ts with
  | zero => exact absurd h (Option.some_ne_none ts).symm
  | succ fuel ih =>
      refine nodup_traceEdges (hedges a) (fun e _ inner hinner => ⟨ih hinner, ?_⟩) h
      intro t ht
      exact ((mem_trace hinner).1 ht).ne_nil

/-! ## Coming back -/

lemma acc_of_trace (h : trace edges fuel a = some ts) : Acc (fun b a => Leads edges a b) a := by
  induction fuel generalizing a ts with
  | zero => exact absurd h (Option.some_ne_none ts).symm
  | succ fuel ih =>
      constructor
      rintro b ⟨e, he, rfl⟩
      obtain ⟨inner, hinner⟩ := exists_traceEdges_iff.1 ⟨ts, h⟩ e he
      exact ih hinner

lemma exists_trace_of_acc (h : Acc (fun b a => Leads edges a b) a) :
    ∃ fuel ts, trace edges fuel a = some ts := by
  induction h with
  | intro a _ ih =>
      obtain ⟨fuel, hfuel⟩ := exists_fuel fun e he => ih e.target ⟨e, he, rfl⟩
      obtain ⟨ts, hts⟩ := exists_traceEdges_iff.2 hfuel
      exact ⟨fuel + 1, ts, hts⟩

variable {r : α → α → Prop}

lemma not_transGen_of_acc (h : Acc (fun b a => r a b) a) : ¬ Relation.TransGen r a a := by
  induction h with
  | intro a _ ih =>
      intro hcycle
      obtain ⟨b, hfirst, hback⟩ := Relation.TransGen.head'_iff.1 hcycle
      exact ih b hfirst (Relation.TransGen.tail' hback hfirst)

lemma acc_of_reflTransGen (h : Acc (fun b a => r a b) a) (hreach : Relation.ReflTransGen r a b) :
    Acc (fun b a => r a b) b := by
  induction hreach with
  | refl => exact h
  | tail _ hlast ih => exact ih.inv hlast

/-- Without a cycle among the nodes that can be reached, of which there are finitely many. -/
lemma acc_of_finite (hfinite : {b | Relation.ReflTransGen r a b}.Finite)
    (h : ∀ b, Relation.ReflTransGen r a b → ¬ Relation.TransGen r b b) :
    Acc (fun b a => r a b) a := by
  have : Finite {b // Relation.ReflTransGen r a b} := hfinite
  let s : {b // Relation.ReflTransGen r a b} → {b // Relation.ReflTransGen r a b} → Prop :=
    fun b c => Relation.TransGen r c.1 b.1
  have : IsTrans _ s := ⟨fun _ _ _ hb hc => hc.trans hb⟩
  have : Std.Irrefl s := ⟨fun b => h b.1 b.2⟩
  have hwf : WellFounded s := Finite.wellFounded_of_trans_of_irrefl s
  have hacc : ∀ b : {b // Relation.ReflTransGen r a b}, Acc (fun b a => r a b) b.1 := by
    intro b
    induction b using hwf.induction with
    | h b ih =>
        constructor
        intro c hc
        exact ih ⟨c, b.2.tail hc⟩ (Relation.TransGen.single hc)
  exact hacc ⟨a, .refl⟩

/-- **One comes back if and only if no node that can be reached leads to itself.** -/
lemma exists_trace_iff (hfinite : {b | Relation.ReflTransGen (Leads edges) a b}.Finite) :
    (∃ fuel ts, trace edges fuel a = some ts) ↔
      ∀ b, Relation.ReflTransGen (Leads edges) a b → ¬ Relation.TransGen (Leads edges) b b := by
  constructor
  · rintro ⟨fuel, ts, h⟩ b hb
    exact not_transGen_of_acc (acc_of_reflTransGen (acc_of_trace h) hb)
  · exact fun h => exists_trace_of_acc (acc_of_finite hfinite h)

end Autobackup.Unfolding
