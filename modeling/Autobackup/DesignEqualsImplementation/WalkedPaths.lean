import Autobackup.DesignEqualsImplementation.ConnectStatements
import Mathlib.Data.Set.Finite.Basic

/-!
# The paths that are walked

The walk over the use cases unfolds a graph (`processUseCases_eq`), whose edges put out the connect
statements.  So it comes back unless a slot leads to itself, and states what is reached as often as
there are paths to it.

The walk has no list of what it has seen, so paths are the right notion and not reachability.  Its
stack depth is left out: that it comes back means that the recursion is finite.
-/

namespace Autobackup.DesignEqualsImplementation

open QString Unfolding

/-- A class and a statement in its constructor. -/
abbrev PlacedStatement := DesignClassAddress × Text

abbrev TracedStatement := (List WalkStep × ConnectPlace) × PlacedStatement

abbrev WalkEdge := Edge WalkStep ConnectPlace PlacedStatement WalkNode

def appendAll (traced : List TracedStatement) (statements : ConnectStatements) :
    ConnectStatements :=
  traced.foldl (fun statements t =>
    appendConnectStatementToClassInitializationSequence statements t.2.1 t.2.2) statements

namespace WalkStep

def statementIndex : WalkStep → ℕ
  | invocation i | connection i _ _ => i
  | useCase _ => 0

def activationIndex : WalkStep → ℕ
  | connection _ j _ => j
  | _ => 0

def slotIndex : WalkStep → ℕ
  | connection _ _ k => k
  | _ => 0

end WalkStep

variable {traced traced' : List TracedStatement} {statements : ConnectStatements}
  {c : DesignClassAddress}

lemma appendAll_append :
    appendAll (traced ++ traced') statements = appendAll traced' (appendAll traced statements) :=
  List.foldl_append

lemma appendAll_apply : appendAll traced statements c =
    statements c ++ (traced.filter (·.2.1 = c)).map (·.2.2) := by
  induction traced generalizing statements with
  | nil => exact (List.append_nil _).symm
  | cons t traced ih =>
      rw [appendAll, List.foldl_cons]
      refine ih.trans ?_
      unfold appendConnectStatementToClassInitializationSequence
      by_cases h : t.2.1 = c
      · have hfilter : (t :: traced).filter (·.2.1 = c) = t :: traced.filter (·.2.1 = c) :=
          List.filter_cons_of_pos (decide_eq_true h)
        rw [hfilter, List.map_cons, ← h, Function.update_self, List.append_assoc,
          List.singleton_append]
      · have hfilter : (t :: traced).filter (·.2.1 = c) = traced.filter (·.2.1 = c) :=
          List.filter_cons_of_neg (mt of_decide_eq_true h)
        rw [hfilter, Function.update_of_ne (Ne.symm h)]

namespace DesignProject

variable (p : DesignProject)

/-- The object is a member, and not the root of the use case. -/
def memberOf (l : ClassLifeLineAddress) : Option NonFunctionMemberAddress :=
  match (p.classLifeLine l).instanceType with
  | .childMemberOfOtherClassLifeLine m => some m
  | .useCasesRootClassLifeLine => none

/-- The statement of a place, if there is one. -/
def output (d : SignalSlotConnection) : ConnectPlace → Option PlacedStatement
  | .sharedParent => (p.memberOf d.slotClassLifeLine).bind fun m' =>
      (p.memberOf d.signalClassLifeLine).bind fun m =>
        if (p.nonFunctionMember m').parentClass = (p.nonFunctionMember m).parentClass then
          some ((p.nonFunctionMember m').parentClass,
            generateRawConnectStatementWithEndingSemicolon (p.nonFunctionMember m).variableName
              (p.signalSignature d.signal) (p.nonFunctionMember m').variableName
              (p.slotSignature d.slot))
        else none
  | .signalsClass => (p.memberOf d.slotClassLifeLine).bind fun m' =>
      if m' ∈ p.nonFunctionMembers (p.classOf d.signalClassLifeLine) then
        some (p.classOf d.signalClassLifeLine,
          generateRawConnectStatementWithEndingSemicolon thisObject (p.signalSignature d.signal)
            (p.nonFunctionMember m').variableName (p.slotSignature d.slot))
      else none
  | .slotsClass => (p.memberOf d.signalClassLifeLine).bind fun m =>
      if m ∈ p.nonFunctionMembers (p.classOf d.slotClassLifeLine) then
        some (p.classOf d.slotClassLifeLine,
          generateRawConnectStatementWithEndingSemicolon (p.nonFunctionMember m).variableName
            (p.signalSignature d.signal) thisObject (p.slotSignature d.slot))
      else none

/-- The statements for a connection. -/
def outputs (d : SignalSlotConnection) : List (ConnectPlace × PlacedStatement) :=
  [ConnectPlace.sharedParent, .signalsClass, .slotsClass].filterMap fun place =>
    (p.output d place).map fun o => (place, o)

/-- The edge for a slot that is connected to a signal. -/
def connectionEdge (useCase : UseCaseAddress) (l : ClassLifeLineAddress)
    (signal : ClassSignalAddress) (i j : ℕ) (slot : SlotConnectedToSignal × ℕ) : WalkEdge where
  label := .connection i j slot.2
  outputs := p.outputs ⟨l, signal, p.classLifeLineAt useCase slot.1.1, slot.1.2⟩
  target := .slot useCase (p.classLifeLineAt useCase slot.1.1, slot.1.2)

def activationEdges (useCase : UseCaseAddress) (node : ClassLifeLineAddress × ClassSlotAddress)
    (signal : ClassSignalAddress) (i : ℕ) (activation : SignalSlotConnectionActivation × ℕ) :
    List WalkEdge :=
  if activation.1.IsOf node.1 node.2 i then
    activation.1.slotsAttachedToTheSignal.zipIdx.map
      (p.connectionEdge useCase node.1 signal i activation.2)
  else []

def statementEdges (useCase : UseCaseAddress) (node : ClassLifeLineAddress × ClassSlotAddress)
    (statement : (StatementAddress × Statement) × ℕ) : List WalkEdge :=
  match statement.1.2 with
  | .signalEmit signal =>
      (p.connections.activations useCase).zipIdx.flatMap
        (p.activationEdges useCase node signal statement.2)
  | .slotInvoke l s => [⟨.invocation statement.2, [], .slot useCase (l, s)⟩]
  | .chunkOfRawCppStatements _ => []

def edges : WalkNode → List WalkEdge
  | .project => p.useCases.map fun useCase =>
      ⟨.useCase useCase, [], .slot useCase (p.useCaseSlotEntryPoint useCase)⟩
  | .slot useCase node =>
      (p.connections.orderedListOfStatements node.2).zipIdx.flatMap (p.statementEdges useCase node)

end DesignProject

/-! ## The walk unfolds the graph -/

variable {trace' : WalkNode → Option (List TracedStatement)} {e : WalkEdge}

lemma map_traceEdges_singleton : (traceEdges trace' [e]).map (appendAll · statements) =
    (trace' e.target).map fun inner => appendAll inner (e.outputs.foldl (fun statements o =>
      appendConnectStatementToClassInitializationSequence statements o.2.1 o.2.2) statements) := by
  cases h : trace' e.target with
  | none =>
      rw [traceEdges, h]
      rfl
  | some inner =>
      rw [traceEdges, h]
      show some (appendAll (e.outputs.map _ ++ (inner.map _ ++ [])) statements) = some _
      rw [List.append_nil, appendAll_append]
      simp only [appendAll, List.foldl_map]

/-- A loop whose bodies are edges. -/
lemma foldlM_eq_traceEdges {β : Type*} {xs : List β} {bodies : β → List WalkEdge}
    {body : ConnectStatements → β → Option ConnectStatements} (h : ∀ x statements,
      body statements x = (traceEdges trace' (bodies x)).map (appendAll · statements))
    (statements : ConnectStatements) : xs.foldlM body statements =
      (traceEdges trace' (xs.flatMap bodies)).map (appendAll · statements) := by
  induction xs generalizing statements with
  | nil => rfl
  | cons x xs ih =>
      rw [List.flatMap_cons, List.foldlM_cons, h x, traceEdges_append]
      cases traceEdges trace' (bodies x) with
      | none => rfl
      | some first =>
          refine (ih _).trans ?_
          rw [Option.bind_some, Option.map_map]
          exact congrArg (Option.map · _) (funext fun later => appendAll_append.symm)

lemma foldlM_eq_foldlM_zipIdx {β : Type*} {xs : List β}
    {body : ConnectStatements → β → Option ConnectStatements} :
    xs.foldlM body statements =
      xs.zipIdx.foldlM (fun statements x => body statements x.1) statements := by
  conv_lhs => rw [← List.zipIdx_map_fst 0 xs]
  exact List.foldlM_map

namespace DesignProject

variable {p : DesignProject} {useCase : UseCaseAddress} {fuel : ℕ}
  {node : ClassLifeLineAddress × ClassSlotAddress}

lemma connectSlot_eq {l l' : ClassLifeLineAddress} {signal : ClassSignalAddress}
    {s : ClassSlotAddress} : p.connectSlot l signal l' s statements =
      (p.outputs ⟨l, signal, l', s⟩).foldl (fun statements o =>
        appendConnectStatementToClassInitializationSequence statements o.2.1 o.2.2)
          statements := by
  have hfold : ∀ (places : List ConnectPlace) (statements : ConnectStatements),
      (places.filterMap fun place => (p.output ⟨l, signal, l', s⟩ place).map
        fun o => (place, o)).foldl (fun statements o =>
          appendConnectStatementToClassInitializationSequence statements o.2.1 o.2.2) statements =
        places.foldl (fun statements place => (p.output ⟨l, signal, l', s⟩ place).elim statements
          fun o => appendConnectStatementToClassInitializationSequence statements o.1 o.2)
            statements := by
    intro places statements
    induction places generalizing statements with
    | nil => rfl
    | cons place places ih =>
        rw [List.filterMap_cons, List.foldl_cons]
        cases p.output ⟨l, signal, l', s⟩ place with
        | none => exact ih statements
        | some o => exact ih _
  rw [outputs, hfold]
  simp only [List.foldl_cons, List.foldl_nil, output, memberOf, connectSlot]
  cases (p.classLifeLine l').instanceType with
  | useCasesRootClassLifeLine =>
      cases (p.classLifeLine l).instanceType with
      | useCasesRootClassLifeLine => rfl
      | childMemberOfOtherClassLifeLine m =>
          dsimp only [Option.bind_none, Option.bind_some, Option.elim_none]
          split <;> rfl
  | childMemberOfOtherClassLifeLine m' =>
      cases (p.classLifeLine l).instanceType with
      | useCasesRootClassLifeLine =>
          dsimp only [Option.bind_none, Option.bind_some, Option.elim_none]
          split <;> rfl
      | childMemberOfOtherClassLifeLine m =>
          dsimp only [Option.bind_some]
          split <;> split <;> split <;> rfl

lemma recursivelyWalkSlot_eq : p.recursivelyWalkSlot useCase fuel node statements =
    (trace p.edges fuel (.slot useCase node)).map (appendAll · statements) := by
  induction fuel generalizing node statements with
  | zero => rfl
  | succ fuel ih =>
      obtain ⟨l, s⟩ := node
      have hbody : ∀ (x : (StatementAddress × Statement) × ℕ) (statements : ConnectStatements),
          (match x.1.2 with
            | .signalEmit signalToEmit =>
                (p.connections.activations useCase).foldlM (fun statements activation =>
                  if activation.IsOf l s x.2 then
                    activation.slotsAttachedToTheSignal.foldlM (fun statements slot =>
                      p.recursivelyWalkSlot useCase fuel
                        (p.classLifeLineAt useCase slot.1, slot.2)
                        (p.connectSlot l signalToEmit (p.classLifeLineAt useCase slot.1) slot.2
                          statements)) statements
                  else some statements) statements
            | .slotInvoke l' slotToInvoke =>
                p.recursivelyWalkSlot useCase fuel (l', slotToInvoke) statements
            | .chunkOfRawCppStatements _ => some statements) =
          (traceEdges (trace p.edges fuel) (p.statementEdges useCase (l, s) x)).map
            (appendAll · statements) := by
        rintro ⟨⟨address, statement⟩, i⟩ statements
        cases statement with
        | chunkOfRawCppStatements _ => rfl
        | slotInvoke l' s' =>
            rw [statementEdges, map_traceEdges_singleton]
            exact ih
        | signalEmit signal =>
            refine foldlM_eq_foldlM_zipIdx.trans (foldlM_eq_traceEdges ?_ statements)
            rintro ⟨activation, j⟩ statements
            unfold activationEdges
            dsimp only
            split
            · rw [List.map_eq_flatMap]
              refine foldlM_eq_foldlM_zipIdx.trans (foldlM_eq_traceEdges ?_ statements)
              rintro ⟨slot, k⟩ statements
              rw [map_traceEdges_singleton, ih, connectSlot_eq]
              rfl
            · rfl
      exact foldlM_eq_traceEdges hbody statements

/-- **All use cases together**, with one more round for the project itself. -/
lemma processUseCases_eq : p.processUseCases fuel =
    (trace p.edges (fuel + 1) .project).map (appendAll · fun _ => []) := by
  have hbody : ∀ useCase statements, p.processUseCase fuel statements useCase =
      (traceEdges (trace p.edges fuel) [⟨.useCase useCase, [],
        .slot useCase (p.useCaseSlotEntryPoint useCase)⟩]).map (appendAll · statements) := by
    intro useCase statements
    rw [map_traceEdges_singleton]
    exact recursivelyWalkSlot_eq
  refine (foldlM_eq_traceEdges hbody _).trans ?_
  rw [← List.map_eq_flatMap]
  rfl

/-! ## The edges -/

variable {d : SignalSlotConnection} {place : ConnectPlace} {text : Text}

lemma memberOf_eq_some {l : ClassLifeLineAddress} {m : NonFunctionMemberAddress} :
    p.memberOf l = some m ↔
      (p.classLifeLine l).instanceType = .childMemberOfOtherClassLifeLine m := by
  unfold memberOf
  cases (p.classLifeLine l).instanceType with
  | useCasesRootClassLifeLine => exact ⟨fun h => absurd h (Option.some_ne_none m).symm, nofun⟩
  | childMemberOfOtherClassLifeLine m' =>
      exact ⟨fun h => Option.some.inj h ▸ rfl, fun h => by injection h with h; rw [h]⟩

lemma output_eq_some : p.output d place = some (c, text) ↔ p.States d place c text := by
  constructor
  · intro h
    cases place with
    | sharedParent =>
        obtain ⟨m', hm', h⟩ := Option.bind_eq_some_iff.1 h
        obtain ⟨m, hm, h⟩ := Option.bind_eq_some_iff.1 h
        split at h
        · next hparent =>
            obtain ⟨rfl, rfl⟩ := Prod.mk.inj (Option.some.inj h)
            have hm' := memberOf_eq_some.1 hm'
            have hm := memberOf_eq_some.1 hm
            exact .sharedParent ⟨hm, (p.mem_nonFunctionMembers _ _ hm _).2 hparent.symm⟩
              ⟨hm', (p.mem_nonFunctionMembers _ _ hm' _).2 rfl⟩
        · exact absurd h (Option.some_ne_none _).symm
    | signalsClass =>
        obtain ⟨m', hm', h⟩ := Option.bind_eq_some_iff.1 h
        split at h
        · next hmem =>
            obtain ⟨rfl, rfl⟩ := Prod.mk.inj (Option.some.inj h)
            exact .signalsClass ⟨memberOf_eq_some.1 hm', hmem⟩
        · exact absurd h (Option.some_ne_none _).symm
    | slotsClass =>
        obtain ⟨m, hm, h⟩ := Option.bind_eq_some_iff.1 h
        split at h
        · next hmem =>
            obtain ⟨rfl, rfl⟩ := Prod.mk.inj (Option.some.inj h)
            exact .slotsClass ⟨memberOf_eq_some.1 hm, hmem⟩
        · exact absurd h (Option.some_ne_none _).symm
  · intro h
    cases h with
    | sharedParent signal slot =>
        have hsignal := (p.mem_nonFunctionMembers _ _ signal.1 _).1 signal.2
        have hslot := (p.mem_nonFunctionMembers _ _ slot.1 _).1 slot.2
        rw [output, memberOf_eq_some.2 signal.1, memberOf_eq_some.2 slot.1, Option.bind_some,
          Option.bind_some, if_pos (hslot.trans hsignal.symm), hslot]
    | signalsClass slot =>
        rw [output, memberOf_eq_some.2 slot.1, Option.bind_some, if_pos slot.2]
    | slotsClass signal =>
        rw [output, memberOf_eq_some.2 signal.1, Option.bind_some, if_pos signal.2]

lemma mem_outputs : (place, c, text) ∈ p.outputs d ↔ p.States d place c text := by
  rw [← output_eq_some, outputs, List.mem_filterMap]
  constructor
  · rintro ⟨place', -, h⟩
    obtain ⟨o, ho, heq⟩ := Option.map_eq_some_iff.1 h
    obtain ⟨rfl, rfl⟩ := Prod.mk.inj heq
    exact ho
  · intro h
    refine ⟨place, ?_, Option.map_eq_some_iff.2 ⟨(c, text), h, rfl⟩⟩
    cases place <;> decide

lemma nodup_outputs : ((p.outputs d).map Prod.fst).Nodup := by
  have hsublist : ∀ places : List ConnectPlace, ((places.filterMap fun place =>
      (p.output d place).map fun o => (place, o)).map Prod.fst).Sublist places := by
    intro places
    induction places with
    | nil => exact List.Sublist.refl _
    | cons place places ih =>
        rw [List.filterMap_cons]
        cases p.output d place with
        | none => exact ih.cons place
        | some o => exact ih.cons_cons place
  exact (hsublist _).nodup (by decide)

lemma mem_edges_slot : e ∈ p.edges (.slot useCase node) ↔
    (∃ i address l s,
      (p.connections.orderedListOfStatements node.2)[i]? = some (address, .slotInvoke l s) ∧
        e = ⟨.invocation i, [], .slot useCase (l, s)⟩) ∨
    ∃ i j k d, p.ConnectsAt useCase node i j k d ∧
      e = ⟨.connection i j k, p.outputs d, .slot useCase (d.slotClassLifeLine, d.slot)⟩ := by
  constructor
  · intro he
    obtain ⟨⟨⟨address, statement⟩, i⟩, hstatement, he⟩ := List.mem_flatMap.1 he
    have hstatement := List.mem_zipIdx_iff_getElem?.1 hstatement
    cases statement with
    | chunkOfRawCppStatements _ => exact absurd he List.not_mem_nil
    | slotInvoke l s => exact Or.inl ⟨i, address, l, s, hstatement, List.mem_singleton.1 he⟩
    | signalEmit signal =>
        obtain ⟨⟨activation, j⟩, hactivation, he⟩ := List.mem_flatMap.1 he
        unfold activationEdges at he
        split at he
        · next hkeys =>
            obtain ⟨⟨slot, k⟩, hslot, rfl⟩ := List.mem_map.1 he
            refine Or.inr ⟨i, j, k, ⟨node.1, signal, p.classLifeLineAt useCase slot.1, slot.2⟩,
              ⟨rfl, ⟨address, hstatement⟩, activation, ?_, hkeys, slot.1, ?_, rfl⟩, rfl⟩
            · exact List.mem_zipIdx_iff_getElem?.1 hactivation
            · exact List.mem_zipIdx_iff_getElem?.1 hslot
        · exact absurd he List.not_mem_nil
  · rintro (⟨i, address, l, s, hstatement, rfl⟩ | ⟨i, j, k, d, hconnects, rfl⟩)
    · exact List.mem_flatMap.2 ⟨((address, .slotInvoke l s), i),
        List.mem_zipIdx_iff_getElem?.2 hstatement, List.mem_singleton_self _⟩
    · obtain ⟨l, signal, l', s'⟩ := d
      obtain ⟨rfl, ⟨address, hstatement⟩, activation, hactivation, hkeys, index, hslot, rfl⟩ :=
        hconnects
      refine List.mem_flatMap.2 ⟨((address, .signalEmit signal), i),
        List.mem_zipIdx_iff_getElem?.2 hstatement, List.mem_flatMap.2 ⟨(activation, j),
          List.mem_zipIdx_iff_getElem?.2 hactivation, ?_⟩⟩
      rw [activationEdges, if_pos hkeys]
      exact List.mem_map.2 ⟨((index, s'), k), List.mem_zipIdx_iff_getElem?.2 hslot, rfl⟩

lemma leadsBy_iff {a b : WalkNode} {step : WalkStep} :
    p.LeadsBy a step b ↔ ∃ e ∈ p.edges a, e.label = step ∧ e.target = b := by
  constructor
  · intro h
    cases h with
    | useCase h => exact ⟨_, List.mem_map_of_mem h, rfl, rfl⟩
    | invocation h => exact ⟨_, mem_edges_slot.2 (Or.inl ⟨_, _, _, _, h, rfl⟩), rfl, rfl⟩
    | connection h => exact ⟨_, mem_edges_slot.2 (Or.inr ⟨_, _, _, _, h, rfl⟩), rfl, rfl⟩
  · rintro ⟨e, he, rfl, rfl⟩
    cases a with
    | project =>
        obtain ⟨useCase, huseCase, rfl⟩ := List.mem_map.1 he
        exact .useCase huseCase
    | slot useCase node =>
        rcases mem_edges_slot.1 he with
          ⟨i, address, l, s, hstatement, rfl⟩ | ⟨i, j, k, d, hconnects, rfl⟩
        · exact .invocation hstatement
        · exact .connection hconnects

lemma leadsTo_eq : p.LeadsTo = Leads p.edges := by
  funext a b
  refine propext ⟨?_, ?_⟩
  · rintro ⟨step, h⟩
    obtain ⟨e, he, -, htarget⟩ := leadsBy_iff.1 h
    exact ⟨e, he, htarget⟩
  · rintro ⟨e, he, htarget⟩
    exact ⟨e.label, leadsBy_iff.2 ⟨e, he, rfl, htarget⟩⟩

/-- What is put out at a slot is stated for its connections. -/
lemma mem_edges_outputs {a : WalkNode} (he : e ∈ p.edges a) (ho : (place, c, text) ∈ e.outputs) :
    ∃ useCase node i j k d, a = .slot useCase node ∧ e.label = .connection i j k ∧
      p.ConnectsAt useCase node i j k d ∧ p.States d place c text := by
  cases a with
  | project =>
      obtain ⟨useCase, -, rfl⟩ := List.mem_map.1 he
      exact absurd ho List.not_mem_nil
  | slot useCase node =>
      rcases mem_edges_slot.1 he with
        ⟨i, address, l, s, -, rfl⟩ | ⟨i, j, k, d, hconnects, rfl⟩
      · exact absurd ho List.not_mem_nil
      · exact ⟨useCase, node, i, j, k, d, rfl, rfl, hconnects, mem_outputs.1 ho⟩

lemma isStatedAlong_iff {a : WalkNode} {path : List WalkStep} :
    p.IsStatedAlong c text a path place ↔ PutsOut p.edges (c, text) a path place := by
  constructor
  · intro h
    induction h with
    | here h hstates =>
        exact .here (mem_edges_slot.2 (Or.inr ⟨_, _, _, _, h, rfl⟩)) (mem_outputs.2 hstates)
    | further h _ ih =>
        obtain ⟨e, he, rfl, rfl⟩ := leadsBy_iff.1 h
        exact .further he ih
  · intro h
    induction h with
    | here he ho =>
        obtain ⟨useCase, node, i, j, k, d, rfl, hlabel, hconnects, hstates⟩ :=
          mem_edges_outputs he ho
        rw [hlabel]
        exact .here hconnects hstates
    | further he _ ih => exact .further (leadsBy_iff.2 ⟨_, he, rfl, rfl⟩) ih

/-! ## The labels -/

lemma labelled_edges (a : WalkNode) : Labelled (p.edges a) := by
  constructor
  · cases a with
    | project =>
        rw [edges, List.map_map]
        exact p.nodup_useCases.map fun useCase useCase' h => WalkStep.useCase.inj h
    | slot useCase node =>
        rw [edges, List.map_flatMap]
        refine nodup_flatMap_zipIdx WalkStep.statementIndex fun ⟨⟨address, statement⟩, i⟩ _ => ?_
        cases statement with
        | chunkOfRawCppStatements _ => exact ⟨List.nodup_nil, fun _ h => absurd h List.not_mem_nil⟩
        | slotInvoke l s =>
            refine ⟨List.nodup_singleton _, fun step hstep => ?_⟩
            rw [List.mem_singleton.1 hstep]
            rfl
        | signalEmit signal =>
            rw [statementEdges, List.map_flatMap]
            have hlabels : ∀ activation, (p.activationEdges useCase node signal i activation).map
                Edge.label = if activation.1.IsOf node.1 node.2 i then
                  activation.1.slotsAttachedToTheSignal.zipIdx.flatMap
                    fun slot => [.connection i activation.2 slot.2] else [] := by
              intro activation
              unfold activationEdges
              split
              · rw [List.map_map, ← List.map_eq_flatMap]
                rfl
              · rfl
            constructor
            · refine nodup_flatMap_zipIdx WalkStep.activationIndex fun activation _ => ?_
              rw [hlabels]
              split
              · refine ⟨nodup_flatMap_zipIdx WalkStep.slotIndex fun slot _ =>
                  ⟨List.nodup_singleton _, fun step hstep => ?_⟩, fun step hstep => ?_⟩
                · rw [List.mem_singleton.1 hstep]
                  rfl
                · obtain ⟨slot, -, hstep⟩ := List.mem_flatMap.1 hstep
                  rw [List.mem_singleton.1 hstep]
                  rfl
              · exact ⟨List.nodup_nil, fun _ h => absurd h List.not_mem_nil⟩
            · intro step hstep
              obtain ⟨activation, -, hstep⟩ := List.mem_flatMap.1 hstep
              rw [hlabels] at hstep
              split at hstep
              · obtain ⟨slot, -, hstep⟩ := List.mem_flatMap.1 hstep
                rw [List.mem_singleton.1 hstep]
                rfl
              · exact absurd hstep List.not_mem_nil
  · intro e he
    cases a with
    | project =>
        obtain ⟨useCase, -, rfl⟩ := List.mem_map.1 he
        exact List.nodup_nil
    | slot useCase node =>
        rcases mem_edges_slot.1 he with
          ⟨i, address, l, s, -, rfl⟩ | ⟨i, j, k, d, -, rfl⟩
        · exact List.nodup_nil
        · exact nodup_outputs

/-! ## Finitely many slots -/

/-- All slots that something leads to. -/
def targets (p : DesignProject) : List WalkNode :=
  p.useCases.flatMap fun useCase =>
    .slot useCase (p.useCaseSlotEntryPoint useCase) ::
      (((p.connections.activations useCase).flatMap fun activation =>
          activation.slotsAttachedToTheSignal.map fun slot =>
            .slot useCase (p.classLifeLineAt useCase slot.1, slot.2)) ++
        p.slots.flatMap fun slot =>
          (p.connections.orderedListOfStatements slot).flatMap fun statement =>
            match statement.2 with
            | .slotInvoke l s => [.slot useCase (l, s)]
            | _ => [])

lemma finite_reachable : {b | Relation.ReflTransGen p.LeadsTo .project b}.Finite := by
  refine (List.finite_toSet (.project :: p.targets)).subset fun b hb => ?_
  have hreach : b = .project ∨ b ∈ p.targets ∧
      ∃ useCase ∈ p.useCases, ∃ node, b = .slot useCase node := by
    induction hb with
    | refl => exact Or.inl rfl
    | tail _ hlast ih =>
        right
        obtain ⟨step, hlast⟩ := hlast
        cases hlast with
        | useCase h => exact ⟨List.mem_flatMap.2 ⟨_, h, List.mem_cons_self⟩, _, h, _, rfl⟩
        | invocation hstatement =>
            rcases ih with ih | ⟨-, useCase, huseCase, node, heq⟩
            · exact absurd ih nofun
            · obtain ⟨rfl, rfl⟩ := WalkNode.slot.inj heq
              refine ⟨List.mem_flatMap.2 ⟨_, huseCase, List.mem_cons_of_mem _ ?_⟩, _, huseCase, _,
                rfl⟩
              refine List.mem_append_right _ (List.mem_flatMap.2 ⟨_, p.mem_slots _ fun hnil => ?_,
                List.mem_flatMap.2 ⟨_, List.mem_of_getElem? hstatement, List.mem_singleton_self _⟩⟩)
              rw [hnil] at hstatement
              exact absurd hstatement (Option.some_ne_none _).symm
        | connection hconnects =>
            rcases ih with ih | ⟨-, useCase, huseCase, node, heq⟩
            · exact absurd ih nofun
            · obtain ⟨rfl, rfl⟩ := WalkNode.slot.inj heq
              obtain ⟨activation, hactivation, -, index, hslot, hindex⟩ := hconnects.activation
              refine ⟨List.mem_flatMap.2 ⟨_, huseCase, List.mem_cons_of_mem _ ?_⟩, _, huseCase, _,
                rfl⟩
              refine List.mem_append_left _ (List.mem_flatMap.2
                ⟨_, List.mem_of_getElem? hactivation, List.mem_map.2
                  ⟨_, List.mem_of_getElem? hslot, ?_⟩⟩)
              rw [hindex]
  rcases hreach with rfl | ⟨hmem, -⟩
  · exact List.mem_cons_self
  · exact List.mem_cons_of_mem _ hmem

/-! ## What is stated -/

/-- A statement at the end of a path is the statement of a connection that can be reached. -/
lemma exists_isStatedAlong {a : WalkNode} :
    (∃ path place, p.IsStatedAlong c text a path place) ↔ ∃ useCase node i j k d place,
      Relation.ReflTransGen p.LeadsTo a (.slot useCase node) ∧
        p.ConnectsAt useCase node i j k d ∧ p.States d place c text := by
  constructor
  · rintro ⟨path, place, h⟩
    induction h with
    | here h hstates => exact ⟨_, _, _, _, _, _, _, .refl, h, hstates⟩
    | further h _ ih =>
        obtain ⟨useCase, node, i, j, k, d, place, hreach, hconnects, hstates⟩ := ih
        exact ⟨useCase, node, i, j, k, d, place, .head ⟨_, h⟩ hreach, hconnects, hstates⟩
  · rintro ⟨useCase, node, i, j, k, d, place, hreach, hconnects, hstates⟩
    induction hreach using Relation.ReflTransGen.head_induction_on with
    | refl => exact ⟨_, place, .here hconnects hstates⟩
    | head hfirst _ ih =>
        obtain ⟨path, place, h⟩ := ih
        obtain ⟨step, hstep⟩ := hfirst
        exact ⟨_, place, .further hstep h⟩

variable {ts : List TracedStatement}

lemma mem_traced (hts : trace p.edges fuel .project = some ts) :
    text ∈ (ts.filter (·.2.1 = c)).map (·.2.2) ↔
      ∃ d place, p.IsReachable d ∧ p.States d place c text := by
  have hstated : text ∈ (ts.filter (·.2.1 = c)).map (·.2.2) ↔
      ∃ path place, p.IsStatedAlong c text .project path place := by
    constructor
    · intro hmem
      obtain ⟨⟨⟨path, place⟩, c', text'⟩, ht, rfl⟩ := List.mem_map.1 hmem
      obtain ⟨hin, hc⟩ := List.mem_filter.1 ht
      obtain rfl : c' = c := of_decide_eq_true hc
      exact ⟨path, place, isStatedAlong_iff.2 ((mem_trace hts).1 hin)⟩
    · rintro ⟨path, place, h⟩
      have hmem := (mem_trace hts).2 (isStatedAlong_iff.1 h)
      exact List.mem_map.2 ⟨_, List.mem_filter.2 ⟨hmem, decide_eq_true rfl⟩, rfl⟩
  rw [hstated, exists_isStatedAlong]
  constructor
  · rintro ⟨useCase, node, i, j, k, d, place, hreach, hconnects, hstates⟩
    exact ⟨d, place, ⟨useCase, node, i, j, k, hreach, hconnects⟩, hstates⟩
  · rintro ⟨d, place, ⟨useCase, node, i, j, k, hreach, hconnects⟩, hstates⟩
    exact ⟨useCase, node, i, j, k, d, place, hreach, hconnects, hstates⟩

/-- There are as many statements as paths to them. -/
lemma nodup_traced_iff (hts : trace p.edges fuel .project = some ts) :
    (∀ c, ((ts.filter (·.2.1 = c)).map (·.2.2)).Nodup) ↔
      ∀ {c text path place path' place'}, p.IsStatedAlong c text .project path place →
        p.IsStatedAlong c text .project path' place' → path = path' ∧ place = place' := by
  have hnodup : ts.Nodup := (nodup_trace labelled_edges hts).of_map
  have hmem : ∀ {path place c text}, ((path, place), (c, text)) ∈ ts ↔
      p.IsStatedAlong c text .project path place := by
    intro path place c text
    rw [mem_trace hts, isStatedAlong_iff]
  constructor
  · intro h c text path place path' place' hpath hpath'
    have hinjective := List.inj_on_of_nodup_map (h c)
    have heq := hinjective (List.mem_filter.2 ⟨hmem.2 hpath, decide_eq_true rfl⟩)
      (List.mem_filter.2 ⟨hmem.2 hpath', decide_eq_true rfl⟩) rfl
    exact Prod.mk.inj (Prod.mk.inj heq).1
  · intro h c
    refine (hnodup.filter _).map_on fun t ht t' ht' heq => ?_
    obtain ⟨⟨path, place⟩, c₁, text⟩ := t
    obtain ⟨⟨path', place'⟩, c₂, text'⟩ := t'
    obtain ⟨hin, hc₁⟩ := List.mem_filter.1 ht
    obtain ⟨hin', hc₂⟩ := List.mem_filter.1 ht'
    obtain rfl : c₁ = c := of_decide_eq_true hc₁
    obtain rfl : c₂ = c₁ := of_decide_eq_true hc₂
    obtain rfl : text = text' := heq
    obtain ⟨rfl, rfl⟩ := h (hmem.1 hin) (hmem.1 hin')
    rfl

lemma exists_processUseCases_iff : p.HasExactConnectStatements ↔
    ∃ fuel ts, trace p.edges fuel .project = some ts ∧
      ∀ c, ((ts.filter (·.2.1 = c)).map (·.2.2)).Nodup := by
  have happly : ∀ (ts : List TracedStatement) c, appendAll ts (fun _ => []) c =
      (ts.filter (·.2.1 = c)).map (·.2.2) := fun ts c => appendAll_apply.trans (List.nil_append _)
  constructor
  · rintro ⟨fuel, statements, hprocess, h⟩
    rw [processUseCases_eq] at hprocess
    obtain ⟨ts, hts, rfl⟩ := Option.map_eq_some_iff.1 hprocess
    exact ⟨fuel + 1, ts, hts, fun c => happly ts c ▸ (h c).1⟩
  · rintro ⟨fuel, ts, hts, hnodup⟩
    refine ⟨fuel, appendAll ts fun _ => [], ?_, fun c => ⟨?_, fun text => ?_⟩⟩
    · rw [processUseCases_eq, trace_succ hts]
      rfl
    · rw [happly]
      exact hnodup c
    · rw [happly]
      exact mem_traced hts

/-- The walk comes back if and only if no slot that can be reached leads to itself. -/
lemma exists_trace_project_iff : (∃ fuel ts, trace p.edges fuel .project = some ts) ↔
    ∀ node, Relation.ReflTransGen p.LeadsTo .project node →
      ¬ Relation.TransGen p.LeadsTo node node := by
  have hfinite := p.finite_reachable
  rw [leadsTo_eq] at hfinite ⊢
  exact exists_trace_iff hfinite

/-- **The statements are exact if and only if everything is walked once**: no slot that can be
reached leads to itself, and no statement is reached along two paths.

A statement that is put out twice connects twice, and each emission calls the slot twice.  A slot
that leads to itself through any number of others makes the generator recurse for ever.  A project
without either is walked exactly. -/
theorem hasExactConnectStatements_iff : p.HasExactConnectStatements ↔ p.IsWalkedOnce := by
  rw [exists_processUseCases_iff]
  constructor
  · rintro ⟨fuel, ts, hts, hnodup⟩
    exact ⟨exists_trace_project_iff.1 ⟨fuel, ts, hts⟩, (nodup_traced_iff hts).1 hnodup⟩
  · rintro ⟨hacyclic, honce⟩
    obtain ⟨fuel, ts, hts⟩ := exists_trace_project_iff.2 hacyclic
    exact ⟨fuel, ts, hts, (nodup_traced_iff hts).2 honce⟩

end DesignProject

/-! ## A slot that is answered -/

/-- A root and its member, whose only slots answer each other's signals. -/
def answeringEachOther : DesignProject where
  normalizedType type := type
  connections :=
    { orderedListOfStatements := fun slot =>
        if slot ∈ [0, 1] then [(slot, .signalEmit slot)] else []
      activations := fun _ => [⟨0, 0, 0, [(1, 1)], 0⟩, ⟨1, 1, 0, [(0, 0)], 1⟩]
      nextAddress := 2
      connected := fun _ _ _ _ => [] }
  useCases := [0]
  slots := [0, 1]
  useCaseSlotEntryPoint _ := (0, 0)
  classLifeLines _ := [0, 1]
  classLifeLine l :=
    if l = 0 then ⟨0, .useCasesRootClassLifeLine⟩ else ⟨1, .childMemberOfOtherClassLifeLine 0⟩
  nonFunctionMember _ := ⟨0, "answerer".toList⟩
  nonFunctionMembers c := if c = 0 then [0] else []
  signal _ := ⟨"asked".toList, []⟩
  slot _ := ⟨"answer".toList, []⟩
  nodup_useCases := List.nodup_singleton 0
  mem_slots slot h := by
    by_contra hslot
    exact h (if_neg hslot)
  index_lt _ activation hactivation slot hslot := by
    obtain rfl | rfl := List.mem_pair.1 hactivation
    · rw [List.mem_singleton.1 hslot]
      decide
    · rw [List.mem_singleton.1 hslot]
      decide
  mem_nonFunctionMembers l m h c := by
    split at h
    · exact absurd h nofun
    · obtain rfl := ClassLifeLineInstance.childMemberOfOtherClassLifeLine.inj h
      by_cases hc : c = 0
      · subst hc
        decide
      · rw [if_neg hc]
        exact ⟨fun hmem => absurd hmem List.not_mem_nil, fun heq => absurd heq.symm hc⟩

theorem not_hasExactConnectStatements_answeringEachOther :
    ¬ answeringEachOther.HasExactConnectStatements := by
  intro h
  obtain ⟨fuel, ts, hts, -⟩ := DesignProject.exists_processUseCases_iff.1 h
  have hask : answeringEachOther.ConnectsAt 0 (0, 0) 0 0 0 ⟨0, 0, 1, 1⟩ :=
    ⟨rfl, ⟨0, rfl⟩, _, rfl, by decide, 1, rfl, rfl⟩
  have hanswer : answeringEachOther.ConnectsAt 0 (1, 1) 0 1 0 ⟨1, 1, 0, 0⟩ :=
    ⟨rfl, ⟨1, rfl⟩, _, rfl, by decide, 0, rfl, rfl⟩
  have hentry : answeringEachOther.LeadsTo .project (.slot 0 (0, 0)) :=
    ⟨_, .useCase (List.mem_singleton_self 0)⟩
  apply DesignProject.exists_trace_project_iff.1 ⟨fuel, ts, hts⟩ _ (.single hentry)
  exact .tail (.single ⟨_, .connection hask⟩) ⟨_, .connection hanswer⟩

end Autobackup.DesignEqualsImplementation
