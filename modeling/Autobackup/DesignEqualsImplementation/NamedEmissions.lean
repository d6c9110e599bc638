import Autobackup.DesignEqualsImplementation.ConnectionActivations

/-!
# Connections that keep their names

A statement that is inserted in front of an emission moves it, and no activation follows.  A slot
that is connected to an emission without an activation is forgotten.  Nothing else goes wrong
(`DesignSession.namesEmissions_iff`).

An emission is addressed by the slot and the index of its statement, and the connections keep these
addresses in a hash.  A session starts without connections and goes through insertions of any kind
in any order.
-/

namespace Autobackup.DesignEqualsImplementation

namespace Connections

variable {c : Connections} {useCase : UseCaseAddress} {l l' : ClassLifeLineAddress}
  {s s' : ClassSlotAddress} {i j index : ℕ} {slot : SlotConnectedToSignal}
  {a : SignalSlotConnectionActivation} {activations rest : List SignalSlotConnectionActivation}

/-! ## Activations in a list -/

lemma slotsAttachedTo_append (h : ∀ a ∈ activations, ¬ a.IsOf l s i) :
    slotsAttachedTo l s i (activations ++ rest) = slotsAttachedTo l s i rest := by
  induction activations with
  | nil => rfl
  | cons a activations ih =>
      obtain ⟨ha, hrest⟩ := List.forall_mem_cons.1 h
      rw [List.cons_append, slotsAttachedTo, if_neg ha, ih hrest]

lemma slotsAttachedTo_eq_nil (h : ∀ a ∈ activations, ¬ a.IsOf l s i) :
    slotsAttachedTo l s i activations = [] := by
  rw [← List.append_nil activations, slotsAttachedTo_append h]
  rfl

lemma slotsAttachedTo_concat (h : ¬ a.IsOf l s i) :
    slotsAttachedTo l s i (activations ++ [a]) = slotsAttachedTo l s i activations := by
  induction activations with
  | nil => exact if_neg h
  | cons b activations ih => rw [List.cons_append, slotsAttachedTo, slotsAttachedTo, ih]

lemma attachSlot_eq_self (h : ∀ a ∈ activations, ¬ a.IsOf l s i) :
    attachSlot l s i slot index activations = activations := by
  induction activations with
  | nil => rfl
  | cons a activations ih =>
      obtain ⟨ha, hrest⟩ := List.forall_mem_cons.1 h
      rw [attachSlot, if_neg ha, ih hrest]

lemma slotsAttachedTo_attachSlot (h : ∃ a ∈ activations, a.IsOf l s i) :
    slotsAttachedTo l s i (attachSlot l s i slot index activations) =
      QList.insert (slotsAttachedTo l s i activations) index slot := by
  induction activations with
  | nil =>
      obtain ⟨a, ha, -⟩ := h
      exact absurd ha List.not_mem_nil
  | cons b activations ih =>
      by_cases hb : b.IsOf l s i
      · rw [attachSlot, if_pos hb, slotsAttachedTo, slotsAttachedTo, if_pos hb]
        exact if_pos hb
      · obtain ⟨a, ha, hof⟩ := h
        have hmem : a ∈ activations := (List.mem_cons.1 ha).resolve_left fun heq => hb (heq ▸ hof)
        rw [attachSlot, if_neg hb, slotsAttachedTo, slotsAttachedTo, if_neg hb, if_neg hb,
          ih ⟨a, hmem, hof⟩]

/-- The slots of other emissions stay as they are. -/
lemma slotsAttachedTo_attachSlot_of_ne (h : ¬ (l' = l ∧ s' = s ∧ j = i)) :
    slotsAttachedTo l' s' j (attachSlot l s i slot index activations) =
      slotsAttachedTo l' s' j activations := by
  induction activations with
  | nil => rfl
  | cons b activations ih =>
      by_cases hb : b.IsOf l s i
      · have hother : ¬ b.IsOf l' s' j := fun hof =>
          h ⟨hof.1.symm.trans hb.1, hof.2.1.symm.trans hb.2.1, hof.2.2.symm.trans hb.2.2⟩
        rw [attachSlot, if_pos hb, slotsAttachedTo, slotsAttachedTo, if_neg hother]
        exact if_neg hother
      · rw [attachSlot, if_neg hb, slotsAttachedTo, slotsAttachedTo, ih]

lemma exists_of_mem_attachSlot {b : SignalSlotConnectionActivation}
    (h : b ∈ attachSlot l s i slot index activations) :
    ∃ a ∈ activations, b.sourceSlotItself = a.sourceSlotItself ∧
      b.indexIntoSlotsOrderedListOfStatements = a.indexIntoSlotsOrderedListOfStatements ∧
      b.drawnFrom = a.drawnFrom := by
  induction activations with
  | nil => exact absurd h List.not_mem_nil
  | cons a activations ih =>
      rw [attachSlot] at h
      split at h
      · rcases List.mem_cons.1 h with rfl | h
        · exact ⟨a, List.mem_cons_self, rfl, rfl, rfl⟩
        · exact ⟨b, List.mem_cons_of_mem a h, rfl, rfl, rfl⟩
      · rcases List.mem_cons.1 h with rfl | h
        · exact ⟨b, List.mem_cons_self, rfl, rfl, rfl⟩
        · obtain ⟨found, hfound, hsame⟩ := ih h
          exact ⟨found, List.mem_cons_of_mem a hfound, hsame⟩

/-! ## Addresses -/

/-- No statement stands in two places, and nothing is connected to one that is not there yet. -/
structure Addressed (c : Connections) : Prop where
  fresh : ∀ s, ∀ statement ∈ c.orderedListOfStatements s, statement.1 < c.nextAddress
  nodup : ∀ s, ((c.orderedListOfStatements s).map Prod.fst).Nodup
  unconnected : ∀ useCase l s emission, c.nextAddress ≤ emission →
    c.connected useCase l s emission = []

lemma addressed_empty : empty.Addressed :=
  ⟨fun _ _ h => absurd h List.not_mem_nil, fun _ => List.nodup_nil, fun _ _ _ _ _ => rfl⟩

lemma Addressed.eq_index (h : c.Addressed) {first second : StatementAddress × Statement}
    (hi : (c.orderedListOfStatements s)[i]? = some first)
    (hj : (c.orderedListOfStatements s)[j]? = some second) (heq : first.1 = second.1) : i = j := by
  have hnodup := h.nodup s
  have hfirst : ((c.orderedListOfStatements s).map Prod.fst)[i]? = some first.1 := by
    rw [List.getElem?_map, hi]
    rfl
  have hsecond : ((c.orderedListOfStatements s).map Prod.fst)[j]? = some first.1 := by
    rw [List.getElem?_map, hj, heq]
    rfl
  have hlength : i < ((c.orderedListOfStatements s).map Prod.fst).length :=
    (List.getElem?_eq_some_iff.1 hfirst).1
  exact (List.getElem?_inj hlength hnodup).1 (hfirst.trans hsecond.symm)

/-! ## A statement is inserted -/

variable {statement : Statement} {useCase' : UseCaseAddress} {emission : StatementAddress}
  {slots : List SlotConnectedToSignal}

lemma orderedListOfStatements_insert_self :
    (c.insertStatementIntoOrderedListOfStatements s i statement).orderedListOfStatements s =
      QList.insert (c.orderedListOfStatements s) i (c.nextAddress, statement) :=
  Function.update_self _ _ _

lemma orderedListOfStatements_insert_of_ne (h : s' ≠ s) :
    (c.insertStatementIntoOrderedListOfStatements s i statement).orderedListOfStatements s' =
      c.orderedListOfStatements s' :=
  Function.update_of_ne h _ _

lemma Addressed.insertStatement (h : c.Addressed) :
    (c.insertStatementIntoOrderedListOfStatements s i statement).Addressed := by
  refine ⟨fun s' => ?_, fun s' => ?_, fun useCase l s' emission hle =>
    h.unconnected useCase l s' emission (Nat.le_of_succ_le hle)⟩
  · intro found hfound
    by_cases hs : s' = s
    · subst hs
      rw [orderedListOfStatements_insert_self, QList.mem_insert] at hfound
      rcases hfound with rfl | hfound
      · exact Nat.lt_succ_self _
      · exact Nat.lt_succ_of_lt (h.fresh s' found hfound)
    · rw [orderedListOfStatements_insert_of_ne hs] at hfound
      exact Nat.lt_succ_of_lt (h.fresh s' found hfound)
  · by_cases hs : s' = s
    · subst hs
      rw [orderedListOfStatements_insert_self, (QList.insert_perm.map Prod.fst).nodup_iff,
        List.map_cons, List.nodup_cons]
      refine ⟨fun hmem => ?_, h.nodup s'⟩
      obtain ⟨found, hfound, heq⟩ := List.mem_map.1 hmem
      exact absurd heq (h.fresh s' found hfound).ne
    · rw [orderedListOfStatements_insert_of_ne hs]
      exact h.nodup s'

/-- **In front of an emission a connection was drawn from nothing can be inserted**, if the index is
to find it. -/
lemma isBehindConnections_of_found (statement : Statement) (h : c.Addressed)
    (hnames : c.NamesEmissions) (hi : i ≤ (c.orderedListOfStatements s).length)
    (hfound : ∀ useCase, ∀ a ∈ c.activations useCase, ∃ found,
      ((c.insertStatementIntoOrderedListOfStatements s i statement).orderedListOfStatements
        a.sourceSlotItself)[a.indexIntoSlotsOrderedListOfStatements]? = some (a.drawnFrom, found)) :
    c.IsBehindConnections s i := by
  rintro useCase a ha rfl
  by_contra hle
  obtain ⟨emit, hemit, -⟩ := hnames.activations useCase a ha
  obtain ⟨found, hat⟩ := hfound useCase a ha
  rw [orderedListOfStatements_insert_self] at hat
  rcases Nat.lt_or_eq_of_le (Nat.le_of_not_lt hle) with hlt | heq
  · rw [QList.getElem?_insert_of_gt hi hlt] at hat
    have hsame := h.eq_index hat hemit rfl
    omega
  · subst heq
    rw [QList.getElem?_insert_self hi] at hat
    have haddress : c.nextAddress = a.drawnFrom := congrArg Prod.fst (Option.some.inj hat)
    exact absurd haddress (h.fresh _ _ (List.mem_of_getElem? hemit)).ne'

lemma not_isOf_of_isBehindConnections (h : c.IsBehindConnections s i) (hle : i ≤ j) :
    ∀ a ∈ c.activations useCase, ¬ a.IsOf l s j := fun a ha hof => by
  have hlt := h useCase a ha hof.2.1
  rw [hof.2.2] at hlt
  omega

lemma NamesEmissions.insertStatement (hnames : c.NamesEmissions) (h : c.Addressed)
    (hi : i ≤ (c.orderedListOfStatements s).length) (hbehind : c.IsBehindConnections s i) :
    (c.insertStatementIntoOrderedListOfStatements s i statement).NamesEmissions := by
  constructor
  · intro useCase a ha
    obtain ⟨emit, hemit, hsignal⟩ := hnames.activations useCase a ha
    refine ⟨emit, ?_, hsignal⟩
    by_cases hs : a.sourceSlotItself = s
    · have hlt := hbehind useCase a ha hs
      rw [hs] at hemit ⊢
      rw [orderedListOfStatements_insert_self, QList.getElem?_insert_of_lt hi hlt, hemit]
    · rw [orderedListOfStatements_insert_of_ne hs, hemit]
  · intro useCase l s' j emission hj hsignal
    change c.slotsConnectedToSignal useCase l s' j = c.connected useCase l s' emission.1
    by_cases hs : s' = s
    · subst hs
      rw [orderedListOfStatements_insert_self] at hj
      rcases Nat.lt_trichotomy j i with hlt | rfl | hgt
      · rw [QList.getElem?_insert_of_lt hi hlt] at hj
        exact hnames.slots useCase l s' j emission hj hsignal
      · rw [QList.getElem?_insert_self hi] at hj
        rw [← Option.some.inj hj, h.unconnected useCase l s' _ (Nat.le_refl _)]
        exact slotsAttachedTo_eq_nil (not_isOf_of_isBehindConnections hbehind (Nat.le_refl _))
      · -- Neither here nor one in front of it is a connection.
        rw [QList.getElem?_insert_of_gt hi hgt] at hj
        rw [← hnames.slots useCase l s' (j - 1) emission hj hsignal, slotsConnectedToSignal,
          slotsAttachedTo_eq_nil (not_isOf_of_isBehindConnections hbehind hgt.le),
          slotsConnectedToSignal,
          slotsAttachedTo_eq_nil
            (not_isOf_of_isBehindConnections hbehind (Nat.le_sub_one_of_lt hgt))]
    · rw [orderedListOfStatements_insert_of_ne hs] at hj
      exact hnames.slots useCase l s' j emission hj hsignal

/-- **To insert a statement is safe behind the connections only.** -/
theorem namesEmissions_insertStatement_iff (h : c.Addressed) (hnames : c.NamesEmissions)
    (hi : i ≤ (c.orderedListOfStatements s).length) :
    (c.insertStatementIntoOrderedListOfStatements s i statement).NamesEmissions ↔
      c.IsBehindConnections s i := by
  refine ⟨fun h' => isBehindConnections_of_found statement h hnames hi fun useCase a ha => ?_,
    hnames.insertStatement h hi⟩
  obtain ⟨found, hfound, -⟩ := h'.activations useCase a ha
  exact ⟨found, hfound⟩

/-! ## A slot is connected -/

lemma connected_connect_self :
    (c.connect useCase l s emission slots).connected useCase l s emission = slots :=
  if_pos ⟨rfl, rfl, rfl, rfl⟩

lemma connected_connect_of_ne {emission' : StatementAddress}
    (h : ¬ (useCase' = useCase ∧ l' = l ∧ s' = s ∧ emission' = emission)) :
    (c.connect useCase l s emission slots).connected useCase' l' s' emission' =
      c.connected useCase' l' s' emission' :=
  if_neg h

lemma activations_appendActivation_self :
    (c.appendActivation useCase a).activations useCase = c.activations useCase ++ [a] :=
  Function.update_self _ _ _

lemma activations_appendActivation_of_ne (h : useCase' ≠ useCase) :
    (c.appendActivation useCase a).activations useCase' = c.activations useCase' :=
  Function.update_of_ne h _ _

lemma activations_attachSlot_self :
    (c.attachSlotInUseCase useCase l s i slot index).activations useCase =
      attachSlot l s i slot index (c.activations useCase) :=
  Function.update_self _ _ _

lemma activations_attachSlot_of_ne (h : useCase' ≠ useCase) :
    (c.attachSlotInUseCase useCase l s i slot index).activations useCase' =
      c.activations useCase' :=
  Function.update_of_ne h _ _

lemma Addressed.connect (h : c.Addressed) (hlt : emission < c.nextAddress) :
    (c.connect useCase l s emission slots).Addressed := by
  refine ⟨h.fresh, h.nodup, fun useCase' l' s' emission' hle => ?_⟩
  have hne : ¬ (useCase' = useCase ∧ l' = l ∧ s' = s ∧ emission' = emission) := fun heq =>
    absurd (heq.2.2.2 ▸ hle) (Nat.not_le.2 hlt)
  rw [connected_connect_of_ne hne]
  exact h.unconnected useCase' l' s' emission' hle

/-- A new connection. -/
lemma NamesEmissions.appendActivation (hnames : c.NamesEmissions) (h : c.Addressed)
    (hat : (c.orderedListOfStatements s)[i]? = some (emission, statement))
    (hsignal : statement.isSignalEmit = true)
    (hnone : ∀ a ∈ c.activations useCase, ¬ a.IsOf l s i) :
    ((c.connect useCase l s emission [slot]).appendActivation useCase
      ⟨l, s, i, [slot], emission⟩).NamesEmissions := by
  constructor
  · intro useCase' a ha
    by_cases huse : useCase' = useCase
    · subst huse
      rw [activations_appendActivation_self] at ha
      rcases List.mem_append.1 ha with ha | ha
      · exact hnames.activations useCase' a ha
      · obtain rfl := List.mem_singleton.1 ha
        exact ⟨statement, hat, hsignal⟩
    · rw [activations_appendActivation_of_ne huse] at ha
      exact hnames.activations useCase' a ha
  · intro useCase' l' s' j found hj hfound
    have hold := hnames.slots useCase' l' s' j found hj hfound
    by_cases huse : useCase' = useCase
    · subst huse
      rw [slotsConnectedToSignal, activations_appendActivation_self]
      by_cases hkeys : l' = l ∧ s' = s ∧ j = i
      · obtain ⟨rfl, rfl, rfl⟩ := hkeys
        have hsame : found = (emission, statement) := Option.some.inj (hj.symm.trans hat)
        have hconnected : (c.connect useCase' l' s' emission [slot]).connected useCase' l' s'
            found.1 = [slot] := by
          rw [hsame]
          exact connected_connect_self
        refine Eq.trans ?_ hconnected.symm
        refine (slotsAttachedTo_append hnone).trans ?_
        exact if_pos ⟨rfl, rfl, rfl⟩
      · have hnot : ¬ SignalSlotConnectionActivation.IsOf ⟨l, s, i, [slot], emission⟩ l' s' j :=
          fun hof => hkeys ⟨hof.1.symm, hof.2.1.symm, hof.2.2.symm⟩
        refine (slotsAttachedTo_concat hnot).trans (hold.trans (connected_connect_of_ne ?_).symm)
        rintro ⟨-, rfl, rfl, heq⟩
        exact hkeys ⟨rfl, rfl, h.eq_index hj hat heq⟩
    · rw [slotsConnectedToSignal, activations_appendActivation_of_ne huse]
      exact hold.trans (connected_connect_of_ne fun heq => huse heq.1).symm

/-- **One more slot.** -/
lemma namesEmissions_attachSlot_iff (hnames : c.NamesEmissions) (h : c.Addressed)
    (hat : (c.orderedListOfStatements s)[i]? = some (emission, statement))
    (hsignal : statement.isSignalEmit = true) :
    ((c.connect useCase l s emission
      (QList.insert (c.connected useCase l s emission) index slot)).attachSlotInUseCase
        useCase l s i slot index).NamesEmissions ↔ ∃ a ∈ c.activations useCase, a.IsOf l s i := by
  have hold := hnames.slots useCase l s i _ hat hsignal
  constructor
  · intro h'
    by_contra hnone
    have hforget : ∀ a ∈ c.activations useCase, ¬ a.IsOf l s i := fun a ha hof =>
      hnone ⟨a, ha, hof⟩
    have hslots := h'.slots useCase l s i _ hat hsignal
    have hconnected := connected_connect_self.symm.trans hslots.symm
    rw [slotsConnectedToSignal, activations_attachSlot_self] at hconnected
    refine QList.insert_ne_nil (hconnected.trans ?_)
    refine slotsAttachedTo_eq_nil fun a ha => hforget a ?_
    have hmem : a ∈ attachSlot l s i slot index (c.activations useCase) := ha
    rwa [attachSlot_eq_self hforget] at hmem
  · intro hexists
    constructor
    · intro useCase' b hb
      by_cases huse : useCase' = useCase
      · subst huse
        rw [activations_attachSlot_self] at hb
        obtain ⟨a, ha, hslot, hindex, hdrawn⟩ := exists_of_mem_attachSlot hb
        rw [hslot, hindex, hdrawn]
        exact hnames.activations useCase' a ha
      · rw [activations_attachSlot_of_ne huse] at hb
        exact hnames.activations useCase' b hb
    · intro useCase' l' s' j found hj hfound
      have hbefore := hnames.slots useCase' l' s' j found hj hfound
      by_cases huse : useCase' = useCase
      · subst huse
        rw [slotsConnectedToSignal, activations_attachSlot_self]
        by_cases hkeys : l' = l ∧ s' = s ∧ j = i
        · obtain ⟨rfl, rfl, rfl⟩ := hkeys
          obtain rfl : found = (emission, statement) := Option.some.inj (hj.symm.trans hat)
          refine (slotsAttachedTo_attachSlot hexists).trans ?_
          rw [← hold]
          exact connected_connect_self.symm
        · refine (slotsAttachedTo_attachSlot_of_ne hkeys).trans
            (hbefore.trans (connected_connect_of_ne ?_).symm)
          rintro ⟨-, rfl, rfl, heq⟩
          exact hkeys ⟨rfl, rfl, h.eq_index hj hat heq⟩
      · rw [slotsConnectedToSignal, activations_attachSlot_of_ne huse]
        exact hbefore.trans (connected_connect_of_ne fun heq => huse heq.1).symm

/-! ## Steps and runs -/

lemma Addressed.appendActivation (h : c.Addressed) : (c.appendActivation useCase a).Addressed :=
  ⟨h.fresh, h.nodup, h.unconnected⟩

lemma Addressed.attachSlot (h : c.Addressed) :
    (c.attachSlotInUseCase useCase l s i slot index).Addressed :=
  ⟨h.fresh, h.nodup, h.unconnected⟩

lemma Addressed.step {event : UseCaseAddress × UseCaseEvent} (h : c.Addressed) :
    (c.step event).Addressed := by
  obtain ⟨useCase, event⟩ := event
  cases event with
  | insertSlotInvocationEvent i source l slot =>
      cases source with
      | none => exact h
      | some s => exact h.insertStatement
  | insertSignalEmitEvent i source signal =>
      cases source with
      | none => exact h
      | some s => exact h.insertStatement
  | insertSignalSlotActivationEvent i source signal l slot =>
      cases source with
      | none => exact h
      | some s => exact (h.insertStatement.connect (Nat.lt_succ_self _)).appendActivation
  | insertExistingSignalNewSlotEvent i source l slot index =>
      cases source with
      | none => exact h
      | some s =>
          rw [Connections.step, insertEvent]
          split
          · exact h.attachSlot
          · next emission hat =>
              exact (h.connect (h.fresh s emission (List.mem_of_getElem? hat))).attachSlot
  | importChunkOfRawCppStatements slot i rawCppStatements => exact h.insertStatement

lemma namesEmissions_signalSlotActivation_iff (signal : ClassSignalAddress) (h : c.Addressed)
    (hnames : c.NamesEmissions) (hi : i ≤ (c.orderedListOfStatements s).length) :
    (((c.insertStatementIntoOrderedListOfStatements s i (.signalEmit signal)).connect useCase l s
      c.nextAddress [slot]).appendActivation useCase ⟨l, s, i, [slot], c.nextAddress⟩
        ).NamesEmissions ↔ c.IsBehindConnections s i := by
  constructor
  · intro h'
    refine isBehindConnections_of_found (.signalEmit signal) h hnames hi fun useCase' a ha => ?_
    have hmem : a ∈ (((c.insertStatementIntoOrderedListOfStatements s i
        (.signalEmit signal)).connect useCase l s c.nextAddress [slot]).appendActivation useCase
          ⟨l, s, i, [slot], c.nextAddress⟩).activations useCase' := by
      by_cases huse : useCase' = useCase
      · subst huse
        rw [activations_appendActivation_self]
        exact List.mem_append_left _ ha
      · rw [activations_appendActivation_of_ne huse]
        exact ha
    obtain ⟨found, hfound, -⟩ := h'.activations useCase' a hmem
    exact ⟨found, hfound⟩
  · intro hbehind
    have hat : ((c.insertStatementIntoOrderedListOfStatements s i
        (.signalEmit signal)).orderedListOfStatements s)[i]? =
          some (c.nextAddress, .signalEmit signal) := by
      rw [orderedListOfStatements_insert_self, QList.getElem?_insert_self hi]
    exact (hnames.insertStatement h hi hbehind).appendActivation h.insertStatement hat rfl
      (not_isOf_of_isBehindConnections hbehind (Nat.le_refl i))

lemma forall_mem_some (P : ClassSlotAddress → Prop) : (∀ s' ∈ some s, P s') ↔ P s :=
  ⟨fun h => h s rfl, fun h _ heq => Option.some.inj heq ▸ h⟩

lemma forall_mem_none {P : ClassSlotAddress → Prop} : ∀ s ∈ (none : Option ClassSlotAddress), P s :=
  fun s h => absurd h (Option.not_mem_none s)

/-- **A step loses a name exactly if it does not respect the connections.** -/
theorem namesEmissions_step_iff {event : UseCaseAddress × UseCaseEvent} (h : c.Addressed)
    (hnames : c.NamesEmissions) (hcan : c.CanInsert event.1 event.2) :
    (c.step event).NamesEmissions ↔ c.Respects event.1 event.2 := by
  obtain ⟨useCase, event⟩ := event
  cases event with
  | insertSlotInvocationEvent i source l slot =>
      cases source with
      | none => exact iff_of_true hnames forall_mem_none
      | some s =>
          exact (namesEmissions_insertStatement_iff h hnames (hcan s rfl)).trans
            (forall_mem_some fun s => c.IsBehindConnections s i).symm
  | insertSignalEmitEvent i source signal =>
      cases source with
      | none => exact iff_of_true hnames forall_mem_none
      | some s =>
          exact (namesEmissions_insertStatement_iff h hnames (hcan s rfl)).trans
            (forall_mem_some fun s => c.IsBehindConnections s i).symm
  | insertSignalSlotActivationEvent i source signal l slot =>
      cases source with
      | none => exact iff_of_true hnames forall_mem_none
      | some s =>
          exact (namesEmissions_signalSlotActivation_iff signal h hnames (hcan s rfl)).trans
            (forall_mem_some fun s => c.IsBehindConnections s i).symm
  | insertExistingSignalNewSlotEvent i source l slot index =>
      cases source with
      | none => exact iff_of_true hnames forall_mem_none
      | some s =>
          obtain ⟨emission, hat, hsignal, -⟩ := hcan s rfl
          rw [Connections.step, insertEvent, hat]
          exact (namesEmissions_attachSlot_iff hnames h hat hsignal).trans
            (forall_mem_some fun s => ∃ a ∈ c.activations useCase, a.IsOf l s i).symm
  | importChunkOfRawCppStatements slot i rawCppStatements =>
      exact namesEmissions_insertStatement_iff h hnames hcan

lemma namesEmissions_empty : empty.NamesEmissions :=
  ⟨fun _ _ h => absurd h List.not_mem_nil, fun _ _ _ _ _ h => absurd h (by simp [empty])⟩

end Connections

open Connections

/-- **The connections name their emissions throughout a session exactly if all steps respect them.**

The generator connects what it finds under the addresses, so an address that has moved connects the
slot of one signal to another one, or to a statement that emits nothing.  The header of the use case
says that the indexes are to be kept in step with insertions. -/
theorem DesignSession.namesEmissions_iff (session : DesignSession) :
    Machine.HoldsThroughout step NamesEmissions empty session.events ↔
      Machine.StaysWithin step (fun c event => c.Respects event.1 event.2) empty session.events :=
  Machine.holdsThroughout_iff_of_staysWithin (I := Addressed)
    (fun _ _ _ h _ _ => h.step) (fun _ _ hcan h hnames => namesEmissions_step_iff h hnames hcan)
    session.canInsert addressed_empty namesEmissions_empty

/-- A connection is drawn, and a line of C++ is written above it. -/
def chunkAboveConnection : DesignSession where
  events :=
    [(0, .insertSignalSlotActivationEvent 0 (some 1) 2 3 (0, 4)),
      (0, .importChunkOfRawCppStatements 1 0 ["++m_Count;".toList])]
  canInsert := ⟨fun _ _ => Nat.zero_le _, Nat.zero_le _, trivial⟩

/-- The connection names the line. -/
theorem not_namesEmissions_chunkAboveConnection : ¬ ∀ session : DesignSession,
    Machine.HoldsThroughout step NamesEmissions empty session.events := by
  intro h
  have hafter : (Machine.run step empty chunkAboveConnection.events).NamesEmissions :=
    (h chunkAboveConnection).run
  obtain ⟨statement, hat, -⟩ := hafter.activations 0 ⟨3, 1, 0, [(0, 4)], 0⟩ (by decide)
  have hchunk : some (1, Statement.chunkOfRawCppStatements ["++m_Count;".toList]) =
      some (0, statement) := hat
  exact absurd (congrArg Prod.fst (Option.some.inj hchunk)) Nat.one_ne_zero

end Autobackup.DesignEqualsImplementation
