import Autobackup.Network.AskedConnections
import Mathlib.Data.List.Perm.Basic
import Mathlib.Data.List.Nodup

/-!
# Who may be selected for a broadcast

Connections enter the list of those that are helloed in one place and leave it in another, and what
is in the queue for broadcasts was copied from that list.  The lists stay sound exactly as long as
nobody enters the list who is in it, or who is going to be deleted (`EntersOnce`), and no deleted
connection is asked for its cookie (`AsksNoneDeleted`).

A deleted connection cannot be told from one that is alive by the pointer that the lists keep.  So
soundness includes that none was used: after that, what the lists hold means nothing.

The condition `EntersOnce` is about what a client sends and when: a second confirmation on one
connection, or one on a connection that is going to be deleted, puts a pointer into the list that is
there already or that will dangle.  Left out are which message is broadcast and what becomes of it;
the selection is what a broadcast begins with.
-/

namespace Autobackup.Network

namespace MultiServerAbstraction

/-- It was not handed to `deleteLater`, let alone deleted. -/
def Alive (st : MultiServerAbstraction) (c : ConnectionId) : Prop :=
  c ∉ st.deletedLater ∧ c ∉ st.destroyed
  deriving Decidable

/-- **The bookkeeping is sound.**

The lists name each connection once, those that are helloed are alive and not bad, and the queue has
only helloed ones. -/
structure BookkeepingSound (st : MultiServerAbstraction) : Prop where
  helloed_nodup : st.listOfHelloedConnections.Nodup
  helloed_alive : ∀ c ∈ st.listOfHelloedConnections, st.Alive c
  helloed_good : ∀ c ∈ st.listOfHelloedConnections, c ∉ st.bad
  queue_helloed : ∀ c ∈ st.roundRobinQueue, c ∈ st.listOfHelloedConnections
  queue_nodup : st.roundRobinQueue.Nodup
  selected_nodup : st.selected.Nodup
  /-- No member of a deleted connection was called. -/
  usedDeleted : st.usedDeleted = false

/-- What else holds in every state. -/
structure RoundRobin (st : MultiServerAbstraction) : Prop where
  /-- What was selected is not in the queue any more. -/
  nodup : (st.selected ++ st.roundRobinQueue).Nodup
  destroyed : ∀ c ∈ st.destroyed, c ∈ st.deletedLater

variable (hash : List Byte → List Byte) (toUInt : List Byte → Cookie)

/-- The condition: a connection that confirms its cookie is not helloed already, or the one that it
is merged onto is not; and neither is going to be deleted, apart from the new one in a merge. -/
def EntersOnce (st : MultiServerAbstraction) (x : Event) : Prop :=
  match x with
  | .messageReceived c message inputs disconnected =>
      st.generating = false → st.Exists c →
        match MessageFromClient.ofMessage message with
        | .thankYouForWelcomingMe k => (st.cookie hash toUInt c inputs).map (·.1) = .returned k →
            match (st.connections c).oldConnectionToMergeOnto with
            | none => c ∉ st.listOfHelloedConnections ∧ st.Alive c
            | some old => c ≠ old ∧ c ∉ st.listOfHelloedConnections ∧ st.Alive old ∧
                (disconnected ∨ old ∉ st.listOfHelloedConnections)
        | _ => True
  | _ => True

/-! ## The lists -/

/-- The lists are those of `st`. -/
structure SameLists (st st' : MultiServerAbstraction) : Prop where
  helloed : st'.listOfHelloedConnections = st.listOfHelloedConnections
  queue : st'.roundRobinQueue = st.roundRobinQueue
  deletedLater : st'.deletedLater = st.deletedLater
  destroyed : st'.destroyed = st.destroyed
  bad : st'.bad = st.bad
  selected : st'.selected = st.selected
  usedDeleted : st'.usedDeleted = st.usedDeleted

section Lists

variable {st st' : MultiServerAbstraction} {c : ConnectionId}

lemma SameLists.soundness_iff (h : st.SameLists st') :
    st'.BookkeepingSound ↔ st.BookkeepingSound := by
  have halive (c : ConnectionId) : st'.Alive c ↔ st.Alive c := by
    unfold Alive
    rw [h.deletedLater, h.destroyed]
  constructor
  · rintro ⟨h₁, h₂, h₃, h₄, h₅, h₆, h₇⟩
    simp only [h.helloed, h.queue, h.bad, h.selected, halive] at h₁ h₂ h₃ h₄ h₅ h₆
    exact ⟨h₁, h₂, h₃, h₄, h₅, h₆, h.usedDeleted.symm.trans h₇⟩
  · rintro ⟨h₁, h₂, h₃, h₄, h₅, h₆, h₇⟩
    simp only [← h.helloed, ← h.queue, ← h.bad, ← h.selected, ← halive] at h₁ h₂ h₃ h₄ h₅ h₆
    exact ⟨h₁, h₂, h₃, h₄, h₅, h₆, h.usedDeleted.trans h₇⟩

lemma SameLists.roundRobin (h : st.SameLists st') (hI : st.RoundRobin) : st'.RoundRobin where
  nodup := by
    rw [h.selected, h.queue]
    exact hI.nodup
  destroyed := by
    rw [h.destroyed, h.deletedLater]
    exact hI.destroyed

lemma SameLists.sound (h : st.SameLists st') (hst : st.BookkeepingSound ∧ st.RoundRobin) :
    st'.BookkeepingSound ∧ st'.RoundRobin :=
  ⟨h.soundness_iff.2 hst.1, h.roundRobin hst.2⟩

lemma SameLists.refl (st : MultiServerAbstraction) : st.SameLists st :=
  ⟨rfl, rfl, rfl, rfl, rfl, rfl, rfl⟩

lemma SameLists.cookie {inputs : List CookieInput} {k : Cookie}
    (h : st.cookie hash toUInt c inputs = .returned (k, st')) : st.SameLists st' ∧
      st'.connections c = { st.connections c with cookie := some k } := by
  unfold MultiServerAbstraction.cookie at h
  cases hcookie : (st.connections c).cookie with
  | some k' =>
      rw [hcookie] at h
      cases h
      refine ⟨.refl st, ?_⟩
      rw [← hcookie]
  | none =>
      rw [hcookie] at h
      obtain ⟨r, -, hr⟩ := Asked.map_eq_returned_iff.1 h
      cases hr
      exact ⟨⟨rfl, rfl, rfl, rfl, rfl, rfl, rfl⟩, Function.update_self ..⟩

lemma not_sound_usedDeleted : ¬ { st with usedDeleted := true }.BookkeepingSound :=
  fun h => Bool.noConfusion h.usedDeleted

lemma sound_generating (h : st.BookkeepingSound ∧ st.RoundRobin) :
    { st with generating := true }.BookkeepingSound ∧
      { st with generating := true }.RoundRobin := by
  have hsame : st.SameLists { st with generating := true } := ⟨rfl, rfl, rfl, rfl, rfl, rfl, rfl⟩
  exact hsame.sound h

lemma roundRobin_usedDeleted (hI : st.RoundRobin) : { st with usedDeleted := true }.RoundRobin :=
  ⟨hI.nodup, hI.destroyed⟩

lemma asksNobodyDeleted_iff {inputs : List CookieInput} : ((st.connections c).cookie = none →
    ∀ k ∈ drawn hash toUInt st.overflowingClientIdsUsedAsInputForMd5er inputs,
      ¬ st.ReadsDeleted k) ↔ st.cookie hash toUInt c inputs ≠ .undefined := by
  rw [Ne, cookie_undefined_iff]
  simp

/-- **The welcome**: the lists are left alone, unless a deleted connection is asked. -/
lemma BookkeepingSound.welcome_iff (h : st.BookkeepingSound ∧ st.RoundRobin)
    (inputs : List CookieInput) : (st.welcome hash toUInt c inputs).RoundRobin ∧
      ((st.welcome hash toUInt c inputs).BookkeepingSound ↔ ((st.connections c).cookie = none →
        ∀ k ∈ drawn hash toUInt st.overflowingClientIdsUsedAsInputForMd5er inputs,
          ¬ st.ReadsDeleted k)) := by
  rw [asksNobodyDeleted_iff hash toUInt]
  unfold MultiServerAbstraction.welcome
  cases hcookie : st.cookie hash toUInt c inputs with
  | returned r =>
      have hsame := (SameLists.cookie hash toUInt hcookie).1
      have hsend : st.SameLists (r.2.send c r.1) := ⟨hsame.helloed, hsame.queue,
        hsame.deletedLater, hsame.destroyed, hsame.bad, hsame.selected, hsame.usedDeleted⟩
      exact ⟨(hsend.sound h).2, iff_of_true (hsend.sound h).1 nofun⟩
  | running =>
      exact ⟨(sound_generating h).2, iff_of_true (sound_generating h).1 nofun⟩
  | undefined =>
      exact ⟨roundRobin_usedDeleted h.2, iff_of_false not_sound_usedDeleted (by simp)⟩

/-- What is queued is not queued any more. -/
lemma BookkeepingSound.queue_dontBroadcastTo (h : st.BookkeepingSound) (c : ConnectionId) :
    (st.dontBroadcastTo c).roundRobinQueue = st.roundRobinQueue.filter (· ≠ c) := by
  unfold MultiServerAbstraction.dontBroadcastTo
  dsimp only
  split
  · rfl
  · next hcount =>
      have habsent : c ∉ st.listOfHelloedConnections := by
        rw [List.Nodup.count h.helloed_nodup] at hcount
        exact fun hc => hcount (if_pos hc)
      refine (List.filter_eq_self.2 fun c' hc' => decide_eq_true ?_).symm
      rintro rfl
      exact habsent (h.queue_helloed c' hc')

/-- **A connection leaves** the list of those that are helloed. -/
lemma BookkeepingSound.dontBroadcastTo (h : st.BookkeepingSound) (c : ConnectionId) :
    (st.dontBroadcastTo c).BookkeepingSound where
  helloed_nodup := h.helloed_nodup.filter _
  helloed_alive c' hc' := h.helloed_alive c' (List.mem_of_mem_filter hc')
  helloed_good c' hc' := h.helloed_good c' (List.mem_of_mem_filter hc')
  queue_helloed c' hc' := by
    rw [h.queue_dontBroadcastTo] at hc'
    obtain ⟨hqueue, hne⟩ := List.mem_filter.1 hc'
    exact List.mem_filter.2 ⟨h.queue_helloed c' hqueue, hne⟩
  queue_nodup := by
    rw [h.queue_dontBroadcastTo]
    exact h.queue_nodup.filter _
  selected_nodup := h.selected_nodup
  usedDeleted := h.usedDeleted

lemma BookkeepingSound.roundRobin_dontBroadcastTo (h : st.BookkeepingSound) (hI : st.RoundRobin)
    (c : ConnectionId) : (st.dontBroadcastTo c).RoundRobin where
  nodup := by
    rw [h.queue_dontBroadcastTo]
    exact hI.nodup.sublist (List.filter_sublist.append_left _)
  destroyed := hI.destroyed

lemma BookkeepingSound.makeConnectionBad (h : st.BookkeepingSound) (hI : st.RoundRobin)
    (c : ConnectionId) :
    (st.makeConnectionBad c).BookkeepingSound ∧ (st.makeConnectionBad c).RoundRobin := by
  have hsound := h.dontBroadcastTo c
  have hround := h.roundRobin_dontBroadcastTo hI c
  refine ⟨⟨hsound.helloed_nodup, hsound.helloed_alive, fun c' hc' => ?_, hsound.queue_helloed,
    hsound.queue_nodup, hsound.selected_nodup, hsound.usedDeleted⟩, hround.nodup, hround.destroyed⟩
  obtain ⟨hhelloed, hne⟩ := List.mem_filter.1 hc'
  exact List.not_mem_cons_of_ne_of_not_mem (of_decide_eq_true hne) (h.helloed_good c' hhelloed)

/-- **A connection enters** the list. -/
lemma BookkeepingSound.connectionDoneHelloing_iff (h : st.BookkeepingSound) (c : ConnectionId) :
    (st.connectionDoneHelloing c).BookkeepingSound ↔
      c ∉ st.listOfHelloedConnections ∧ st.Alive c := by
  constructor
  · intro hsound
    refine ⟨?_, hsound.helloed_alive c (List.mem_append_right _ List.mem_cons_self)⟩
    exact fun hc => (List.nodup_append.1 hsound.helloed_nodup).2.2 c hc c List.mem_cons_self rfl
  · rintro ⟨habsent, halive⟩
    refine ⟨?_, fun c' hc' => ?_, fun c' hc' => ?_,
      fun c' hc' => List.mem_append_left _ (h.queue_helloed c' hc'), h.queue_nodup,
      h.selected_nodup, h.usedDeleted⟩
    · refine List.nodup_append.2 ⟨h.helloed_nodup, List.nodup_singleton c, ?_⟩
      rintro c₁ hc₁ c₂ hc₂ rfl
      exact habsent (List.mem_singleton.1 hc₂ ▸ hc₁)
    · rcases List.mem_append.1 hc' with hc' | hc'
      · exact h.helloed_alive c' hc'
      · exact List.mem_singleton.1 hc' ▸ halive
    · unfold connectionDoneHelloing
      dsimp only
      rw [List.mem_filter]
      rintro ⟨hbad, hne⟩
      rcases List.mem_append.1 hc' with hc' | hc'
      · exact h.helloed_good c' hc' hbad
      · exact of_decide_eq_true hne (List.mem_singleton.1 hc')

lemma RoundRobin.connectionDoneHelloing (hI : st.RoundRobin) (c : ConnectionId) :
    (st.connectionDoneHelloing c).RoundRobin := ⟨hI.nodup, hI.destroyed⟩

/-- Connections are handed to `deleteLater`. -/
lemma sound_deletedLater_iff (c : ConnectionId) :
    { st with deletedLater := st.deletedLater ++ [c] }.BookkeepingSound ↔
      st.BookkeepingSound ∧ c ∉ st.listOfHelloedConnections := by
  constructor
  · intro hsound
    refine ⟨⟨hsound.helloed_nodup, fun c' hc' => ?_, hsound.helloed_good, hsound.queue_helloed,
      hsound.queue_nodup, hsound.selected_nodup, hsound.usedDeleted⟩, fun hc => ?_⟩
    · have halive := hsound.helloed_alive c' hc'
      exact ⟨fun hdeleted => halive.1 (List.mem_append_left _ hdeleted), halive.2⟩
    · exact (hsound.helloed_alive c hc).1 (List.mem_append_right _ List.mem_cons_self)
  · rintro ⟨h, habsent⟩
    refine ⟨h.helloed_nodup, fun c' hc' => ⟨?_, (h.helloed_alive c' hc').2⟩, h.helloed_good,
      h.queue_helloed, h.queue_nodup, h.selected_nodup, h.usedDeleted⟩
    intro hdeleted
    rcases List.mem_append.1 hdeleted with hdeleted | hdeleted
    · exact (h.helloed_alive c' hc').1 hdeleted
    · exact habsent (List.mem_singleton.1 hdeleted ▸ hc')

/-- What a confirmed cookie does. -/
lemma BookkeepingSound.doneHelloing_iff (h : st.BookkeepingSound) (hI : st.RoundRobin)
    (c : ConnectionId) (disconnected : Bool) :
    (st.doneHelloing c disconnected).RoundRobin ∧
      ((st.doneHelloing c disconnected).BookkeepingSound ↔
        match (st.connections c).oldConnectionToMergeOnto with
        | none => c ∉ st.listOfHelloedConnections ∧ st.Alive c
        | some old => c ≠ old ∧ c ∉ st.listOfHelloedConnections ∧ st.Alive old ∧
            (disconnected ∨ old ∉ st.listOfHelloedConnections)) := by
  unfold doneHelloing
  cases (st.connections c).oldConnectionToMergeOnto with
  | none => exact ⟨hI.connectionDoneHelloing c, h.connectionDoneHelloing_iff c⟩
  | some old =>
      dsimp only
      by_cases hdestroyed : old ∈ st.destroyed
      · rw [if_pos hdestroyed]
        exact ⟨roundRobin_usedDeleted hI,
          iff_of_false not_sound_usedDeleted fun hok => hok.2.2.1.2 hdestroyed⟩
      rw [if_neg hdestroyed]
      set st₁ := if disconnected then st.makeConnectionBad old else st with hst₁
      obtain ⟨hsound, hround, halive, hhelloed⟩ : st₁.BookkeepingSound ∧ st₁.RoundRobin ∧
          (st₁.Alive old ↔ st.Alive old) ∧ st₁.listOfHelloedConnections =
            if disconnected then st.listOfHelloedConnections.filter (· ≠ old)
            else st.listOfHelloedConnections := by
        cases disconnected with
        | true =>
            have hbad := h.makeConnectionBad hI old
            exact ⟨hbad.1, hbad.2, Iff.rfl, rfl⟩
        | false => exact ⟨h, hI, Iff.rfl, rfl⟩
      have hsame : st₁.SameLists (st₁.setConnection old fun connection =>
          { connection with client := (st.connections c).client }) :=
        ⟨rfl, rfl, rfl, rfl, rfl, rfl, rfl⟩
      have hmerged := hsame.roundRobin hround
      refine ⟨⟨hmerged.nodup, fun c' hc' => List.mem_append_left _ (hmerged.destroyed c' hc')⟩, ?_⟩
      rw [sound_deletedLater_iff, mergeNewIoDevice, ← hst₁,
        (hsame.soundness_iff.2 hsound).connectionDoneHelloing_iff]
      change (old ∉ st₁.listOfHelloedConnections ∧ st₁.Alive old) ∧
        c ∉ st₁.listOfHelloedConnections ++ [old] ↔ _
      rw [halive, hhelloed, List.mem_append, List.mem_singleton]
      cases disconnected with
      | true => simp only [if_true, List.mem_filter, decide_not]; grind
      | false => simp only [Bool.false_eq_true, if_false]; grind

/-! ## Round robin -/

lemma takeAtRandom_perm (qrand : ℕ → ℕ) (indexesRemaining : List ℕ) :
    (takeAtRandom qrand indexesRemaining.length indexesRemaining).Perm indexesRemaining := by
  induction hn : indexesRemaining.length generalizing indexesRemaining with
  | zero =>
      obtain rfl := List.length_eq_zero_iff.1 hn
      exact List.Perm.refl _
  | succ n ih =>
      have hlt : qrand n % indexesRemaining.length < indexesRemaining.length :=
        Nat.mod_lt _ (by omega)
      have hrest := ih (indexesRemaining.eraseIdx (qrand n % indexesRemaining.length)) (by
        rw [List.length_eraseIdx_of_lt hlt]
        omega)
      rw [takeAtRandom, List.getElem?_eq_getElem hlt, Option.toList_some, List.singleton_append]
      exact (hrest.cons _).trans (List.getElem_cons_eraseIdx_perm hlt)

lemma filterMap_range (l : List ConnectionId) : (List.range l.length).filterMap (l[·]?) = l := by
  induction l with
  | nil => rfl
  | cons c rest ih =>
      rw [List.length_cons, List.range_succ_eq_map, List.filterMap_cons_some (by rfl),
        List.filterMap_map]
      exact congrArg _ ih

/-- **A refill** queues everybody that is helloed. -/
lemma refill_perm (hempty : st.roundRobinQueue = []) (qrand : ℕ → ℕ) :
    (st.refillRoundRobinFromHellodConnections qrand).roundRobinQueue.Perm
      st.listOfHelloedConnections := by
  have hperm := takeAtRandom_perm qrand (List.range st.listOfHelloedConnections.length)
  rw [List.length_range] at hperm
  have hqueue := hperm.filterMap (st.listOfHelloedConnections[·]?)
  rw [filterMap_range] at hqueue
  unfold refillRoundRobinFromHellodConnections
  rw [hempty]
  exact hqueue

lemma BookkeepingSound.dequeue (h : st.BookkeepingSound) (hI : st.RoundRobin) :
    st.dequeue.BookkeepingSound ∧ st.dequeue.RoundRobin := by
  unfold MultiServerAbstraction.dequeue
  cases hqueue : st.roundRobinQueue with
  | nil => exact ⟨h, hI⟩
  | cons c rest =>
      have hnodup := hI.nodup
      have hhelloed := h.queue_helloed
      have hrest := h.queue_nodup
      rw [hqueue] at hnodup hhelloed hrest
      rw [List.append_cons] at hnodup
      exact ⟨⟨h.helloed_nodup, h.helloed_alive, h.helloed_good,
        fun c' hc' => hhelloed c' (List.mem_cons_of_mem c hc'), hrest.of_cons,
        hnodup.of_append_left, h.usedDeleted⟩, hnodup, hI.destroyed⟩

lemma BookkeepingSound.selectForBroadcast (h : st.BookkeepingSound) (hI : st.RoundRobin)
    (qrand : ℕ → ℕ) :
    (st.selectForBroadcast qrand).BookkeepingSound ∧ (st.selectForBroadcast qrand).RoundRobin := by
  unfold MultiServerAbstraction.selectForBroadcast
  split
  · next hempty =>
      have hperm := refill_perm hempty qrand
      have hnodup := hperm.nodup_iff.2 h.helloed_nodup
      refine BookkeepingSound.dequeue ?_ ?_
      · exact ⟨h.helloed_nodup, h.helloed_alive, h.helloed_good, fun c hc => hperm.mem_iff.1 hc,
          hnodup, List.nodup_nil, h.usedDeleted⟩
      · exact ⟨hnodup, hI.destroyed⟩
  · exact h.dequeue hI

/-! ## Events -/

/-- A connection looks for an old one that it can be merged onto. -/
lemma BookkeepingSound.potentialMerge (h : st.BookkeepingSound ∧ st.RoundRobin) {k : Cookie}
    {inputs : List CookieInput}
    (hmerge : st.potentialMerge hash toUInt c k inputs = .returned st') :
    (st'.BookkeepingSound ∧ st'.RoundRobin) ∧
      (st'.connections c).cookie = (st.connections c).cookie := by
  obtain ⟨found, -, rfl⟩ := Asked.map_eq_returned_iff.1 hmerge
  cases found with
  | none => exact ⟨h, rfl⟩
  | some old =>
      have hsame : (st.dontBroadcastTo old).SameLists
          ((st.dontBroadcastTo old).setConnection c fun connection =>
            { connection with oldConnectionToMergeOnto := some old }) :=
        ⟨rfl, rfl, rfl, rfl, rfl, rfl, rfl⟩
      refine ⟨hsame.sound ⟨h.1.dontBroadcastTo old, h.1.roundRobin_dontBroadcastTo h.2 old⟩, ?_⟩
      simp [setConnection, MultiServerAbstraction.dontBroadcastTo]

/-- **A hello**, with a cookie or without one. -/
lemma BookkeepingSound.initialHello_iff (h : st.BookkeepingSound) (hI : st.RoundRobin)
    (cookie : Option Cookie) (inputs : List CookieInput) :
    (st.initialHello hash toUInt c cookie inputs).RoundRobin ∧
      ((st.initialHello hash toUInt c cookie inputs).BookkeepingSound ↔
        (∀ k, cookie = some k → ¬ (st.setConnection c fun connection =>
          { connection with cookie := some k }).ReadsDeleted k) ∧
        (cookie = none → (st.connections c).cookie = none →
          ∀ k ∈ drawn hash toUInt st.overflowingClientIdsUsedAsInputForMd5er inputs,
            ¬ st.ReadsDeleted k)) := by
  have hsame : st.SameLists (st.setConnection c fun connection =>
      { connection with oldConnectionToMergeOnto := none }) := ⟨rfl, rfl, rfl, rfl, rfl, rfl, rfl⟩
  have hreset := hsame.sound ⟨h, hI⟩
  unfold MultiServerAbstraction.initialHello
  cases cookie with
  | none =>
      have hcookie (c' : ConnectionId) : ((st.setConnection c fun connection =>
          { connection with oldConnectionToMergeOnto := none }).connections c').cookie =
            (st.connections c').cookie :=
        connections_setConnection_congr (g := ClientConnection.cookie) rfl c'
      have hreads (k : Cookie) : (st.setConnection c fun connection =>
          { connection with oldConnectionToMergeOnto := none }).ReadsDeleted k ↔
            st.ReadsDeleted k := readsDeleted_congr rfl rfl hcookie
      have hwelcome := BookkeepingSound.welcome_iff hash toUInt (c := c) hreset inputs
      simp only [hreads, hcookie] at hwelcome
      have hnot (k : Cookie) : none ≠ some k := (Option.some_ne_none k).symm
      exact ⟨hwelcome.1, hwelcome.2.trans ⟨fun hnone => ⟨fun k heq => absurd heq (hnot k),
        fun _ => hnone⟩, fun hnone => hnone.2 rfl⟩⟩
  | some k =>
      have hcondition {P : Cookie → Prop} {Q : Prop} :
          (∀ k', some k = some k' → P k') ∧ (some k = none → Q) ↔ P k :=
        ⟨fun hboth => hboth.1 k rfl, fun hk => ⟨fun k' heq => Option.some.inj heq ▸ hk,
          fun heq => absurd heq (Option.some_ne_none k)⟩⟩
      dsimp only
      rw [hcondition, ← readsDeleted_hello_iff]
      generalize st.setConnection c (fun connection =>
        { connection with oldConnectionToMergeOnto := none }) = st₁ at hreset ⊢
      have hsame : st₁.SameLists (st₁.setConnection c fun connection =>
          { connection with cookie := some k }) := ⟨rfl, rfl, rfl, rfl, rfl, rfl, rfl⟩
      have hgiven := hsame.sound hreset
      have hcookie : ((st₁.setConnection c fun connection =>
          { connection with cookie := some k }).connections c).cookie = some k :=
        congrArg ClientConnection.cookie connections_setConnection_self
      generalize (st₁.setConnection c fun connection =>
        { connection with cookie := some k }) = st₂ at hgiven hcookie ⊢
      rw [← getExistingConnectionUsingCookie_undefined_iff hash toUInt inputs,
        ← Asked.map_eq_undefined_iff, ← MultiServerAbstraction.potentialMerge.eq_def]
      cases hmerge : st₂.potentialMerge hash toUInt c k inputs with
      | returned st₃ =>
          obtain ⟨hmerged, hkeeps⟩ := BookkeepingSound.potentialMerge hash toUInt hgiven hmerge
          have hwelcome := BookkeepingSound.welcome_iff hash toUInt (c := c) hmerged inputs
          rw [hkeeps, hcookie] at hwelcome
          exact ⟨hwelcome.1, iff_of_true
            (hwelcome.2.2 fun heq => absurd heq (Option.some_ne_none k)) (by simp)⟩
      | running =>
          exact ⟨(sound_generating hgiven).2, iff_of_true (sound_generating hgiven).1 (by simp)⟩
      | undefined =>
          exact ⟨roundRobin_usedDeleted hgiven.2, iff_of_false not_sound_usedDeleted (by simp)⟩

lemma BookkeepingSound.thankYou_iff (h : st.BookkeepingSound) (hI : st.RoundRobin)
    (c : ConnectionId) (k : Cookie) (inputs : List CookieInput) (disconnected : Bool) :
    (st.thankYouForWelcomingMe hash toUInt c k inputs disconnected).RoundRobin ∧
      ((st.thankYouForWelcomingMe hash toUInt c k inputs disconnected).BookkeepingSound ↔
        ((st.connections c).cookie = none →
          ∀ k ∈ drawn hash toUInt st.overflowingClientIdsUsedAsInputForMd5er inputs,
            ¬ st.ReadsDeleted k) ∧
        ((st.cookie hash toUInt c inputs).map (·.1) = .returned k →
          match (st.connections c).oldConnectionToMergeOnto with
          | none => c ∉ st.listOfHelloedConnections ∧ st.Alive c
          | some old => c ≠ old ∧ c ∉ st.listOfHelloedConnections ∧ st.Alive old ∧
              (disconnected ∨ old ∉ st.listOfHelloedConnections))) := by
  rw [asksNobodyDeleted_iff hash toUInt]
  unfold thankYouForWelcomingMe
  cases hcookie : st.cookie hash toUInt c inputs with
  | running =>
      have hkeeps := sound_generating ⟨h, hI⟩
      exact ⟨hkeeps.2, iff_of_true hkeeps.1 ⟨nofun, nofun⟩⟩
  | undefined =>
      exact ⟨roundRobin_usedDeleted hI, iff_of_false not_sound_usedDeleted fun hok => hok.1 rfl⟩
  | returned r =>
      obtain ⟨k', st'⟩ := r
      obtain ⟨hsame, hconnection⟩ := SameLists.cookie hash toUInt hcookie
      have hkeeps := hsame.sound ⟨h, hI⟩
      dsimp only [andThen, Asked.map]
      by_cases hk : k = k'
      · subst hk
        obtain ⟨hround, hiff⟩ := hkeeps.1.doneHelloing_iff hkeeps.2 c disconnected
        have hsend : (st'.doneHelloing c disconnected).SameLists
            ((st'.doneHelloing c disconnected).send c k) := ⟨rfl, rfl, rfl, rfl, rfl, rfl, rfl⟩
        rw [if_pos rfl, hsend.soundness_iff, hiff, hconnection]
        unfold Alive
        rw [hsame.helloed, hsame.deletedLater, hsame.destroyed]
        exact ⟨hsend.roundRobin hround, by simp⟩
      · rw [if_neg hk]
        refine ⟨hkeeps.2, iff_of_true hkeeps.1 ⟨nofun, fun heq => ?_⟩⟩
        exact absurd (Asked.returned.inj heq).symm hk

/-- **A step**, where the bookkeeping was sound. -/
theorem BookkeepingSound.step_iff (h : st.BookkeepingSound) (hI : st.RoundRobin) (x : Event) :
    (st.step hash toUInt x).RoundRobin ∧ ((st.step hash toUInt x).BookkeepingSound ↔
      st.AsksNoneDeleted hash toUInt x ∧ st.EntersOnce hash toUInt x) := by
  have hkeeps {st' : MultiServerAbstraction} (hst' : st'.BookkeepingSound ∧ st'.RoundRobin)
      (hasks : st.AsksNoneDeleted hash toUInt x) (henters : st.EntersOnce hash toUInt x) :
      st'.RoundRobin ∧ (st'.BookkeepingSound ↔
        st.AsksNoneDeleted hash toUInt x ∧ st.EntersOnce hash toUInt x) :=
    ⟨hst'.2, iff_of_true hst'.1 ⟨hasks, henters⟩⟩
  unfold step
  split
  · next hstopped =>
      have hgenerating : st.generating = true :=
        hstopped.resolve_right (by simp [h.usedDeleted])
      refine hkeeps ⟨h, hI⟩ ?_ ?_
      · unfold AsksNoneDeleted
        split
        · exact fun hnot => absurd hgenerating (by simp [hnot])
        · trivial
      · unfold EntersOnce
        split
        · exact fun hnot => absurd hgenerating (by simp [hnot])
        · trivial
  next hgoesOn =>
  have hgenerating : st.generating = false := by
    simpa using fun hgenerating => hgoesOn (.inl hgenerating)
  cases x with
  | newClientConnected client =>
      have hsame : st.SameLists (st.handleNewClientConnected client) :=
        ⟨rfl, rfl, rfl, rfl, rfl, rfl, rfl⟩
      exact hkeeps (hsame.sound ⟨h, hI⟩) trivial trivial
  | messageReceived c message inputs disconnected =>
      dsimp only
      split
      · next hexists =>
          unfold messageReceived AsksNoneDeleted EntersOnce
          dsimp only
          simp only [hgenerating, hexists, forall_const]
          cases MessageFromClient.ofMessage message with
          | initialHello cookie =>
              refine (h.initialHello_iff hash toUInt (c := c) hI cookie inputs).imp_right
                fun hiff => ?_
              rw [hiff]
              cases cookie with
              | none => simp
              | some k => simp
          | other => exact ⟨hI, iff_of_true h ⟨trivial, trivial⟩⟩
          | thankYouForWelcomingMe k =>
              exact h.thankYou_iff hash toUInt hI c k inputs disconnected
      · next hexists =>
          exact hkeeps ⟨h, hI⟩ (fun _ hc => absurd hc hexists) fun _ hc => absurd hc hexists
  | makeConnectionBad c =>
      dsimp only
      split
      · exact hkeeps (h.makeConnectionBad hI c) trivial trivial
      · exact hkeeps ⟨h, hI⟩ trivial trivial
  | selectForBroadcast qrand => exact hkeeps (h.selectForBroadcast hI qrand) trivial trivial
  | destroy c =>
      dsimp only
      split
      · next hc =>
          refine hkeeps ⟨⟨h.helloed_nodup, fun c' hc' => ?_, h.helloed_good, h.queue_helloed,
            h.queue_nodup, h.selected_nodup, h.usedDeleted⟩, hI.nodup, fun c' hc' => ?_⟩
              trivial trivial
          · have halive := h.helloed_alive c' hc'
            refine ⟨halive.1, List.not_mem_cons_of_ne_of_not_mem ?_ halive.2⟩
            rintro rfl
            exact halive.1 hc.2
          · rcases List.mem_cons.1 hc' with rfl | hc'
            · exact hc.2
            · exact hI.destroyed c' hc'
      · exact hkeeps ⟨h, hI⟩ trivial trivial

end Lists

/-! ## Runs -/

/-- **The bookkeeping stays sound**, in every state of a run, if and only if no deleted connection
is asked for its cookie, and nobody enters the list of those that are helloed who is in it or going
to be deleted.

A selected connection is written to without being looked up, so a stale pointer among those that may
be selected is a write into freed memory.  That the soundness is kept is proved for one event
(`BookkeepingSound.step_iff`), with the condition on both sides, so that the run lemma gives both
directions. -/
theorem bookkeeping_sound_iff (events : List Event) :
    Machine.HoldsThroughout (step hash toUInt) BookkeepingSound {} events ↔
      Machine.StaysWithin (step hash toUInt)
        (fun st x => st.AsksNoneDeleted hash toUInt x ∧ st.EntersOnce hash toUInt x) {} events := by
  refine Machine.holdsThroughout_iff_staysWithin (I := RoundRobin) (fun _ => True)
    (fun st x _ hI hP _ => (hP.step_iff hash toUInt hI x).1)
    (fun st x _ hI hP => (hP.step_iff hash toUInt hI x).2) (fun _ _ => trivial) ?_ ?_
  · exact ⟨List.nodup_nil, by simp⟩
  · exact ⟨List.nodup_nil, by simp, by simp, by simp, List.nodup_nil, List.nodup_nil, rfl⟩

/-- A client confirms its cookie twice. -/
def thanksTwice : List Event :=
  [.newClientConnected 0, .messageReceived 0 [1, 0] [⟨[], 0⟩] false,
    .messageReceived 0 [2, 0, 0, 0, 0] [] false, .messageReceived 0 [2, 0, 0, 0, 0] [] false]

theorem not_bookkeeping_sound : ¬ ∀ hash toUInt events,
    Machine.HoldsThroughout (step hash toUInt) BookkeepingSound {} events := by
  intro hsound
  have hfinal := (hsound id (fun _ => 0) thanksTwice).run.helloed_nodup
  exact absurd hfinal (by decide +kernel)

end MultiServerAbstraction

end Autobackup.Network
