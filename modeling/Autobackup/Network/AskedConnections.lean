import Autobackup.Network.MultiServer

/-!
# Asking connections for their cookies

Both a hello with a cookie and the generation of a new one go through the connections that are
helloed or dead, and ask each for its cookie.  Two things can go wrong with one that is asked.  It
may have no cookie and generate one itself, which asks it again, and so for ever.  Or it may be
deleted: the list of dead connections keeps those that were made bad and merged afterwards.

`ReadsDeleted` says of a state whether looking for a cookie meets a deleted connection.  It is what
decides, in every case, whether a call has a defined outcome (`generateUnusedCookie_undefined_iff`,
`getExistingConnectionUsingCookie_undefined_iff`), so it can stand in conditions in place of the
calls.
-/

namespace Autobackup.Network

/-! ## Outcomes -/

namespace Asked

variable {α β : Type} {f : α → β} {asked : Asked α}

/-- What has not come to an end is still running. -/
def ofOption : Option α → Asked α
  | some a => .returned a
  | none => .running

@[simp] lemma map_eq_undefined_iff : asked.map f = .undefined ↔ asked = .undefined := by
  cases asked <;> simp [map]

@[simp] lemma map_eq_running_iff : asked.map f = .running ↔ asked = .running := by
  cases asked <;> simp [map]

lemma map_eq_returned_iff {b : β} :
    asked.map f = .returned b ↔ ∃ a, asked = .returned a ∧ f a = b := by
  cases asked <;> simp [map]

lemma ofOption_eq_returned_iff {x : Option α} {a : α} :
    ofOption x = .returned a ↔ x = some a := by
  cases x <;> simp [ofOption]

end Asked

namespace MultiServerAbstraction

/-! ## Conditions on a state -/

/-- A connection that is helloed or dead has the cookie. -/
def InUse (st : MultiServerAbstraction) (k : Cookie) : Prop :=
  ∃ c ∈ st.listed, (st.connections c).cookie = some k
  deriving Decidable

/-- Whoever looks for the cookie comes to a deleted connection, and not before to one that has the
cookie, or that has none. -/
def MeetsDeleted (st : MultiServerAbstraction) (k : Cookie) : List ConnectionId → Prop
  | [] => False
  | c :: rest =>
      c ∈ st.destroyed ∨
        ((st.connections c).cookie.isSome ∧ (st.connections c).cookie ≠ some k) ∧
          st.MeetsDeleted k rest

def ReadsDeleted (st : MultiServerAbstraction) (k : Cookie) : Prop := st.MeetsDeleted k st.listed

variable (hash : List Byte → List Byte) (toUInt : List Byte → Cookie)

/-- The cookies that `generateCookie` makes of the inputs. -/
def drawn : UInt32 → List CookieInput → List Cookie
  | _, [] => []
  | counter, input :: inputs =>
      generateCookie hash toUInt (counter + 1) input :: drawn (counter + 1) inputs

/-- No deleted connection is asked for its cookie when the message is received.  A connection that
says hello with a cookie has that cookie when it is looked for. -/
def AsksNoneDeleted (st : MultiServerAbstraction) (x : Event) : Prop :=
  match x with
  | .messageReceived c message inputs _ =>
      st.generating = false → st.Exists c →
        match MessageFromClient.ofMessage message with
        | .initialHello (some k) => ¬ (st.setConnection c fun connection =>
            { connection with cookie := some k }).ReadsDeleted k
        | .initialHello none | .thankYouForWelcomingMe _ => (st.connections c).cookie = none →
            ∀ k ∈ drawn hash toUInt st.overflowingClientIdsUsedAsInputForMd5er inputs,
              ¬ st.ReadsDeleted k
        | .other => True
  | _ => True

/-! ## Looking for a cookie -/

section Find

variable {st : MultiServerAbstraction} {k : Cookie} {l : List ConnectionId} {c : ConnectionId}
  {generate : Asked Cookie}

instance decidableMeetsDeleted (st : MultiServerAbstraction) (k : Cookie) :
    (l : List ConnectionId) → Decidable (st.MeetsDeleted k l)
  | [] => inferInstanceAs (Decidable False)
  | c :: rest =>
      have := decidableMeetsDeleted st k rest
      inferInstanceAs (Decidable (c ∈ st.destroyed ∨ _ ∧ st.MeetsDeleted k rest))

instance (st : MultiServerAbstraction) (k : Cookie) : Decidable (st.ReadsDeleted k) :=
  decidableMeetsDeleted st k st.listed

lemma MeetsDeleted.exists_destroyed (h : st.MeetsDeleted k l) : ∃ c ∈ l, c ∈ st.destroyed := by
  induction l with
  | nil => exact h.elim
  | cons c rest ih =>
      rcases h with hc | ⟨-, hrest⟩
      · exact ⟨c, List.mem_cons_self, hc⟩
      · obtain ⟨c', hc', hdestroyed⟩ := ih hrest
        exact ⟨c', List.mem_cons_of_mem c hc', hdestroyed⟩

/-- Only the cookies and the lists matter. -/
lemma readsDeleted_congr {st' : MultiServerAbstraction} (hlisted : st'.listed = st.listed)
    (hdestroyed : st'.destroyed = st.destroyed)
    (hcookie : ∀ c, (st'.connections c).cookie = (st.connections c).cookie) :
    st'.ReadsDeleted k ↔ st.ReadsDeleted k := by
  unfold ReadsDeleted
  rw [hlisted]
  induction st.listed with
  | nil => exact Iff.rfl
  | cons c rest ih => rw [MeetsDeleted, MeetsDeleted, hdestroyed, hcookie, ih]

/-- What a connection that says hello was to be merged onto does not matter. -/
lemma readsDeleted_hello_iff : ((st.setConnection c fun connection =>
      { connection with oldConnectionToMergeOnto := none }).setConnection c fun connection =>
        { connection with cookie := some k }).ReadsDeleted k ↔
    (st.setConnection c fun connection => { connection with cookie := some k }).ReadsDeleted k := by
  refine readsDeleted_congr rfl rfl fun c' => ?_
  by_cases hc' : c' = c
  · simp [setConnection, hc']
  · simp [setConnection, hc']

lemma ask_of_destroyed (hc : c ∈ st.destroyed) : st.ask generate c = .undefined := if_pos hc

lemma ask_of_cookie (hc : c ∉ st.destroyed) (hcookie : (st.connections c).cookie = some k) :
    st.ask generate c = .returned k := by
  rw [ask, if_neg hc, hcookie]

lemma ask_of_no_cookie (hc : c ∉ st.destroyed) (hcookie : (st.connections c).cookie = none) :
    st.ask generate c = generate := by
  rw [ask, if_neg hc, hcookie]

/-- **Where a search ends**, if every connection has a cookie and no deleted one is met. -/
lemma findCookie_of_isSome (generate : Asked Cookie)
    (hall : ∀ c ∈ l, (st.connections c).cookie.isSome)
    (hmeets : ¬ st.MeetsDeleted k l) : ∃ found,
      findCookie (st.ask generate) k l = .returned found ∧
        (found = none → ¬ ∃ c ∈ l, (st.connections c).cookie = some k) ∧
        ∀ c, found = some c → c ∈ l ∧ (st.connections c).cookie = some k := by
  induction l with
  | nil => exact ⟨none, rfl, by simp, by simp⟩
  | cons c rest ih =>
      obtain ⟨k', hk'⟩ := Option.isSome_iff_exists.1 (hall c List.mem_cons_self)
      have hc : c ∉ st.destroyed := fun hc => hmeets (.inl hc)
      rw [findCookie, ask_of_cookie hc hk']
      by_cases heq : k' = k
      · subst heq
        refine ⟨some c, if_pos rfl, by simp, fun c' hc' => ?_⟩
        obtain rfl := Option.some.inj hc'
        exact ⟨List.mem_cons_self, hk'⟩
      · have hrest : ¬ st.MeetsDeleted k rest := fun hrest =>
          hmeets (.inr ⟨by rw [hk']; simpa using heq, hrest⟩)
        obtain ⟨found, hfound, hnone, hsome⟩ :=
          ih (fun c' hc' => hall c' (List.mem_cons_of_mem c hc')) hrest
        refine ⟨found, (if_neg heq).trans hfound, fun hf => ?_, fun c' hc' => ?_⟩
        · simpa [hk', heq] using hnone hf
        · exact ⟨List.mem_cons_of_mem c (hsome c' hc').1, (hsome c' hc').2⟩

/-- A search that comes to its end has asked everybody, and everybody has answered. -/
lemma exists_ask_of_findCookie (h : findCookie (st.ask generate) k l = .returned none)
    (hc : c ∈ l) : ∃ k', st.ask generate c = .returned k' := by
  induction l with
  | nil => cases hc
  | cons c' rest ih =>
      rw [findCookie] at h
      cases hask : st.ask generate c' with
      | returned k' =>
          rw [hask] at h
          rcases List.mem_cons.1 hc with rfl | hc
          · exact ⟨k', hask⟩
          · dsimp only at h
            split at h
            · cases h
            · exact ih h hc
      | running =>
          rw [hask] at h
          cases h
      | undefined =>
          rw [hask] at h
          cases h

/-- A search that does not come to its end is generating a cookie. -/
lemma eq_running_of_findCookie (h : findCookie (st.ask generate) k l = .running) :
    generate = .running := by
  induction l with
  | nil => cases h
  | cons c rest ih =>
      rw [findCookie, ask] at h
      by_cases hc : c ∈ st.destroyed
      · rw [if_pos hc] at h
        cases h
      · rw [if_neg hc] at h
        cases hcookie : (st.connections c).cookie with
        | some k' =>
            rw [hcookie] at h
            dsimp only at h
            split at h
            · cases h
            · exact ih h
        | none =>
            rw [hcookie] at h
            cases generate with
            | returned k' =>
                dsimp only at h
                split at h
                · cases h
                · exact ih h
            | running => rfl
            | undefined => cases h

/-- **When a search is undefined.**  Generating a cookie does not return as long as there is a
connection without one, and is not undefined itself unless some search is. -/
lemma findCookie_undefined_iff
    (hreturned : ∀ c ∈ l, (st.connections c).cookie = none → ∀ k', generate ≠ .returned k')
    (hundefined : generate = .undefined → ∃ k', st.MeetsDeleted k' l) :
    findCookie (st.ask generate) k l = .undefined ↔ st.MeetsDeleted k l := by
  induction l with
  | nil => exact ⟨nofun, False.elim⟩
  | cons c rest ih =>
      rw [findCookie, MeetsDeleted]
      by_cases hc : c ∈ st.destroyed
      · rw [ask_of_destroyed hc]
        exact iff_of_true rfl (.inl hc)
      · cases hcookie : (st.connections c).cookie with
        | some k' =>
            have hrest := ih (fun c' hc' => hreturned c' (List.mem_cons_of_mem c hc'))
              fun hgenerate => (hundefined hgenerate).imp fun _ h => (h.resolve_left hc).2
            rw [ask_of_cookie hc hcookie]
            by_cases heq : k' = k
            · simp [heq, hc]
            · simp [heq, hc, hrest]
        | none =>
            rw [ask_of_no_cookie hc hcookie]
            cases hgenerate : generate with
            | returned k' => exact absurd hgenerate (hreturned c List.mem_cons_self hcookie k')
            | running => simp [hc]
            | undefined =>
                -- what generating has met is behind the connection that it starts from
                obtain ⟨k', hmeets⟩ := hundefined hgenerate
                have hsome := (hmeets.resolve_left hc).1.1
                rw [hcookie] at hsome
                cases hsome

end Find

/-! ## Generating a cookie -/

section Generate

variable {st : MultiServerAbstraction} {k : Cookie}

lemma eq_zero_of_mem_drawn {counter : UInt32} {inputs : List CookieInput}
    (h : k ∈ drawn hash (fun _ => 0) counter inputs) : k = 0 := by
  induction inputs generalizing counter with
  | nil => cases h
  | cons input inputs ih =>
      rcases List.mem_cons.1 h with rfl | h
      · rfl
      · exact ih h

/-- **The first cookie that is not in use**, if everybody can be asked. -/
lemma generateUnusedCookie_eq
    (h : ∀ c ∈ st.listed, c ∉ st.destroyed ∧ (st.connections c).cookie.isSome)
    (counter : UInt32) (inputs : List CookieInput) :
    (st.generateUnusedCookie hash toUInt counter inputs).map (·.1) =
      .ofOption ((drawn hash toUInt counter inputs).find? (¬ st.InUse ·)) := by
  have hmeets (k : Cookie) : ¬ st.MeetsDeleted k st.listed := fun hmeets => by
    obtain ⟨c, hc, hdestroyed⟩ := hmeets.exists_destroyed
    exact (h c hc).1 hdestroyed
  induction inputs generalizing counter with
  | nil => rfl
  | cons input inputs ih =>
      obtain ⟨found, hfound, hnone, hsome⟩ := findCookie_of_isSome
        (k := generateCookie hash toUInt (counter + 1) input)
        ((st.generateUnusedCookie hash toUInt (counter + 1) inputs).map (·.1))
        (fun c hc => (h c hc).2) (hmeets _)
      unfold generateUnusedCookie drawn
      dsimp only
      rw [hfound]
      cases found with
      | none =>
          have hunused : ¬ st.InUse (generateCookie hash toUInt (counter + 1) input) := hnone rfl
          rw [List.find?_cons_of_pos (by simpa using hunused)]
          rfl
      | some c =>
          have hused : st.InUse (generateCookie hash toUInt (counter + 1) input) :=
            ⟨c, hsome c rfl⟩
          rw [List.find?_cons_of_neg (by simpa using hused)]
          exact ih (counter + 1)

/-- A connection that is deleted, or has no cookie, keeps the loop from ending. -/
lemma generateUnusedCookie_ne_returned {c : ConnectionId} (hc : c ∈ st.listed)
    (hbad : c ∈ st.destroyed ∨ (st.connections c).cookie = none) (counter : UInt32)
    (inputs : List CookieInput) (r : Cookie × UInt32) :
    st.generateUnusedCookie hash toUInt counter inputs ≠ .returned r := by
  induction inputs generalizing counter r with
  | nil => nofun
  | cons input inputs ih =>
      unfold generateUnusedCookie
      dsimp only
      split
      · next hfound =>
          obtain ⟨k', hask⟩ := exists_ask_of_findCookie hfound hc
          by_cases hdestroyed : c ∈ st.destroyed
          · rw [ask_of_destroyed hdestroyed] at hask
            cases hask
          · rw [ask_of_no_cookie hdestroyed (hbad.resolve_left hdestroyed)] at hask
            obtain ⟨r', hr', -⟩ := Asked.map_eq_returned_iff.1 hask
            exact absurd hr' (ih (counter + 1) r')
      · exact ih (counter + 1) r
      · nofun
      · nofun

/-- **When generating a cookie is undefined.** -/
theorem generateUnusedCookie_undefined_iff (counter : UInt32) (inputs : List CookieInput) :
    st.generateUnusedCookie hash toUInt counter inputs = .undefined ↔
      ∃ k ∈ drawn hash toUInt counter inputs, st.ReadsDeleted k := by
  induction inputs generalizing counter with
  | nil => simp [generateUnusedCookie, drawn]
  | cons input inputs ih =>
      have hreturned (c : ConnectionId) (hc : c ∈ st.listed)
          (hcookie : (st.connections c).cookie = none) (k' : Cookie) :
          (st.generateUnusedCookie hash toUInt (counter + 1) inputs).map (·.1) ≠ .returned k' := by
        intro h
        obtain ⟨r, hr, -⟩ := Asked.map_eq_returned_iff.1 h
        exact generateUnusedCookie_ne_returned hash toUInt hc (.inr hcookie) _ _ r hr
      have hundefined (h : (st.generateUnusedCookie hash toUInt (counter + 1) inputs).map (·.1) =
          .undefined) : ∃ k', st.ReadsDeleted k' := by
        obtain ⟨k', -, hk'⟩ := (ih (counter + 1)).1 (Asked.map_eq_undefined_iff.1 h)
        exact ⟨k', hk'⟩
      have hfind := findCookie_undefined_iff
        (k := generateCookie hash toUInt (counter + 1) input) hreturned hundefined
      rw [drawn, List.exists_mem_cons_iff]
      unfold ReadsDeleted at hfind ⊢
      rw [← hfind, generateUnusedCookie]
      cases hfound : findCookie
        (st.ask ((st.generateUnusedCookie hash toUInt (counter + 1) inputs).map (·.1)))
        (generateCookie hash toUInt (counter + 1) input) st.listed with
      | undefined => simp
      | running =>
          have hrest := Asked.map_eq_running_iff.1 (eq_running_of_findCookie hfound)
          have hnone := (not_congr (ih (counter + 1))).1 (by simp [hrest])
          simpa [ReadsDeleted] using hnone
      | returned found =>
          cases found with
          | some c => simpa [ReadsDeleted] using ih (counter + 1)
          | none =>
              -- everybody has answered, so nobody is deleted
              refine iff_of_false nofun ?_
              rintro (h | ⟨k', -, hk'⟩)
              · cases h
              · obtain ⟨c, hc, hdestroyed⟩ := hk'.exists_destroyed
                obtain ⟨k', hask⟩ := exists_ask_of_findCookie hfound hc
                rw [ask_of_destroyed hdestroyed] at hask
                cases hask

/-- **When looking for a cookie is undefined.** -/
theorem getExistingConnectionUsingCookie_undefined_iff (inputs : List CookieInput) :
    st.getExistingConnectionUsingCookie hash toUInt k inputs = .undefined ↔
      st.ReadsDeleted k := by
  refine findCookie_undefined_iff (fun c hc hcookie k' h => ?_) fun h => ?_
  · obtain ⟨r, hr, -⟩ := Asked.map_eq_returned_iff.1 h
    exact generateUnusedCookie_ne_returned hash toUInt hc (.inr hcookie) _ _ r hr
  · obtain ⟨k', -, hk'⟩ := (generateUnusedCookie_undefined_iff hash toUInt _ _).1
      (Asked.map_eq_undefined_iff.1 h)
    exact ⟨k', hk'⟩

/-- **When asking a connection that exists is undefined.** -/
lemma cookie_undefined_iff {c : ConnectionId} (inputs : List CookieInput) :
    st.cookie hash toUInt c inputs = .undefined ↔ (st.connections c).cookie = none ∧
      ∃ k ∈ drawn hash toUInt st.overflowingClientIdsUsedAsInputForMd5er inputs,
        st.ReadsDeleted k := by
  unfold MultiServerAbstraction.cookie
  cases (st.connections c).cookie with
  | some k => simp
  | none =>
      rw [Asked.map_eq_undefined_iff, generateUnusedCookie_undefined_iff]
      simp

end Generate

end MultiServerAbstraction

end Autobackup.Network
