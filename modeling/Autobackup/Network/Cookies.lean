import Autobackup.Network.AskedConnections

/-!
# Cookies identify clients

A new cookie is only compared with those of the connections that are helloed or dead.  What was
handed out to a client that is not done helloing is not among them, and neither is the cookie of a
connection that is being merged.  So a cookie identifies a client as long as no cookie is generated
while another client has one that is not compared (`ComparesWithOthers`).

That is a condition on the order of the handshakes, whatever the hash function makes of the random
numbers: in the source each cookie is handed out one message before it can be compared.

The hash function and the conversion to a number are parameters of which nothing is asked.  In the
source the conversion reads the bytes of a digest as the text of a number and gives 0 for almost all
of them; so whether a cookie can be drawn that is not in use is a question of its own, and the first
half of the result is about it.
-/

namespace Autobackup.Network

namespace MultiServerAbstraction

/-- **Cookies identify connections**: those of different clients that are done helloing, or dead,
have different ones. -/
def CookiesIdentify (st : MultiServerAbstraction) : Prop :=
  ∀ c ∈ st.listed, ∀ c' ∈ st.listed, (st.connections c).client ≠ (st.connections c').client →
    ∀ k, (st.connections c).cookie = some k → (st.connections c').cookie ≠ some k

/-- The server goes on: it does not generate a cookie for ever, and has not called a member of a
deleted connection. -/
def GoesOn (st : MultiServerAbstraction) : Prop := st.generating = false ∧ st.usedDeleted = false
  deriving Decidable

/-- A cookie in a hello was given to the client before. -/
def Honest (st : MultiServerAbstraction) (x : Event) : Prop :=
  match x with
  | .messageReceived c message _ _ =>
      match MessageFromClient.ofMessage message with
      | .initialHello (some k) => ((st.connections c).client, k) ∈ st.sent
      | _ => True
  | _ => True

/-- A new cookie is compared with every cookie that another client has, or was given. -/
def ComparesWithOthers (st : MultiServerAbstraction) (client : ClientId) : Prop :=
  (∀ c ∈ List.range st.made, (st.connections c).client ≠ client →
      ∀ k ∈ (st.connections c).cookie, st.InUse k) ∧
    ∀ p ∈ st.sent, p.1 ≠ client → st.InUse p.2

/-- The cookie is looked at, and not all cookies that there are. -/
instance (st : MultiServerAbstraction) (client : ClientId) :
    Decidable (st.ComparesWithOthers client) :=
  haveI (c : ConnectionId) : Decidable (∀ k ∈ (st.connections c).cookie, st.InUse k) :=
    Option.decidableForallMem _
  inferInstanceAs (Decidable (_ ∧ _))

variable (hash : List Byte → List Byte) (toUInt : List Byte → Cookie)

/-- `generateUnusedCookie` returns, after sufficiently many rounds. -/
def Terminates (st : MultiServerAbstraction) (inputs : ℕ → CookieInput) : Prop :=
  ∃ n r, st.generateUnusedCookie hash toUInt st.overflowingClientIdsUsedAsInputForMd5er
    ((List.range n).map inputs) = .returned r

/-- Before a connection is asked for its cookie: if it has none, then nobody is deleted that a new
one is compared with, nobody is left out, and some cookie that is drawn is not in use. -/
def MayGenerate (st : MultiServerAbstraction) (c : ConnectionId) (inputs : List CookieInput) :
    Prop :=
  (st.connections c).cookie = none →
    (∀ c' ∈ st.listed, c' ∉ st.destroyed) ∧ st.ComparesWithOthers (st.connections c).client ∧
      ∃ k ∈ drawn hash toUInt st.overflowingClientIdsUsedAsInputForMd5er inputs, ¬ st.InUse k
  deriving Decidable

/-- The condition: cookies are generated when all others can be compared; no deleted connection is
asked for its cookie or merged onto; and no connection breaks before it has a cookie. -/
def OneHelloAtATime (st : MultiServerAbstraction) (x : Event) : Prop :=
  match x with
  | .messageReceived c message inputs _ =>
      st.Exists c → match MessageFromClient.ofMessage message with
        | .initialHello none => st.MayGenerate hash toUInt c inputs
        | .initialHello (some k) => ¬ (st.setConnection c fun connection =>
            { connection with cookie := some k }).ReadsDeleted k
        | .thankYouForWelcomingMe _ => st.MayGenerate hash toUInt c inputs ∧
            ∀ old ∈ (st.connections c).oldConnectionToMergeOnto, old ∉ st.destroyed
        | .other => True
  | .makeConnectionBad c => st.Exists c → (st.connections c).cookie.isSome
  | _ => True

/-! ## Generating a cookie -/

section Generate

variable {st : MultiServerAbstraction}

/-- **When the loop ends.** -/
theorem terminates_iff (inputs : ℕ → CookieInput) : st.Terminates hash toUInt inputs ↔
    (∀ c ∈ st.listed, c ∉ st.destroyed ∧ (st.connections c).cookie.isSome) ∧
      ∃ n, ∃ k ∈ drawn hash toUInt st.overflowingClientIdsUsedAsInputForMd5er
        ((List.range n).map inputs), ¬ st.InUse k := by
  by_cases hall : ∀ c ∈ st.listed, c ∉ st.destroyed ∧ (st.connections c).cookie.isSome
  · rw [and_iff_right hall]
    refine exists_congr fun n => ?_
    have heq := generateUnusedCookie_eq hash toUInt hall
      st.overflowingClientIdsUsedAsInputForMd5er ((List.range n).map inputs)
    have hfind : (∃ k ∈ drawn hash toUInt st.overflowingClientIdsUsedAsInputForMd5er
        ((List.range n).map inputs), ¬ st.InUse k) ↔
          ∃ k, (drawn hash toUInt st.overflowingClientIdsUsedAsInputForMd5er
            ((List.range n).map inputs)).find? (¬ st.InUse ·) = some k := by
      rw [← Option.isSome_iff_exists, List.find?_isSome]
      simp
    rw [hfind]
    constructor
    · rintro ⟨r, hr⟩
      rw [hr] at heq
      exact ⟨r.1, Asked.ofOption_eq_returned_iff.1 heq.symm⟩
    · rintro ⟨k, hk⟩
      rw [hk] at heq
      obtain ⟨r, hr, -⟩ := Asked.map_eq_returned_iff.1 heq
      exact ⟨r, hr⟩
  · refine iff_of_false ?_ fun hboth => hall hboth.1
    push Not at hall
    obtain ⟨c, hc, hbad⟩ := hall
    rintro ⟨n, r, hr⟩
    refine generateUnusedCookie_ne_returned hash toUInt hc ?_ _ _ r hr
    by_cases hdestroyed : c ∈ st.destroyed
    · exact .inl hdestroyed
    · exact .inr (by simpa using hbad hdestroyed)

end Generate

/-- What a connection is merged onto does not matter for the cookies that are drawn. -/
lemma MayGenerate.setOldConnection {st : MultiServerAbstraction} {c : ConnectionId}
    {inputs : List CookieInput} (h : st.MayGenerate hash toUInt c inputs) :
    (st.setConnection c fun connection =>
      { connection with oldConnectionToMergeOnto := none }).MayGenerate hash toUInt c inputs := by
  have hcookie (c' : ConnectionId) : ((st.setConnection c fun connection =>
      { connection with oldConnectionToMergeOnto := none }).connections c').cookie =
        (st.connections c').cookie :=
    connections_setConnection_congr (g := ClientConnection.cookie) rfl c'
  have hclient (c' : ConnectionId) : ((st.setConnection c fun connection =>
      { connection with oldConnectionToMergeOnto := none }).connections c').client =
        (st.connections c').client :=
    connections_setConnection_congr (g := ClientConnection.client) rfl c'
  unfold MayGenerate InUse ComparesWithOthers InUse at h ⊢
  simp only [hcookie, hclient]
  exact h

/-! ## Whose cookies they are -/

/-- The client was given the cookie, or a connection to it has the cookie. -/
def Owns (st : MultiServerAbstraction) (a : ClientId) (k : Cookie) : Prop :=
  (a, k) ∈ st.sent ∨ ∃ c, (st.connections c).cookie = some k ∧ (st.connections c).client = a

/-- What holds in every state. -/
structure Owned (st : MultiServerAbstraction) : Prop where
  owner : ∀ a b k, st.Owns a k → st.Owns b k → a = b
  merging : ∀ c old, (st.connections c).oldConnectionToMergeOnto = some old →
    (st.connections c).client = (st.connections old).client ∧ old < st.made ∧
      (st.connections old).cookie.isSome
  listed : ∀ c ∈ st.listed, c < st.made ∧ (st.connections c).cookie.isSome
  unmade : ∀ c, st.made ≤ c → st.connections c = {}
  goesOn : st.GoesOn

namespace Owned

variable {st : MultiServerAbstraction} {c : ConnectionId} {k : Cookie}

/-- **Cookies identify clients.** -/
lemma cookiesIdentify (h : st.Owned) : st.CookiesIdentify :=
  fun c _ c' _ hne k hc hc' => hne (h.owner _ _ k (.inr ⟨c, hc, rfl⟩) (.inr ⟨c', hc', rfl⟩))

/-- A connection gets a cookie that is its client's, or nobody's. -/
lemma setCookie (h : st.Owned) (hc : c < st.made)
    (hk : ∀ a, st.Owns a k → a = (st.connections c).client) :
    (st.setConnection c fun connection => { connection with cookie := some k }).Owned := by
  have hself : (st.setConnection c fun connection =>
      { connection with cookie := some k }).connections c =
        { st.connections c with cookie := some k } := connections_setConnection_self
  have hother {c' : ConnectionId} (hne : c' ≠ c) : (st.setConnection c fun connection =>
      { connection with cookie := some k }).connections c' = st.connections c' :=
    connections_setConnection_of_ne hne
  have hclient (c' : ConnectionId) :
      ((st.setConnection c fun connection =>
          { connection with cookie := some k }).connections c').client =
        (st.connections c').client :=
    connections_setConnection_congr (g := ClientConnection.client) rfl c'
  have hcookie {c' : ConnectionId} (hsome : (st.connections c').cookie.isSome) :
      ((st.setConnection c fun connection =>
        { connection with cookie := some k }).connections c').cookie.isSome := by
    by_cases hc' : c' = c
    · rw [hc', hself]
      rfl
    · rw [hother hc']
      exact hsome
  have howns {a : ClientId} {k' : Cookie} (ha : (st.setConnection c fun connection =>
      { connection with cookie := some k }).Owns a k') :
        st.Owns a k' ∨ a = (st.connections c).client ∧ k' = k := by
    rcases ha with ha | ⟨c', hc', rfl⟩
    · exact .inl (.inl ha)
    · rw [hclient]
      by_cases hc'' : c' = c
      · subst hc''
        rw [hself] at hc'
        exact .inr ⟨rfl, (Option.some.inj hc').symm⟩
      · rw [hother hc''] at hc'
        exact .inl (.inr ⟨c', hc', rfl⟩)
  refine ⟨fun a b k' ha hb => ?_, fun c' old hold => ?_, fun c' hc' => ?_, fun c' hc' => ?_,
    h.goesOn⟩
  · rcases howns ha with hbefore | ⟨rfl, rfl⟩
    · rcases howns hb with hbefore' | ⟨rfl, rfl⟩
      · exact h.owner a b k' hbefore hbefore'
      · exact hk a hbefore
    · rcases howns hb with hbefore' | ⟨rfl, -⟩
      · exact (hk b hbefore').symm
      · rfl
  · have hmerging : (st.connections c').oldConnectionToMergeOnto = some old := by
      by_cases hc' : c' = c
      · rw [hc', hself] at hold
        rw [hc']
        exact hold
      · rw [hother hc'] at hold
        exact hold
    obtain ⟨hsame, hmade, hsome⟩ := h.merging c' old hmerging
    rw [hclient, hclient]
    exact ⟨hsame, hmade, hcookie hsome⟩
  · obtain ⟨hmade, hsome⟩ := h.listed c' hc'
    exact ⟨hmade, hcookie hsome⟩
  · have hmade : st.made ≤ c' := hc'
    rw [hother (Nat.ne_of_gt (Nat.lt_of_lt_of_le hc hmade))]
    exact h.unmade c' hmade

/-- The connections are the same, and no others are listed. -/
lemma of_listed {st' : MultiServerAbstraction} (h : st.Owned)
    (hconnections : st'.connections = st.connections) (hmade : st'.made = st.made)
    (hsent : st'.sent = st.sent) (hgoesOn : st'.GoesOn ↔ st.GoesOn)
    (hlisted : ∀ c ∈ st'.listed, c ∈ st.listed ∨ c < st.made ∧ (st.connections c).cookie.isSome) :
    st'.Owned := by
  refine ⟨fun a b k ha hb => h.owner a b k ?_ ?_, fun c old hold => ?_, fun c hc => ?_,
    fun c hc => ?_, hgoesOn.2 h.goesOn⟩
  · unfold Owns at ha
    rwa [hsent, hconnections] at ha
  · unfold Owns at hb
    rwa [hsent, hconnections] at hb
  · rw [hconnections] at hold ⊢
    rw [hmade]
    exact h.merging c old hold
  · rw [hconnections, hmade]
    rcases hlisted c hc with hc | hc
    · exact h.listed c hc
    · exact hc
  · rw [hconnections]
    exact h.unmade c (hmade ▸ hc)

lemma dontBroadcastTo (h : st.Owned) (c : ConnectionId) : (st.dontBroadcastTo c).Owned := by
  refine h.of_listed rfl rfl rfl Iff.rfl fun c' hc' => .inl ?_
  rcases List.mem_append.1 hc' with hc' | hc'
  · exact List.mem_append_left _ (List.mem_of_mem_filter hc')
  · exact List.mem_append_right _ hc'

lemma makeConnectionBad (h : st.Owned) (hc : c < st.made)
    (hcookie : (st.connections c).cookie.isSome) : (st.makeConnectionBad c).Owned := by
  refine h.of_listed rfl rfl rfl Iff.rfl fun c' hc' => ?_
  rcases List.mem_append.1 hc' with hc' | hc'
  · exact .inl (List.mem_append_left _ (List.mem_of_mem_filter hc'))
  · rcases List.mem_append.1 hc' with hc' | hc'
    · exact .inl (List.mem_append_right _ hc')
    · exact .inr (List.mem_singleton.1 hc' ▸ ⟨hc, hcookie⟩)

lemma connectionDoneHelloing (h : st.Owned) (hc : c < st.made)
    (hcookie : (st.connections c).cookie.isSome) : (st.connectionDoneHelloing c).Owned := by
  refine h.of_listed rfl rfl rfl Iff.rfl fun c' hc' => ?_
  rcases List.mem_append.1 hc' with hc' | hc'
  · rcases List.mem_append.1 hc' with hc' | hc'
    · exact .inl (List.mem_append_left _ hc')
    · exact .inr (List.mem_singleton.1 hc' ▸ ⟨hc, hcookie⟩)
  · exact .inl (List.mem_append_right _ hc')

/-- What a connection is going to be merged onto, if anything. -/
lemma setOldConnection (h : st.Owned) (hc : c < st.made) (old : Option ConnectionId)
    (hold : ∀ c' ∈ old, (st.connections c).client = (st.connections c').client ∧ c' < st.made ∧
      (st.connections c').cookie.isSome) :
    (st.setConnection c fun connection =>
      { connection with oldConnectionToMergeOnto := old }).Owned := by
  have hconnection (c' : ConnectionId) : (st.setConnection c fun connection =>
      { connection with oldConnectionToMergeOnto := old }).connections c' =
        { st.connections c' with
          oldConnectionToMergeOnto :=
            if c' = c then old else (st.connections c').oldConnectionToMergeOnto } := by
    by_cases hc' : c' = c
    · rw [hc', connections_setConnection_self, if_pos rfl]
    · rw [connections_setConnection_of_ne hc', if_neg hc']
  have howns {a : ClientId} {k : Cookie} (ha : (st.setConnection c fun connection =>
      { connection with oldConnectionToMergeOnto := old }).Owns a k) : st.Owns a k := by
    refine ha.imp_right ?_
    rintro ⟨c', hcookie, hclient⟩
    rw [hconnection] at hcookie hclient
    exact ⟨c', hcookie, hclient⟩
  refine ⟨fun a b k ha hb => h.owner a b k (howns ha) (howns hb), fun c' o ho => ?_,
    fun c' hc' => ?_, fun c' hc' => ?_, h.goesOn⟩
  · rw [hconnection] at ho
    rw [hconnection, hconnection]
    dsimp only at ho ⊢
    split at ho
    · next heq => exact heq ▸ hold o ho
    · exact h.merging c' o ho
  · rw [hconnection]
    exact h.listed c' hc'
  · have hmade : st.made ≤ c' := hc'
    have hne : c' ≠ c := Nat.ne_of_gt (Nat.lt_of_lt_of_le hc hmade)
    rw [hconnection, if_neg hne]
    exact h.unmade c' hmade

lemma send (h : st.Owned) (hk : (st.connections c).cookie = some k) : (st.send c k).Owned := by
  have howns {a : ClientId} {k' : Cookie} (ha : (st.send c k).Owns a k') : st.Owns a k' := by
    rcases ha with ha | ha
    · rcases List.mem_append.1 ha with ha | ha
      · exact .inl ha
      · cases List.mem_singleton.1 ha
        exact .inr ⟨c, hk, rfl⟩
    · exact .inr ha
  exact ⟨fun a b k ha hb => h.owner a b k (howns ha) (howns hb), h.merging, h.listed, h.unmade,
    h.goesOn⟩

lemma newClientConnected (h : st.Owned) (client : ClientId) :
    (st.handleNewClientConnected client).Owned := by
  have hmade : st.connections st.made = {} := h.unmade _ (Nat.le_refl _)
  have hother {c' : ConnectionId} (hne : c' ≠ st.made) :
      (st.handleNewClientConnected client).connections c' = st.connections c' := by
    simp [handleNewClientConnected, setConnection, hne]
  have hself : (st.handleNewClientConnected client).connections st.made = { client := client } := by
    simp [handleNewClientConnected, setConnection]
  have howns {a : ClientId} {k : Cookie} (ha : (st.handleNewClientConnected client).Owns a k) :
      st.Owns a k := by
    refine ha.imp_right ?_
    rintro ⟨c', hcookie, hclient⟩
    by_cases hc' : c' = st.made
    · rw [hc', hself] at hcookie
      cases hcookie
    · rw [hother hc'] at hcookie hclient
      exact ⟨c', hcookie, hclient⟩
  refine ⟨fun a b k ha hb => h.owner a b k (howns ha) (howns hb), fun c' old hold => ?_,
    fun c' hc' => ?_, fun c' hc' => ?_, h.goesOn⟩
  · by_cases hc' : c' = st.made
    · rw [hc', hself] at hold
      cases hold
    · rw [hother hc'] at hold
      obtain ⟨hsame, hlt, hsome⟩ := h.merging c' old hold
      rw [hother hc', hother (Nat.ne_of_lt hlt)]
      exact ⟨hsame, Nat.lt_succ_of_lt hlt, hsome⟩
  · obtain ⟨hlt, hsome⟩ := h.listed c' hc'
    rw [hother (Nat.ne_of_lt hlt)]
    exact ⟨Nat.lt_succ_of_lt hlt, hsome⟩
  · have hle : st.made + 1 ≤ c' := hc'
    rw [hother (Nat.ne_of_gt hle)]
    exact h.unmade c' (Nat.le_of_lt hle)

/-- The connection has a cookie when it is asked for one. -/
lemma cookie (h : st.Owned) (hc : c < st.made) {inputs : List CookieInput}
    (hmay : st.MayGenerate hash toUInt c inputs) :
    ∃ k st', st.cookie hash toUInt c inputs = .returned (k, st') ∧ st'.Owned ∧
      st'.made = st.made ∧ st'.destroyed = st.destroyed ∧
        st'.connections c = { st.connections c with cookie := some k } := by
  unfold MultiServerAbstraction.cookie
  cases hcookie : (st.connections c).cookie with
  | some k =>
      refine ⟨k, st, rfl, h, rfl, rfl, ?_⟩
      rw [← hcookie]
  | none =>
      obtain ⟨halive, hcompares, hunused⟩ := hmay hcookie
      have hall (c' : ConnectionId) (hc' : c' ∈ st.listed) :
          c' ∉ st.destroyed ∧ (st.connections c').cookie.isSome :=
        ⟨halive c' hc', (h.listed c' hc').2⟩
      have hfind : ((drawn hash toUInt st.overflowingClientIdsUsedAsInputForMd5er
          inputs).find? (¬ st.InUse ·)).isSome := by
        rw [List.find?_isSome]
        simpa using hunused
      obtain ⟨k, hk⟩ := Option.isSome_iff_exists.1 hfind
      have heq := generateUnusedCookie_eq hash toUInt hall
        st.overflowingClientIdsUsedAsInputForMd5er inputs
      rw [hk] at heq
      obtain ⟨r, hr, rfl⟩ := Asked.map_eq_returned_iff.1 heq
      have hnew : ¬ st.InUse r.1 := by simpa using List.find?_some hk
      dsimp only
      rw [hr]
      refine ⟨r.1, _, rfl, ?_, rfl, rfl, by simp [setConnection]⟩
      have hset := h.setCookie (k := r.1) hc fun a ha => ?_
      · exact hset.of_listed rfl rfl rfl Iff.rfl fun c' hc' => .inl hc'
      · -- what belongs to another client is in use, and this is not
        by_contra hne
        rcases ha with ha | ⟨c', hc', rfl⟩
        · exact hnew (hcompares.2 _ ha hne)
        · by_cases hmade : c' < st.made
          · exact hnew (hcompares.1 c' (List.mem_range.2 hmade) hne _ hc')
          · rw [h.unmade c' (Nat.le_of_not_lt hmade)] at hc'
            cases hc'

lemma welcome (h : st.Owned) (hc : c < st.made) {inputs : List CookieInput}
    (hmay : st.MayGenerate hash toUInt c inputs) : (st.welcome hash toUInt c inputs).Owned := by
  obtain ⟨k, st', hcookie, hst', -, -, hk⟩ := h.cookie hash toUInt hc hmay
  unfold MultiServerAbstraction.welcome
  rw [hcookie]
  exact hst'.send (by rw [hk])

/-- **A hello with a cookie** that the client was given. -/
lemma helloWithCookie (h : st.Owned) (hc : c < st.made) (inputs : List CookieInput)
    (hgiven : ((st.connections c).client, k) ∈ st.sent)
    (hreads : ¬ (st.setConnection c fun connection =>
      { connection with cookie := some k }).ReadsDeleted k) :
    ∃ st',
      (st.setConnection c fun connection =>
          { connection with cookie := some k }).potentialMerge hash toUInt c k inputs =
        .returned st' ∧
      st'.Owned ∧ st'.made = st.made ∧ (st'.connections c).cookie = some k := by
  have hset := h.setCookie hc fun a ha => h.owner a _ k ha (.inl hgiven)
  have hcookie : ((st.setConnection c fun connection =>
      { connection with cookie := some k }).connections c).cookie = some k :=
    congrArg ClientConnection.cookie connections_setConnection_self
  have hmade : (st.setConnection c fun connection =>
      { connection with cookie := some k }).made = st.made := rfl
  generalize (st.setConnection c fun connection => { connection with cookie := some k }) = st₁
    at hset hcookie hmade hreads ⊢
  obtain ⟨found, hfound, -, hmem⟩ := findCookie_of_isSome
    ((st₁.generateUnusedCookie hash toUInt
      st₁.overflowingClientIdsUsedAsInputForMd5er inputs).map (·.1))
    (fun c' hc' => (hset.listed c' hc').2) hreads
  unfold potentialMerge getExistingConnectionUsingCookie
  rw [hfound]
  cases found with
  | none => exact ⟨st₁, rfl, hset, hmade, hcookie⟩
  | some old =>
      obtain ⟨hlisted, hold⟩ := hmem old rfl
      have hsame : (st₁.connections c).client = (st₁.connections old).client :=
        hset.owner _ _ k (.inr ⟨c, hcookie, rfl⟩) (.inr ⟨old, hold, rfl⟩)
      have hmerging := (hset.dontBroadcastTo old).setOldConnection (c := c) (hmade ▸ hc) (some old)
        fun c' hc' => by
          obtain rfl := Option.some.inj hc'
          exact ⟨hsame, (hset.listed old hlisted).1, Option.isSome_of_eq_some hold⟩
      refine ⟨_, rfl, hmerging, hmade, ?_⟩
      simpa [setConnection, MultiServerAbstraction.dontBroadcastTo] using hcookie

/-- **A hello.** -/
lemma initialHello (h : st.Owned) (hc : c < st.made) {cookie : Option Cookie}
    {inputs : List CookieInput} (hhonest : ∀ k ∈ cookie, ((st.connections c).client, k) ∈ st.sent)
    (hmay : cookie = none → st.MayGenerate hash toUInt c inputs)
    (hreads : ∀ k ∈ cookie, ¬ (st.setConnection c fun connection =>
      { connection with cookie := some k }).ReadsDeleted k) :
    (st.initialHello hash toUInt c cookie inputs).Owned := by
  have hreset := h.setOldConnection hc none (by simp)
  have hclient : ((st.setConnection c fun connection =>
      { connection with oldConnectionToMergeOnto := none }).connections c).client =
        (st.connections c).client :=
    connections_setConnection_congr (g := ClientConnection.client) rfl c
  unfold MultiServerAbstraction.initialHello
  cases cookie with
  | none => exact hreset.welcome hash toUInt hc ((hmay rfl).setOldConnection hash toUInt)
  | some k =>
      have hgiven : (((st.setConnection c fun connection =>
          { connection with oldConnectionToMergeOnto := none }).connections c).client, k) ∈
            st.sent := by
        rw [hclient]
        exact hhonest k rfl
      obtain ⟨st', hmerge, hst', hmade, hk⟩ := hreset.helloWithCookie hash toUInt hc inputs
        hgiven (readsDeleted_hello_iff.not.2 (hreads k rfl))
      dsimp only
      rw [hmerge]
      refine hst'.welcome hash toUInt (hmade ▸ hc) fun hnone => ?_
      rw [hk] at hnone
      cases hnone

/-- **The connection is done helloing**, or the one it is merged onto is. -/
lemma doneHelloing (h : st.Owned) (hc : c < st.made) (hcookie : (st.connections c).cookie.isSome)
    (hmerge : ∀ old ∈ (st.connections c).oldConnectionToMergeOnto, old ∉ st.destroyed)
    (disconnected : Bool) : (st.doneHelloing c disconnected).Owned ∧
      (st.doneHelloing c disconnected).connections = st.connections := by
  unfold MultiServerAbstraction.doneHelloing
  cases hold : (st.connections c).oldConnectionToMergeOnto with
  | none => exact ⟨h.connectionDoneHelloing hc hcookie, rfl⟩
  | some old =>
      obtain ⟨hsame, hmade, hsome⟩ := h.merging c old hold
      -- the device is another one of the same client
      have hdevice (st' : MultiServerAbstraction) (hst' : st'.connections = st.connections) :
          (st'.setConnection old fun connection =>
            { connection with client := (st.connections c).client }) = st' := by
        unfold setConnection
        rw [hsame, hst', ← hst', Function.update_eq_self]
      have hbad : ((if disconnected then st.makeConnectionBad old else st).Owned ∧
          (if disconnected then st.makeConnectionBad old else st).connections = st.connections) ∧
            (if disconnected then st.makeConnectionBad old else st).made = st.made := by
        split
        · exact ⟨⟨h.makeConnectionBad hmade hsome, rfl⟩, rfl⟩
        · exact ⟨⟨h, rfl⟩, rfl⟩
      dsimp only
      rw [if_neg (hmerge old hold), mergeNewIoDevice, hdevice _ hbad.1.2]
      have hdone := hbad.1.1.connectionDoneHelloing (c := old) (hbad.2.symm ▸ hmade)
        (by rw [hbad.1.2]; exact hsome)
      exact ⟨hdone.of_listed rfl rfl rfl Iff.rfl fun c' hc' => .inl hc', hbad.1.2⟩

/-- **A cookie is confirmed.** -/
lemma thankYouForWelcomingMe (h : st.Owned) (hc : c < st.made) {inputs : List CookieInput}
    (hmay : st.MayGenerate hash toUInt c inputs)
    (hmerge : ∀ old ∈ (st.connections c).oldConnectionToMergeOnto, old ∉ st.destroyed) (k : Cookie)
    (disconnected : Bool) :
    (st.thankYouForWelcomingMe hash toUInt c k inputs disconnected).Owned := by
  obtain ⟨k', st', hcookie, hst', hmade, hdestroyed, hk'⟩ := h.cookie hash toUInt hc hmay
  unfold MultiServerAbstraction.thankYouForWelcomingMe
  rw [hcookie]
  dsimp only [andThen]
  split
  · obtain ⟨hdone, hconnections⟩ := hst'.doneHelloing (hmade ▸ hc) (by rw [hk']; rfl)
      (by rw [hk', hdestroyed]; exact hmerge) disconnected
    refine hdone.send ?_
    rw [hconnections, hk']
  · exact hst'

lemma dequeue (h : st.Owned) : st.dequeue.Owned := by
  unfold MultiServerAbstraction.dequeue
  split
  · exact h
  · exact h.of_listed rfl rfl rfl Iff.rfl fun c' hc' => .inl hc'

lemma selectForBroadcast (h : st.Owned) (qrand : ℕ → ℕ) : (st.selectForBroadcast qrand).Owned := by
  have hrefill : (st.refillRoundRobinFromHellodConnections qrand).Owned :=
    h.of_listed rfl rfl rfl Iff.rfl fun c' hc' => .inl hc'
  unfold MultiServerAbstraction.selectForBroadcast
  split
  · exact hrefill.dequeue
  · exact h.dequeue

/-- **The step lemma.** -/
lemma step (h : st.Owned) {x : Event} (hhonest : st.Honest x)
    (hone : st.OneHelloAtATime hash toUInt x) : (st.step hash toUInt x).Owned := by
  unfold MultiServerAbstraction.step
  rw [if_neg (by simp [h.goesOn.1, h.goesOn.2])]
  cases x with
  | newClientConnected client => exact h.newClientConnected client
  | messageReceived c message inputs disconnected =>
      dsimp only
      split
      · next hexists =>
          have hone := hone hexists
          unfold messageReceived
          unfold Honest at hhonest
          dsimp only at hhonest
          cases hmessage : MessageFromClient.ofMessage message with
          | initialHello cookie =>
              rw [hmessage] at hhonest hone
              cases cookie with
              | none => exact h.initialHello hash toUInt hexists.1 nofun (fun _ => hone) nofun
              | some k =>
                  refine h.initialHello hash toUInt hexists.1 (fun k' hk' => ?_) nofun
                    fun k' hk' => ?_
                  · obtain rfl := Option.some.inj hk'
                    exact hhonest
                  · obtain rfl := Option.some.inj hk'
                    exact hone
          | thankYouForWelcomingMe k =>
              rw [hmessage] at hone
              exact h.thankYouForWelcomingMe hash toUInt hexists.1 hone.1 hone.2 k disconnected
          | other => exact h
      · exact h
  | makeConnectionBad c =>
      dsimp only
      split
      · next hexists => exact h.makeConnectionBad hexists.1 (hone hexists)
      · exact h
  | selectForBroadcast qrand => exact h.selectForBroadcast qrand
  | destroy c =>
      dsimp only
      split
      · exact h.of_listed rfl rfl rfl Iff.rfl fun c' hc' => .inl hc'
      · exact h

end Owned

lemma owned_start : ({} : MultiServerAbstraction).Owned := by
  refine ⟨fun a b k ha => ?_, fun c old hold => ?_, fun c hc => ?_, fun c _ => rfl, rfl, rfl⟩
  · rcases ha with ha | ⟨c, hc, -⟩
    · cases ha
    · cases hc
  · cases hold
  · cases hc

/-! ## Runs -/

instance (st : MultiServerAbstraction) (x : Event) : Decidable (st.Honest x) := by
  unfold Honest
  split
  · split <;> infer_instance
  · infer_instance

instance (st : MultiServerAbstraction) (x : Event) :
    Decidable (st.OneHelloAtATime hash toUInt x) := by
  unfold OneHelloAtATime
  split
  · refine @instDecidableForall _ _ inferInstance ?_
    split <;> infer_instance
  · infer_instance
  · infer_instance

/-- **When cookies identify connections.**  The loop ends exactly if no connection that is looked at
is deleted or without a cookie, and a cookie is drawn that is not in use.  In every run in which
cookies are generated only when those of all others are compared, connections of different clients
have different cookies and the server goes on.

That the cookies drawn may be anything else is why the second half does not ask what the hash
function does: what is not compared may be drawn again.  What is asked of a run can be checked at
each event from the state before it, without the cookie that is drawn: who is greeted, who confirms,
and which connections break.  A client is honest if a cookie in its hello was given to it before. -/
theorem cookies_identify (toUInt : List Byte → Cookie) :
    (∀ (st : MultiServerAbstraction) (inputs : ℕ → CookieInput),
      st.Terminates hash toUInt inputs ↔
        (∀ c ∈ st.listed, c ∉ st.destroyed ∧ (st.connections c).cookie.isSome) ∧
          ∃ n, ∃ k ∈ drawn hash toUInt st.overflowingClientIdsUsedAsInputForMd5er
            ((List.range n).map inputs), ¬ st.InUse k) ∧
      ∀ events : List Event,
        Machine.StaysWithin (step hash toUInt)
          (fun st x => st.Honest x ∧ st.OneHelloAtATime hash toUInt x) {} events →
        Machine.HoldsThroughout (step hash toUInt)
          (fun st => st.CookiesIdentify ∧ st.GoesOn) {} events := by
  refine ⟨fun st inputs => st.terminates_iff hash toUInt inputs, fun events h => ?_⟩
  have howned : Machine.HoldsThroughout (step hash toUInt) Owned {} events :=
    Machine.holdsThroughout_of_staysWithin
      (fun st x hst hx => Owned.step hash toUInt hst hx.1 hx.2) owned_start h
  exact howned.imp fun st hst => ⟨hst.cookiesIdentify, hst.goesOn⟩

/-- Two clients say hello, one after the other.  The first one comes back with its cookie, is merged
and breaks again; a third client says hello, and the second one comes back when its connection is
dead. -/
def helloAfterHello : List Event :=
  [.newClientConnected 0, .newClientConnected 1, .messageReceived 0 [1, 0] [⟨[7], 0⟩] false,
    .messageReceived 0 [2, 0, 0, 0, 7] [] false,
    .messageReceived 1 [1, 0] [⟨[7], 0⟩, ⟨[8], 0⟩] false,
    .messageReceived 1 [2, 0, 0, 0, 8] [] false, .newClientConnected 0,
    .messageReceived 2 [1, 1, 0, 0, 0, 7] [] false,
    .messageReceived 2 [2, 0, 0, 0, 7] [] true, .destroy 2, .makeConnectionBad 0,
    .newClientConnected 2, .messageReceived 3 [1, 0] [⟨[8], 0⟩, ⟨[7], 1⟩, ⟨[9], 0⟩] false,
    .messageReceived 3 [2, 0, 0, 0, 9] [] false, .makeConnectionBad 1, .newClientConnected 1,
    .messageReceived 4 [1, 1, 0, 0, 0, 8] [] false, .messageReceived 4 [2, 0, 0, 0, 8] [] false,
    .destroy 4]

/-- Takes the second byte, which is of the date if the counter has one digit. -/
def secondByte (bytes : List Byte) : Cookie := (bytes[1]?.elim 0 (·.toNat)).toUInt32

theorem cookies_identify_helloAfterHello : Machine.HoldsThroughout (step id secondByte)
    (fun st => st.CookiesIdentify ∧ st.GoesOn) {} helloAfterHello :=
  (cookies_identify id secondByte).2 helloAfterHello (by decide +kernel)

/-- Nobody has confirmed a cookie when the second one is drawn. -/
def bothHellosFirst : List Event :=
  [.newClientConnected 0, .newClientConnected 1, .messageReceived 0 [1, 0] [⟨[], 0⟩] false,
    .messageReceived 1 [1, 0] [⟨[], 0⟩] false, .messageReceived 0 [2, 0, 0, 0, 0] [] false,
    .messageReceived 1 [2, 0, 0, 0, 0] [] false]

/-- A digest is not the text of a number: all cookies are zero. -/
theorem not_cookies_identify :
    (¬ ∀ hash toUInt events (inputs : ℕ → CookieInput),
      let st := Machine.run (step hash toUInt) {} events
      st.listed.length < 2 ^ 32 → st.Terminates hash toUInt inputs) ∧
      ¬ ∀ hash toUInt (events : List Event),
        Machine.StaysWithin (step hash toUInt) Honest {} events →
          Machine.HoldsThroughout (step hash toUInt) CookiesIdentify {} events := by
  constructor
  · intro hterminates
    have hzero := hterminates id (fun _ => 0) bothHellosFirst (fun _ => ⟨[], 0⟩)
      (by decide +kernel)
    obtain ⟨-, n, k, hk, hunused⟩ := (terminates_iff id (fun _ => 0) _).1 hzero
    have hk : k = 0 := eq_zero_of_mem_drawn id hk
    subst hk
    exact hunused (by decide +kernel)
  · intro hidentify
    have hfinal := (hidentify id (fun _ => 0) bothHellosFirst (by decide +kernel)).run
    exact hfinal 0 (by decide +kernel) 1 (by decide +kernel) (by decide +kernel) 0
      (by decide +kernel) (by decide +kernel)

end MultiServerAbstraction

end Autobackup.Network
