import Autobackup.ChecksummedMessages.Reader
import Autobackup.Foundation.Machine
import Autobackup.Network.Framing
import Mathlib.Logic.Function.Basic

/-!
# The server of the rpc connections

`MultiServerAbstraction` with its connections.  A connection is known by how many were made before
it; for the source that is its address.  A message reaches the slot of a connection, and so does an
error of its socket; which ones, and in which order, is up to the clients and the network.

`generateUnusedCookie` tries cookies until one is not in use.  What it draws for them is an input,
and the loop is still running when the input is used up: `generating` is the state of a server that
does not come back from it.

A connection that is deleted stays in the list of dead connections, and one that is being merged
may outlive the one it is merged onto.  `usedDeleted` is the state of a server that has called a
member of a connection that is deleted.  The source says nothing of what follows, so nothing follows
here.
-/

namespace Autobackup.Network

/-- A `quint32`. -/
abbrev Cookie := UInt32

abbrev ConnectionId := ℕ

abbrev ClientId := ℕ

/-- `HelloMessageTypeFromClient`, with what the connection reads of the message. -/
inductive MessageFromClient
  | initialHello (cookie : Option Cookie)
  | thankYouForWelcomingMe (cookieForConfirming : Cookie)
  /-- Done helloing, or nothing that the connection reacts to. -/
  | other
  deriving DecidableEq, Repr

/-- `>>` of a cookie.  It is zero where the message is too short. -/
def readCookie (message : List Byte) : Cookie :=
  if message.length < 4 then 0 else (quint32 message).toUInt32

/-- How `handleDataReceivedFromClient` reads a message.  A `bool` is a byte. -/
def MessageFromClient.ofMessage : List Byte → MessageFromClient
  | [] => .other
  | helloState :: message =>
      if helloState = 1 then
        match message with
        | [] => .initialHello none
        | containsCookie :: message =>
            .initialHello (if containsCookie = 0 then none else some (readCookie message))
      else if helloState = 2 then .thankYouForWelcomingMe (readCookie message)
      else .other

/-- What one call of `generateCookie` reads. -/
structure CookieInput where
  /-- `QDateTime::currentDateTime().toString()` -/
  currentDateTime : List Byte
  qrand : ℕ
  deriving DecidableEq, Repr

/-- `AbstractClientConnection` -/
structure ClientConnection where
  /-- Who is at the other end of its device. -/
  client : ClientId := 0
  cookie : Option Cookie := none
  oldConnectionToMergeOnto : Option ConnectionId := none
  deriving DecidableEq, Repr

/-- What becomes of a call in which connections are asked for their cookies. -/
inductive Asked (α : Type)
  | returned (a : α)
  /-- It is still running. -/
  | running
  /-- A connection was asked that is deleted. -/
  | undefined
  deriving DecidableEq, Repr

def Asked.map {α β : Type} (f : α → β) : Asked α → Asked β
  | .returned a => .returned (f a)
  | .running => .running
  | .undefined => .undefined

structure MultiServerAbstraction where
  connections : ConnectionId → ClientConnection := fun _ => {}
  /-- How many connections were made. -/
  made : ℕ := 0
  listOfConnectionsIgnoringHelloState : List ConnectionId := []
  listOfHelloedConnections : List ConnectionId := []
  roundRobinQueue : List ConnectionId := []
  listOfDeadConnectionsThatMightBePickedUpLater : List ConnectionId := []
  overflowingClientIdsUsedAsInputForMd5er : UInt32 := 0
  /-- Those that were handed to `deleteLater`. -/
  deletedLater : List ConnectionId := []
  destroyed : List ConnectionId := []
  /-- `generateUnusedCookie` was called and does not return. -/
  generating : Bool := false
  /-- A member of a deleted connection was called. -/
  usedDeleted : Bool := false
  /-- Those that were made bad and not activated since.  The source does not keep it. -/
  bad : List ConnectionId := []
  /-- Those that were selected for a broadcast since the queue was refilled.  The source does not
  keep it. -/
  selected : List ConnectionId := []
  /-- The cookies that were sent to clients.  The source does not keep it. -/
  sent : List (ClientId × Cookie) := []

inductive Event
  /-- `handleNewClientConnected` -/
  | newClientConnected (client : ClientId)
  /-- A message for a connection; what `generateCookie` reads if it is called; whether closing the
  old device at once reports that it is disconnected, if there is one to be closed. -/
  | messageReceived (c : ConnectionId) (message : List Byte) (inputs : List CookieInput)
      (disconnected : Bool)
  /-- An error of the socket, or it is disconnected. -/
  | makeConnectionBad (c : ConnectionId)
  /-- `getSuitableClientConnectionNextInRoundRobinToUseForBroadcast`, with the random numbers for a
  refill. -/
  | selectForBroadcast (qrand : ℕ → ℕ)
  /-- What was handed to `deleteLater` is deleted. -/
  | destroy (c : ConnectionId)

namespace MultiServerAbstraction

def setConnection (st : MultiServerAbstraction) (c : ConnectionId)
    (f : ClientConnection → ClientConnection) : MultiServerAbstraction :=
  { st with connections := Function.update st.connections c (f (st.connections c)) }

section SetConnection

variable {st : MultiServerAbstraction} {c c' : ConnectionId}
  {f : ClientConnection → ClientConnection}

lemma connections_setConnection_self :
    (st.setConnection c f).connections c = f (st.connections c) :=
  Function.update_self ..

lemma connections_setConnection_of_ne (hne : c' ≠ c) :
    (st.setConnection c f).connections c' = st.connections c' :=
  Function.update_of_ne hne ..

/-- What a change keeps of the connection is kept of all of them. -/
lemma connections_setConnection_congr {α : Type} {g : ClientConnection → α}
    (hg : g (f (st.connections c)) = g (st.connections c)) (c' : ConnectionId) :
    g ((st.setConnection c f).connections c') = g (st.connections c') := by
  by_cases hc' : c' = c
  · rw [hc', connections_setConnection_self, hg]
  · rw [connections_setConnection_of_ne hc']

end SetConnection

/-! ## Cookies -/

/-- The loops of `getExistingConnectionUsingCookie__OrZero`, where a connection is asked for its
cookie by `ask`, which may not return. -/
def findCookie (ask : ConnectionId → Asked Cookie) (k : Cookie) :
    List ConnectionId → Asked (Option ConnectionId)
  | [] => .returned none
  | c :: rest =>
      match ask c with
      | .returned k' => if k' = k then .returned (some c) else findCookie ask k rest
      | .running => .running
      | .undefined => .undefined

/-- Where it is looked for: first among those that are helloed, then among the dead ones. -/
def listed (st : MultiServerAbstraction) : List ConnectionId :=
  st.listOfHelloedConnections ++ st.listOfDeadConnectionsThatMightBePickedUpLater

/-- Ask a connection that may be deleted for its cookie.  `generate` is what becomes of generating
one. -/
def ask (st : MultiServerAbstraction) (generate : Asked Cookie) (c : ConnectionId) : Asked Cookie :=
  if c ∈ st.destroyed then .undefined
  else
    match (st.connections c).cookie with
    | some k => .returned k
    -- the cookie is made when it is first asked for, also by this question
    | none => generate

variable (hash : List Byte → List Byte) (toUInt : List Byte → Cookie)

def generateCookie (overflowingClientIdsUsedAsInputForMd5er : UInt32) (input : CookieInput) :
    Cookie :=
  toUInt (hash (ChecksummedMessages.number overflowingClientIdsUsedAsInputForMd5er.toNat ++
    input.currentDateTime ++ ChecksummedMessages.number input.qrand))

/-- The cookie and the counter, if the loop ends before the input does.  A connection without a
cookie that is asked for it calls this function again. -/
def generateUnusedCookie (st : MultiServerAbstraction) (counter : UInt32) :
    List CookieInput → Asked (Cookie × UInt32)
  | [] => .running
  | input :: inputs =>
      let k := generateCookie hash toUInt (counter + 1) input
      match findCookie
        (st.ask ((st.generateUnusedCookie (counter + 1) inputs).map (·.1))) k st.listed with
      | .returned none => .returned (k, counter + 1)
      | .returned (some _) => st.generateUnusedCookie (counter + 1) inputs
      | .running => .running
      | .undefined => .undefined

/-- `AbstractClientConnection::cookie`, of a connection that exists. -/
def cookie (st : MultiServerAbstraction) (c : ConnectionId) (inputs : List CookieInput) :
    Asked (Cookie × MultiServerAbstraction) :=
  match (st.connections c).cookie with
  | some k => .returned (k, st)
  | none =>
      (st.generateUnusedCookie hash toUInt st.overflowingClientIdsUsedAsInputForMd5er inputs).map
        fun r => (r.1,
          { st.setConnection c fun connection => { connection with cookie := some r.1 } with
            overflowingClientIdsUsedAsInputForMd5er := r.2 })

/-- `getExistingConnectionUsingCookie__OrZero` -/
def getExistingConnectionUsingCookie (st : MultiServerAbstraction) (k : Cookie)
    (inputs : List CookieInput) : Asked (Option ConnectionId) :=
  findCookie (st.ask ((st.generateUnusedCookie hash toUInt
    st.overflowingClientIdsUsedAsInputForMd5er inputs).map (·.1))) k st.listed

/-- Go on with what a call has returned, if it has. -/
def andThen {α : Type} (st : MultiServerAbstraction) (asked : Asked α)
    (next : α → MultiServerAbstraction) : MultiServerAbstraction :=
  match asked with
  | .returned a => next a
  | .running => { st with generating := true }
  | .undefined => { st with usedDeleted := true }

/-! ## The lists -/

def dontBroadcastTo (st : MultiServerAbstraction) (c : ConnectionId) : MultiServerAbstraction :=
  { st with
    listOfHelloedConnections := st.listOfHelloedConnections.filter (· ≠ c)
    roundRobinQueue :=
      -- `removeAll` returns how many there were, and the queue is only touched for one
      if st.listOfHelloedConnections.count c = 1 then st.roundRobinQueue.filter (· ≠ c)
      else st.roundRobinQueue }

def connectionDoneHelloing (st : MultiServerAbstraction) (c : ConnectionId) :
    MultiServerAbstraction :=
  { st with
    listOfHelloedConnections := st.listOfHelloedConnections ++ [c]
    bad := st.bad.filter (· ≠ c) }

/-- With `appendDeadConnectionThatMightBePickedUpLater`. -/
def makeConnectionBad (st : MultiServerAbstraction) (c : ConnectionId) : MultiServerAbstraction :=
  { st.dontBroadcastTo c with
    listOfDeadConnectionsThatMightBePickedUpLater :=
      st.listOfDeadConnectionsThatMightBePickedUpLater ++ [c]
    bad := c :: st.bad }

/-- Connection `old` takes over the device of the client.  Closing its own device makes it bad if
that is reported at once. -/
def mergeNewIoDevice (st : MultiServerAbstraction) (old : ConnectionId) (client : ClientId)
    (disconnected : Bool) : MultiServerAbstraction :=
  ((if disconnected then st.makeConnectionBad old else st).setConnection old
    fun connection => { connection with client := client }).connectionDoneHelloing old

/-- `potentialMergeCaseAsCookieIsSupplied`, for a connection that has just been given the cookie. -/
def potentialMerge (st : MultiServerAbstraction) (c : ConnectionId) (k : Cookie)
    (inputs : List CookieInput) : Asked MultiServerAbstraction :=
  (st.getExistingConnectionUsingCookie hash toUInt k inputs).map fun
    | none => st
    | some old =>
        (st.dontBroadcastTo old).setConnection c fun connection =>
          { connection with oldConnectionToMergeOnto := some old }

/-- `WelcomeFromServer` and `OkStartSendingBroFromServer` carry the cookie. -/
def send (st : MultiServerAbstraction) (c : ConnectionId) (k : Cookie) : MultiServerAbstraction :=
  { st with sent := st.sent ++ [((st.connections c).client, k)] }

/-! ## The messages -/

/-- The rest of the hello. -/
def welcome (st : MultiServerAbstraction) (c : ConnectionId) (inputs : List CookieInput) :
    MultiServerAbstraction :=
  st.andThen (st.cookie hash toUInt c inputs) fun (k, st) => st.send c k

def initialHello (st : MultiServerAbstraction) (c : ConnectionId) (k : Option Cookie)
    (inputs : List CookieInput) : MultiServerAbstraction :=
  let st := st.setConnection c fun connection =>
    { connection with oldConnectionToMergeOnto := none }
  match k with
  | none => st.welcome hash toUInt c inputs
  | some k =>
      let st := st.setConnection c fun connection => { connection with cookie := some k }
      st.andThen (st.potentialMerge hash toUInt c k inputs) fun st =>
        st.welcome hash toUInt c inputs

/-- The cookie was confirmed: merge, or the connection itself is done. -/
def doneHelloing (st : MultiServerAbstraction) (c : ConnectionId) (disconnected : Bool) :
    MultiServerAbstraction :=
  match (st.connections c).oldConnectionToMergeOnto with
  | some old =>
      -- the dead connection may have been deleted since it was found
      if old ∈ st.destroyed then { st with usedDeleted := true }
      else
        let st := st.mergeNewIoDevice old (st.connections c).client disconnected
        { st with deletedLater := st.deletedLater ++ [c] }
  | none => st.connectionDoneHelloing c

def thankYouForWelcomingMe (st : MultiServerAbstraction) (c : ConnectionId)
    (cookieForConfirming : Cookie) (inputs : List CookieInput) (disconnected : Bool) :
    MultiServerAbstraction :=
  st.andThen (st.cookie hash toUInt c inputs) fun (k, st) =>
    if cookieForConfirming = k then (st.doneHelloing c disconnected).send c k else st

def messageReceived (st : MultiServerAbstraction) (c : ConnectionId) (message : List Byte)
    (inputs : List CookieInput) (disconnected : Bool) : MultiServerAbstraction :=
  match MessageFromClient.ofMessage message with
  | .initialHello k => st.initialHello hash toUInt c k inputs
  | .thankYouForWelcomingMe k => st.thankYouForWelcomingMe hash toUInt c k inputs disconnected
  | .other => st

/-! ## Round robin -/

/-- The indexes in the order in which they are taken out at random. -/
def takeAtRandom (qrand : ℕ → ℕ) : ℕ → List ℕ → List ℕ
  | 0, _ => []
  | remaining + 1, indexesRemaining =>
      let i := qrand remaining % indexesRemaining.length
      (indexesRemaining[i]?).toList ++
        takeAtRandom qrand remaining (indexesRemaining.eraseIdx i)

def refillRoundRobinFromHellodConnections (st : MultiServerAbstraction) (qrand : ℕ → ℕ) :
    MultiServerAbstraction :=
  let size := st.listOfHelloedConnections.length
  { st with
    roundRobinQueue := st.roundRobinQueue ++
      (takeAtRandom qrand size (List.range size)).filterMap (st.listOfHelloedConnections[·]?)
    selected := [] }

/-- Select the connection at the front of the queue. -/
def dequeue (st : MultiServerAbstraction) : MultiServerAbstraction :=
  match st.roundRobinQueue with
  | [] => st
  | c :: rest => { st with roundRobinQueue := rest, selected := st.selected ++ [c] }

def selectForBroadcast (st : MultiServerAbstraction) (qrand : ℕ → ℕ) : MultiServerAbstraction :=
  if st.roundRobinQueue = [] then (st.refillRoundRobinFromHellodConnections qrand).dequeue
  else st.dequeue

/-! ## Events -/

def handleNewClientConnected (st : MultiServerAbstraction) (client : ClientId) :
    MultiServerAbstraction :=
  { st.setConnection st.made fun _ => { client := client } with
    made := st.made + 1
    listOfConnectionsIgnoringHelloState := st.listOfConnectionsIgnoringHelloState ++ [st.made] }

/-- The destructor, with `reportConnectionDestroying`. -/
def destroy (st : MultiServerAbstraction) (c : ConnectionId) : MultiServerAbstraction :=
  { st with
    listOfConnectionsIgnoringHelloState :=
      st.listOfConnectionsIgnoringHelloState.filter (· ≠ c)
    destroyed := c :: st.destroyed }

/-- The connection exists. -/
def Exists (st : MultiServerAbstraction) (c : ConnectionId) : Prop :=
  c < st.made ∧ c ∉ st.destroyed
  deriving Decidable

/-- A server that does not come back from generating a cookie, or has used a deleted connection,
takes no further event. -/
def step (st : MultiServerAbstraction) (x : Event) : MultiServerAbstraction :=
  if st.generating ∨ st.usedDeleted then st
  else
    match x with
    | .newClientConnected client => st.handleNewClientConnected client
    | .messageReceived c message inputs disconnected =>
        if st.Exists c then st.messageReceived hash toUInt c message inputs disconnected else st
    | .makeConnectionBad c => if st.Exists c then st.makeConnectionBad c else st
    | .selectForBroadcast qrand => st.selectForBroadcast qrand
    | .destroy c => if st.Exists c ∧ c ∈ st.deletedLater then st.destroy c else st

end MultiServerAbstraction

end Autobackup.Network
