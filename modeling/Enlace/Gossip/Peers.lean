import Enlace.Gossip.Wire
import Enlace.Lib.Table
import Enlace.Lib.Transition

set_option autoImplicit false

/-! The runtimes of `GossipActor` in `gossip.ts`: the dial or the connections to each peer. Objects that the source
compares by identity are numbers. -/
namespace Enlace.Gossip
open ByteString

abbrev ConnectionId := ℕ

abbrev RuntimeId := ℕ

inductive PeerConnectionDirection where
  | inbound
  | outbound
  deriving DecidableEq

structure QueuedMessage where
  topicId : TopicId
  message : GossipTopicMessage
  deriving DecidableEq

structure PeerPendingState where
  number : ℕ
  queue : List QueuedMessage
  dialing : Bool
  deriving DecidableEq

structure PeerActiveState where
  sendQueue : List QueuedMessage
  connection : ConnectionId
  direction : PeerConnectionDirection
  writers : List TopicId
  otherConnections : List ConnectionId
  deriving DecidableEq

inductive PeerState where
  | pending (state : PeerPendingState)
  | active (state : PeerActiveState)
  deriving DecidableEq

structure PeerRuntime where
  peer : PeerId
  state : PeerState
  deriving DecidableEq

/-- The queue and the writers after the loop of `flushRuntime`, and whether a write threw, the one that `fail` counts
down to. Its message is lost. -/
def writeFrames : Option ℕ → List QueuedMessage → List TopicId → (List QueuedMessage × List TopicId) × Bool
  | _, [], writers => (([], writers), false)
  | some 0, _ :: queue, writers => ((queue, writers), true)
  | fail, event :: queue, writers => writeFrames (fail.map (· - 1)) queue (OrderedSet.add writers event.topicId)

def Throws (fail : Option ℕ) (queue : List QueuedMessage) : Prop := ∃ write, fail = some write ∧ write < queue.length

lemma writeFrames_throws (fail : Option ℕ) (queue : List QueuedMessage) (writers : List TopicId) :
    (writeFrames fail queue writers).2 = true ↔ Throws fail queue := by
 induction queue generalizing fail writers with
 | nil => simp [writeFrames,Throws]
 | cons event queue ih =>
  match fail with
  | none => simp [writeFrames,ih,Throws]
  | some 0 => simp [writeFrames,Throws]
  | some (write+1) => simp [writeFrames,ih,Throws]

namespace PeerState

/-- `runtime.state === state` for the pending state with the number. -/
def isPending (number : ℕ) : PeerState → Bool
  | pending state => state.number = number
  | active _ => false

def endDial : PeerState → PeerState
  | pending state => pending { state with dialing := false }
  | active state => active state

/-- `hasRuntimeConnection`. -/
def Holds (connection : ConnectionId) : PeerState → Prop
  | pending _ => False
  | active state => state.connection = connection ∨ connection ∈ state.otherConnections

def activate (preferred : PeerConnectionDirection) (connection : ConnectionId) (direction : PeerConnectionDirection) :
    PeerState → Option PeerActiveState
  | pending state => some ⟨state.queue, connection, direction, [], []⟩
  | active state =>
    if state.connection = connection then some { state with direction := direction }
    else if state.direction = preferred ∨ direction ≠ preferred then none
    else some ⟨state.sendQueue, connection, direction, [], OrderedSet.add state.otherConnections state.connection⟩

end PeerState

def preferredDirection (me peer : PeerId) : PeerConnectionDirection :=
  if hex me.toList < hex peer.toList then .outbound else .inbound

/-- The table of the peers with its objects, the dials and read loops that refer to a runtime, and what was asked of the
endpoint. -/
structure PeerTable where
  me : PeerId
  addressBook : List (PeerId × String)
  peers : List (PeerId × RuntimeId)
  runtimes : RuntimeId → PeerRuntime
  nextRuntime : RuntimeId
  nextPending : ℕ
  dials : List (RuntimeId × ℕ)
  readers : List (RuntimeId × ConnectionId)
  connects : List PeerId
  obtained : List ConnectionId
  closedConnections : List ConnectionId

abbrev PeersM := StateM PeerTable

namespace PeerTable

def create (me : PeerId) : PeerTable :=
  ⟨me, [], [], fun _ => ⟨me, .pending ⟨0, [], false⟩⟩, 0, 0, [], [], [], [], []⟩

def setState (id : RuntimeId) (state : PeerState) (t : PeerTable) : PeerTable :=
  { t with runtimes := Function.update t.runtimes id { t.runtimes id with state := state } }

def closeConnection (connection : ConnectionId) : PeersM Unit :=
  modify fun t => { t with closedConnections := t.closedConnections ++ [connection] }

def rememberAddress (peer : PeerId) (relayUrl : String) (t : PeerTable) : PeerTable :=
  { t with addressBook := OrderedMap.set t.addressBook peer relayUrl }

def addRuntime (peer : PeerId) (t : PeerTable) : PeerTable :=
  { t with
    peers := OrderedMap.set t.peers peer t.nextRuntime
    runtimes := Function.update t.runtimes t.nextRuntime ⟨peer, .pending ⟨t.nextPending, [], false⟩⟩
    nextRuntime := t.nextRuntime + 1
    nextPending := t.nextPending + 1 }

def requirePeer (peer : PeerId) : PeersM RuntimeId := do
  let t ← get
  match OrderedMap.get t.peers peer with
  | some id => return id
  | none =>
    set (t.addRuntime peer)
    return t.nextRuntime

def closeRuntime (id : RuntimeId) : PeersM Unit := do
  let t ← get
  match (t.runtimes id).state with
  | .pending _ => return
  | .active state =>
    set { t.setState id (.active { state with writers := [], otherConnections := [] }) with
      closedConnections := t.closedConnections ++ state.connection :: state.otherConnections }

def waitAgain (id : RuntimeId) (queue : List QueuedMessage) (t : PeerTable) : PeerTable :=
  { t.setState id (.pending ⟨t.nextPending, queue, false⟩) with nextPending := t.nextPending + 1 }

/-- `peerDisconnected` up to the event of the protocol; the result is the peer that the event is about. -/
def peerDisconnected (id : RuntimeId) (connection : ConnectionId) : PeersM (Option PeerId) := do
  let t ← get
  match (t.runtimes id).state with
  | .pending _ => return none
  | .active state =>
    if connection ∈ state.otherConnections then
      set (t.setState id
        (.active { state with otherConnections := OrderedSet.delete state.otherConnections connection }))
      closeConnection connection
      return none
    else if state.connection ≠ connection then return none
    else
      closeRuntime id
      modify (waitAgain id state.sendQueue)
      return some (t.runtimes id).peer

def flushRuntime (fail : Option ℕ) (id : RuntimeId) : PeersM (Option PeerId) := do
  let t ← get
  match (t.runtimes id).state with
  | .pending _ => return none
  | .active state =>
    let written := writeFrames fail state.sendQueue state.writers
    set (t.setState id (.active { state with sendQueue := written.1.1, writers := written.1.2 }))
    if written.2 then peerDisconnected id state.connection else return none

def dial (id : RuntimeId) (state : PeerPendingState) (t : PeerTable) : PeerTable :=
  if state.dialing then t
  else
    match OrderedMap.get t.addressBook (t.runtimes id).peer with
    | none => t
    | some _ =>
      { t.setState id (.pending { state with dialing := true }) with
        dials := t.dials ++ [(id, state.number)]
        connects := t.connects ++ [(t.runtimes id).peer] }

def sendMessage (fail : Option ℕ) (peer : PeerId) (event : QueuedMessage) : PeersM (Option PeerId) := do
  let id ← requirePeer peer
  let t ← get
  match (t.runtimes id).state with
  | .active state =>
    set (t.setState id (.active { state with sendQueue := state.sendQueue ++ [event] }))
    flushRuntime fail id
  | .pending state =>
    let queued := { state with queue := state.queue ++ [event] }
    set (dial id queued (t.setState id (.pending queued)))
    return none

/-- The read loop of a connection ends at once if the actor is closed. -/
def startReading (closed : Bool) (id : RuntimeId) (connection : ConnectionId) (t : PeerTable) : PeerTable :=
  if closed then t else { t with readers := t.readers ++ [(id, connection)] }

def activateConnection (closed : Bool) (fail : Option ℕ) (peer : PeerId) (connection : ConnectionId)
    (direction : PeerConnectionDirection) : PeersM (Option PeerId) := do
  let id ← requirePeer peer
  let t ← get
  match (t.runtimes id).state.activate (preferredDirection t.me peer) connection direction with
  | none =>
    closeConnection connection
    return none
  | some state =>
    set (startReading closed id connection (t.setState id (.active state)))
    flushRuntime fail id

def acquire (connection : ConnectionId) (t : PeerTable) : PeerTable :=
  { t with obtained := t.obtained ++ [connection] }

def endDial (id : RuntimeId) (number : ℕ) (t : PeerTable) : PeerTable :=
  { t with dials := t.dials.erase (id, number) }

def accepted (closed : Bool) (fail : Option ℕ) (peer : PeerId) (connection : ConnectionId) :
    PeersM (Option PeerId) := do
  modify (acquire connection)
  activateConnection closed fail peer connection .inbound

def dialed (closed : Bool) (fail : Option ℕ) (id : RuntimeId) (number : ℕ) (connection : ConnectionId) :
    PeersM (Option PeerId) := do
  modify fun t => (t.endDial id number).acquire connection
  let t ← get
  if (t.runtimes id).state.isPending number then
    set (t.setState id (t.runtimes id).state.endDial)
    activateConnection closed fail (t.runtimes id).peer connection .outbound
  else
    closeConnection connection
    return none

def dialFailed (id : RuntimeId) (number : ℕ) : PeersM (Option PeerId) := do
  modify (endDial id number)
  let t ← get
  if (t.runtimes id).state.isPending number then
    set (t.setState id (t.runtimes id).state.endDial)
    return some (t.runtimes id).peer
  else return none

def disconnectPeer (peer : PeerId) : PeersM Unit := do
  let t ← get
  match OrderedMap.get t.peers peer with
  | none => return
  | some id =>
    closeRuntime id
    modify fun t => { t with peers := OrderedMap.delete t.peers peer }

def closeRuntimes : List RuntimeId → PeersM Unit
  | [] => return
  | id :: ids => do
    closeRuntime id
    closeRuntimes ids

/-- What `close` does with the peers. -/
def closePeers : PeersM Unit := do
  let t ← get
  closeRuntimes (t.peers.map Prod.snd)
  modify fun t => { t with peers := [] }

end PeerTable

end Enlace.Gossip
