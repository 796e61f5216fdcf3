import Enlace.Gossip.Peers
import Enlace.Gossip.Topic

set_option autoImplicit false

/-! `GossipActor` and `IrohGossipSubscription` of `gossip.ts`. The calls of `processOut` that a call of it makes are its
last ones, so that the events which are left to process form one list. -/
namespace Enlace.Gossip
open ByteString

inductive IrohGossipEvent where
  | join (topicId : TopicId) (peerData : Option Bytes)
  | neighborUp (topicId : TopicId) (peer : PeerId)
  | neighborDown (topicId : TopicId) (peer : PeerId)
  | message (topicId : TopicId) (deliveredFrom : PeerId) (id : MessageId) (payload : Bytes)
      (scope : GossipDeliveryScope)
  deriving DecidableEq

structure AsyncQueue (α : Type) where
  values : List α
  closed : Bool
  failed : Bool

namespace AsyncQueue

variable {α : Type}

def push (value : α) (q : AsyncQueue α) : AsyncQueue α :=
  if q.closed then q else { q with values := q.values ++ [value] }

def fail (q : AsyncQueue α) : AsyncQueue α := if q.closed then q else { q with closed := true, failed := true }

def close (q : AsyncQueue α) : AsyncQueue α := { q with closed := true }

end AsyncQueue

/-- `joinedResolvers` counts the unresolved promises of `joined`, `peerJoined` has the peers of those of `joinPeer`. -/
structure IrohGossipSubscription where
  topicId : TopicId
  events : AsyncQueue IrohGossipEvent
  neighbors : List PeerId
  joinedResolvers : ℕ
  peerJoined : List PeerId
  closed : Bool

namespace IrohGossipSubscription

def create (topicId : TopicId) : IrohGossipSubscription := ⟨topicId, ⟨[], false, false⟩, [], 0, [], false⟩

def isJoined (s : IrohGossipSubscription) : Bool := s.neighbors.length ≠ 0

def joined (s : IrohGossipSubscription) : IrohGossipSubscription :=
  if s.isJoined then s else { s with joinedResolvers := s.joinedResolvers + 1 }

def awaitPeer (peer : PeerId) (s : IrohGossipSubscription) : IrohGossipSubscription :=
  if OrderedSet.has s.neighbors peer then s else { s with peerJoined := OrderedSet.add s.peerJoined peer }

def push (event : IrohGossipEvent) (s : IrohGossipSubscription) : IrohGossipSubscription :=
  if s.closed then s
  else
    match event with
    | .neighborUp _ peer =>
      { s with
        neighbors := OrderedSet.add s.neighbors peer
        joinedResolvers := 0
        peerJoined := OrderedSet.delete s.peerJoined peer
        events := s.events.push event }
    | .neighborDown _ peer =>
      { s with neighbors := OrderedSet.delete s.neighbors peer, events := s.events.push event }
    | _ => { s with events := s.events.push event }

def fail (s : IrohGossipSubscription) : IrohGossipSubscription :=
  { s with events := s.events.fail, joinedResolvers := 0, peerJoined := [] }

def close (s : IrohGossipSubscription) : IrohGossipSubscription :=
  { s with closed := true, events := s.events.close, joinedResolvers := 0, peerJoined := [] }

end IrohGossipSubscription

inductive Task where
  | out (event : GossipProtocolOutEvent)
  | closeSubscription (subscription : ℕ)
  | peerReady (peer : PeerId)
  deriving DecidableEq

structure IrohEndpointAddress where
  endpointId : PeerId
  relayUrl : String
  deriving DecidableEq

/-- The accept loop awaits a connection as long as it is `accepting`. -/
structure GossipActor extends PeerTable where
  state : GossipProtocolState
  subscriptions : List (TopicId × List ℕ)
  handles : ℕ → IrohGossipSubscription
  nextHandle : ℕ
  closed : Bool
  accepting : Bool
  todo : List Task

/-- `work` is the next task of a call; `fail` is the write that throws, counted from the first one of the queue. -/
inductive GossipActorEvent where
  | work (fail : Option ℕ)
  | subscribe (topicId : TopicId) (bootstrap : List IrohEndpointAddress)
  | closeSubscription (subscription : ℕ)
  | joined (subscription : ℕ)
  | joinPeer (subscription : ℕ) (peer : IrohEndpointAddress)
  | joinPeers (subscription : ℕ) (peers : List IrohEndpointAddress)
  | awaitPeer (subscription : ℕ) (peer : PeerId)
  | broadcast (subscription : ℕ) (payload : Bytes) (scope : Option GossipBroadcastScope)
  | timerExpired (topicId : TopicId) (timer : Option TopicTimer)
  | accepted (peer : PeerId) (connection : ConnectionId) (fail : Option ℕ)
  | acceptRejected
  | dialed (runtime : RuntimeId) (number : ℕ) (connection : ConnectionId) (fail : Option ℕ)
  | dialFailed (runtime : RuntimeId) (number : ℕ)
  | message (runtime : RuntimeId) (connection : ConnectionId) (topicId : TopicId) (message : GossipTopicMessage)
  | readFailed (runtime : RuntimeId) (connection : ConnectionId)
  | close
  deriving DecidableEq

namespace GossipActor

/-- The constructor starts the accept loop. -/
def create (state : GossipProtocolState) : GossipActor where
  toPeerTable := .create state.me
  state := state
  subscriptions := []
  handles _ := .create state.me
  nextHandle := 0
  closed := false
  accepting := true
  todo := []

def onHandle (subscription : ℕ) (f : IrohGossipSubscription → IrohGossipSubscription) (a : GossipActor) : GossipActor :=
  { a with handles := Function.update a.handles subscription (f (a.handles subscription)) }

def subscribers (a : GossipActor) (topicId : TopicId) : List ℕ := (OrderedMap.get a.subscriptions topicId).getD []

def onSubscribers (subscribers : List ℕ) (f : IrohGossipSubscription → IrohGossipSubscription) (a : GossipActor) :
    GossipActor :=
  { a with handles := fun n => if OrderedSet.has subscribers n then f (a.handles n) else a.handles n }

def pushTopicEvent (topicId : TopicId) (event : IrohGossipEvent) (a : GossipActor) : GossipActor :=
  a.onSubscribers (a.subscribers topicId) (·.push event)

def emitEvent (topicId : TopicId) (event : GossipProtocolTopicEvent) (a : GossipActor) : GossipActor :=
  match event with
  | .neighborUp peer =>
      (a.pushTopicEvent topicId (.neighborUp topicId peer)).pushTopicEvent topicId (.join topicId none)
  | .neighborDown peer => a.pushTopicEvent topicId (.neighborDown topicId peer)
  | .received deliveredFrom id payload scope =>
      a.pushTopicEvent topicId (.message topicId deliveredFrom id payload scope)

def failAll (a : GossipActor) : GossipActor := a.onSubscribers (a.subscriptions.flatMap Prod.snd) (·.fail)

/-- `decodeRelayUrl` is the relay of the address that `decodeGossipPeerDataAddrInfo` finds. -/
def updatePeerData (decodeRelayUrl : Bytes → Option String) (peer : PeerId) (peerData : Bytes) (a : GossipActor) :
    GossipActor :=
  match decodeRelayUrl peerData with
  | none => a
  | some relayUrl => { a with toPeerTable := a.rememberAddress peer relayUrl }

def rememberAddresses (addresses : List IrohEndpointAddress) (a : GossipActor) : GossipActor :=
  let remember := fun t address => PeerTable.rememberAddress address.endpointId address.relayUrl t
  { a with toPeerTable := addresses.foldl remember a.toPeerTable }

def addSubscriber (topicId : TopicId) (a : GossipActor) : GossipActor :=
  { a with
    subscriptions := OrderedMap.set a.subscriptions topicId (OrderedSet.add (a.subscribers topicId) a.nextHandle)
    handles := Function.update a.handles a.nextHandle (.create topicId)
    nextHandle := a.nextHandle + 1 }

section
variable (blake3 : Bytes → MessageId) (decodeRelayUrl : Bytes → Option String)

def handle (event : GossipProtocolInEvent) (nowMs : ℕ) (a : GossipActor) : GossipActor :=
  { a with
    state := (GossipProtocolState.handle blake3 event nowMs a.state).2
    todo := (GossipProtocolState.handle blake3 event nowMs a.state).1.map .out ++ a.todo }

def onPeers (m : PeersM (Option PeerId)) (nowMs : ℕ) (a : GossipActor) : GossipActor :=
  match (m a.toPeerTable).1 with
  | none => { a with toPeerTable := (m a.toPeerTable).2 }
  | some peer => handle blake3 (.peerDisconnected peer) nowMs { a with toPeerTable := (m a.toPeerTable).2 }

lemma onPeers_eq (m : PeersM (Option PeerId)) (nowMs : ℕ) (a : GossipActor) :
    ∃ peers state todo, a.onPeers blake3 m nowMs = { a with toPeerTable := peers, state := state, todo := todo } := by
 unfold onPeers
 split
 · exact ⟨_,_,_,rfl⟩
 · exact ⟨_,_,_,rfl⟩

def processOut (fail : Option ℕ) (event : GossipProtocolOutEvent) (nowMs : ℕ) (a : GossipActor) : GossipActor :=
  match event with
  | .sendMessage peer topicId message => a.onPeers blake3 (PeerTable.sendMessage fail peer ⟨topicId, message⟩) nowMs
  | .emitEvent topicId event => a.emitEvent topicId event
  | .disconnectPeer peer => { a with toPeerTable := (PeerTable.disconnectPeer peer a.toPeerTable).2 }
  | .peerData peer peerData => a.updatePeerData decodeRelayUrl peer peerData
  | .scheduleTimer _ _ _ => a

/-- `close` of a subscription with `unsubscribe`: the topic is left with its last subscription. -/
def closeSubscription (subscription : ℕ) (nowMs : ℕ) (a : GossipActor) : GossipActor :=
  if (a.handles subscription).closed then a
  else
    let topicId := (a.handles subscription).topicId
    let closed := a.onHandle subscription (·.close)
    match OrderedMap.get a.subscriptions topicId with
    | none => closed
    | some subscriptions =>
      let rest := OrderedSet.delete subscriptions subscription
      if rest.length ≠ 0 then { closed with subscriptions := OrderedMap.set a.subscriptions topicId rest }
      else
        handle blake3 (.command topicId .quit) nowMs
          { closed with subscriptions := OrderedMap.delete a.subscriptions topicId }

def perform (fail : Option ℕ) (task : Task) (nowMs : ℕ) (a : GossipActor) : GossipActor :=
  match task with
  | .out event => a.processOut blake3 decodeRelayUrl fail event nowMs
  | .closeSubscription subscription => a.closeSubscription blake3 subscription nowMs
  | .peerReady peer => { a with toPeerTable := (PeerTable.requirePeer peer a.toPeerTable).2 }

def joinPeers (topicId : TopicId) (peers : List IrohEndpointAddress) (nowMs : ℕ) (a : GossipActor) : GossipActor :=
  let joined := handle blake3 (.command topicId (.join (peers.map (·.endpointId)))) nowMs (a.rememberAddresses peers)
  { joined with todo := joined.todo ++ peers.map fun peer => .peerReady peer.endpointId }

def subscribe (topicId : TopicId) (bootstrap : List IrohEndpointAddress) (nowMs : ℕ) (a : GossipActor) : GossipActor :=
  (a.addSubscriber topicId).joinPeers blake3 topicId bootstrap nowMs

/-- `close` of the actor; the table of the subscriptions is empty when the last of them is closed. -/
def close (a : GossipActor) : GossipActor :=
  if a.closed then a
  else
    { a with
      toPeerTable := (PeerTable.closePeers a.toPeerTable).2
      closed := true
      todo := (a.subscriptions.flatMap Prod.snd).map .closeSubscription }

def IsOpen (a : GossipActor) (subscription : ℕ) : Prop :=
  subscription < a.nextHandle ∧ (a.handles subscription).closed = false

instance decidableIsOpen (a : GossipActor) (subscription : ℕ) : Decidable (a.IsOpen subscription) :=
  inferInstanceAs (Decidable (_ ∧ _))

def IsFresh (a : GossipActor) (connection : ConnectionId) : Prop :=
  connection ∉ a.obtained ∧ connection ∉ a.closedConnections

instance decidableIsFresh (a : GossipActor) (connection : ConnectionId) : Decidable (a.IsFresh connection) :=
  inferInstanceAs (Decidable (_ ∧ _))

/-- What happens while no call is being processed. Only what was started comes to an end, and no timer expires after
`close`. -/
def react (event : GossipActorEvent) (nowMs : ℕ) (a : GossipActor) : Option GossipActor :=
  match event with
  | .work _ => none
  | .subscribe topicId bootstrap => some (a.subscribe blake3 topicId bootstrap nowMs)
  | .closeSubscription n => if n < a.nextHandle then some (a.closeSubscription blake3 n nowMs) else none
  | .joined n => if n < a.nextHandle then some (a.onHandle n (·.joined)) else none
  | .joinPeer n peer =>
    if a.IsOpen n then
      some ((a.onHandle n (·.awaitPeer peer.endpointId)).joinPeers blake3 (a.handles n).topicId [peer] nowMs)
    else none
  | .joinPeers n peers =>
    if a.IsOpen n then some (a.joinPeers blake3 (a.handles n).topicId peers nowMs) else none
  | .awaitPeer n peer => if n < a.nextHandle then some (a.onHandle n (·.awaitPeer peer)) else none
  | .broadcast n payload scope =>
    if a.IsOpen n then some (a.handle blake3 (.command (a.handles n).topicId (.broadcast payload scope)) nowMs)
    else none
  | .timerExpired topicId timer =>
    if a.closed = false then some (a.handle blake3 (.timerExpired topicId timer) nowMs) else none
  | .accepted peer connection fail =>
    if a.accepting ∧ a.IsFresh connection then
      some { a.onPeers blake3 (PeerTable.accepted a.closed fail peer connection) nowMs with accepting := !a.closed }
    else none
  | .acceptRejected =>
    if a.accepting then some { if a.closed then a else a.failAll with accepting := false } else none
  | .dialed id number connection fail =>
    if (id, number) ∈ a.dials ∧ a.IsFresh connection then
      some (a.onPeers blake3 (PeerTable.dialed a.closed fail id number connection) nowMs)
    else none
  | .dialFailed id number =>
    if (id, number) ∈ a.dials then some (a.onPeers blake3 (PeerTable.dialFailed id number) nowMs) else none
  | .message id connection topicId message =>
    if (id, connection) ∈ a.readers then
      some (a.handle blake3 (.recvMessage (a.runtimes id).peer topicId message) nowMs)
    else none
  | .readFailed id connection =>
    if (id, connection) ∈ a.readers then
      some (a.onPeers blake3 (PeerTable.peerDisconnected id connection) nowMs)
    else none
  | .close => some a.close

/-- A call is processed to its end before anything else happens. -/
def step (a : GossipActor) (event : GossipActorEvent × ℕ) : Option GossipActor :=
  match a.todo, event.1 with
  | [], _ => a.react blake3 event.1 event.2
  | task :: todo, .work fail => some ({ a with todo := todo }.perform blake3 decodeRelayUrl fail task event.2)
  | _ :: _, _ => none

end

end GossipActor

end Enlace.Gossip
