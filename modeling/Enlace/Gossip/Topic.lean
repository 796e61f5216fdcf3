import Mathlib.Data.Stream.Defs
import Enlace.Gossip.Wire
import Enlace.Lib.Table

set_option autoImplicit false

/-! `GossipTopicProtocolState` of `gossip/state.ts`. A map from keys to the peers that have them is the list of the
peers in the order of the map; a map that is never listed is a function. -/
namespace Enlace.Gossip
open ByteString Enlace.Quic

def lazyDispatchDelayMs : ℕ := 5
def graftTimeoutMs : ℕ := 80
def retryGraftTimeoutMs : ℕ := 40
def messageCacheRetentionMs : ℕ := 30000
def messageIdRetentionMs : ℕ := 90000
def activeRandomWalkLength : ℕ := 6
def passiveRandomWalkLength : ℕ := 3
def shuffleRandomWalkLength : ℕ := 6
def shuffleActiveViewCount : ℕ := 3
def shufflePassiveViewCount : ℕ := 4
def shuffleIntervalMs : ℕ := 60000
def pendingNeighborTimeoutMs : ℕ := 500

inductive GossipBroadcastScope where
  | swarm
  | neighbors
  deriving DecidableEq

inductive GossipProtocolCommand where
  | join (peers : List PeerId)
  | broadcast (payload : Bytes) (scope : Option GossipBroadcastScope)
  | quit
  deriving DecidableEq

inductive TopicTimer where
  | dispatchLazyPush
  | pendingNeighbor (peer : PeerId)
  | sendGraft (id : MessageId)
  | doShuffle
  deriving DecidableEq

inductive GossipProtocolTopicEvent where
  | neighborUp (peer : PeerId)
  | neighborDown (peer : PeerId)
  | received (deliveredFrom : PeerId) (id : MessageId) (payload : Bytes) (scope : GossipDeliveryScope)
  deriving DecidableEq

inductive TopicOutEvent where
  | sendMessage (peer : PeerId) (message : GossipTopicMessage)
  | emitEvent (event : GossipProtocolTopicEvent)
  | scheduleTimer (delayMs : ℕ) (timer : TopicTimer)
  | disconnectPeer (peer : PeerId)
  | peerData (peer : PeerId) (peerData : Bytes)
  deriving DecidableEq

/-- The timer of an expiry is `none` if it is not one of the topic. -/
inductive TopicInEvent where
  | recvMessage (peer : PeerId) (message : GossipTopicMessage)
  | command (command : GossipProtocolCommand)
  | peerDisconnected (peer : PeerId)
  | updatePeerData (peerData : Option Bytes)
  | timerExpired (timer : Option TopicTimer)
  deriving DecidableEq

structure MissingMessageSource where
  peer : PeerId
  round : ℕ
  deriving DecidableEq

structure CachedGossipMessage where
  message : GossipBroadcastMessage
  expiresAtMs : ℕ
  deriving DecidableEq

structure Mesh where
  me : PeerId
  neighbors : List PeerId
  eagerPeers : List PeerId
  lazyPeers : List PeerId
  lazyPushQueue : List (PeerId × List GossipIHaveEntry)
  dispatchTimerScheduled : Bool

/-- `random` are the numbers that `randomInt` does not reject, in order. A message without sources has no queue in
`missingMessages`. -/
structure GossipTopicState extends Mesh where
  activeViewCapacity : ℕ
  maxMessageSize : ℕ
  passiveViewCapacity : ℕ
  random : Stream' ℕ
  peerData : Option Bytes
  passivePeers : List PeerId
  pendingNeighborRequests : List PeerId
  aliveDisconnectPeers : List PeerId
  missingMessages : MessageId → List MissingMessageSource
  graftTimerScheduled : MessageId → Bool
  cache : MessageId → Option CachedGossipMessage
  peerDataByPeer : PeerId → Option Bytes
  seenMessages : MessageId → Option ℕ
  shuffleTimerScheduled : Bool

abbrev TopicM := StateM GossipTopicState

namespace GossipTopicState

def create (me : PeerId) (activeViewCapacity maxMessageSize passiveViewCapacity : ℕ) (random : Stream' ℕ)
    (peerData : Option Bytes) : GossipTopicState where
  me := me
  neighbors := []
  eagerPeers := []
  lazyPeers := []
  lazyPushQueue := []
  dispatchTimerScheduled := false
  activeViewCapacity := activeViewCapacity
  maxMessageSize := maxMessageSize
  passiveViewCapacity := passiveViewCapacity
  random := random
  peerData := peerData
  passivePeers := []
  pendingNeighborRequests := []
  aliveDisconnectPeers := []
  missingMessages _ := []
  graftTimerScheduled _ := false
  cache _ := none
  peerDataByPeer _ := none
  seenMessages _ := none
  shuffleTimerScheduled := false

def randomInt (maxExclusive : ℕ) : TopicM ℕ := do
  let s ← get
  set { s with random := s.random.tail }
  return s.random.head % maxExclusive

def randomArrayValue {α : Type} (values : List α) : TopicM (Option α) := do
  if values.length = 0 then return none
  else
    let index ← randomInt values.length
    return values[index]?

def randomSample {α : Type} (values : List α) : ℕ → TopicM (List α)
  | 0 => return []
  | count + 1 => do
    if values.length = 0 then return []
    else
      let index ← randomInt values.length
      let rest ← randomSample (values.eraseIdx index) count
      return values[index]?.toList ++ rest

def addEager (peer : PeerId) (s : GossipTopicState) : GossipTopicState :=
  { s with
    lazyPeers := OrderedSet.delete s.lazyPeers peer
    lazyPushQueue := OrderedMap.delete s.lazyPushQueue peer
    eagerPeers := OrderedSet.add s.eagerPeers peer }

def addLazy (peer : PeerId) (s : GossipTopicState) : GossipTopicState :=
  { s with
    eagerPeers := OrderedSet.delete s.eagerPeers peer
    lazyPeers := OrderedSet.add s.lazyPeers peer }

def removeMissingFromPeer (peer : PeerId) (s : GossipTopicState) : GossipTopicState :=
  { s with missingMessages := fun id => (s.missingMessages id).filter fun entry => entry.peer ≠ peer }

def addPeerData (peer : GossipPeerInfo) : TopicM (List TopicOutEvent) := do
  let s ← get
  match peer.peerData with
  | none => return []
  | some peerData =>
    if peerData.length = 0 ∨ s.peerDataByPeer peer.id = some peerData then return []
    else
      set { s with peerDataByPeer := Function.update s.peerDataByPeer peer.id (some peerData) }
      return [.peerData peer.id peerData]

def peerInfo (s : GossipTopicState) (peer : PeerId) : GossipPeerInfo := ⟨peer, s.peerDataByPeer peer⟩

def peerSample (count : ℕ) : TopicM (List GossipPeerInfo) := do
  let s ← get
  let peers ← randomSample (s.passivePeers ++ s.neighbors) count
  return peers.map s.peerInfo

def peerSamplePassiveFirst (count : ℕ) : TopicM (List GossipPeerInfo) := do
  let s ← get
  let passive ← randomSample s.passivePeers count
  let active ← randomSample s.neighbors (count - passive.length)
  return (passive ++ active).map s.peerInfo

def disconnectPeer (peer : PeerId) (alive : Bool) : TopicM (List TopicOutEvent) := do
  let nodes ← peerSamplePassiveFirst (shuffleActiveViewCount + shufflePassiveViewCount)
  return [.sendMessage peer (.shuffleReply nodes), .sendMessage peer (.disconnect alive false), .disconnectPeer peer]

def sendNeighbor (peer : PeerId) (priority : GossipSwarmNeighborPriority) : TopicM (List TopicOutEvent) := do
  let s ← get
  if peer ∈ s.pendingNeighborRequests then return []
  else
    set { s with pendingNeighborRequests := OrderedSet.add s.pendingNeighborRequests peer }
    return [.sendMessage peer (.neighbor priority s.peerData)]

def replyNeighbor (peer : PeerId) (priority : GossipSwarmNeighborPriority) (reply : Bool) :
    TopicM (List TopicOutEvent) :=
  if reply then sendNeighbor peer priority else return []

def evictPassive : TopicM Unit := do
  let s ← get
  if s.passivePeers.length ≥ s.passiveViewCapacity then
    match ← randomArrayValue s.passivePeers with
    | some evicted => modify fun s => { s with passivePeers := OrderedSet.delete s.passivePeers evicted }
    | none => return

def addPassive (peer : PeerId) (data : Option Bytes) : TopicM (List TopicOutEvent) := do
  let out ← addPeerData ⟨peer, data⟩
  let s ← get
  if peer = s.me ∨ peer ∈ s.neighbors ∨ peer ∈ s.passivePeers then return out
  else
    evictPassive
    modify fun s => { s with passivePeers := OrderedSet.add s.passivePeers peer }
    return out

def forget (peer : PeerId) (s : GossipTopicState) : GossipTopicState :=
  removeMissingFromPeer peer { s with
    neighbors := OrderedSet.delete s.neighbors peer
    pendingNeighborRequests := OrderedSet.delete s.pendingNeighborRequests peer
    eagerPeers := OrderedSet.delete s.eagerPeers peer
    lazyPeers := OrderedSet.delete s.lazyPeers peer
    lazyPushQueue := OrderedMap.delete s.lazyPushQueue peer }

/-- What `removeActive` tells the peer. -/
def farewell (peer : PeerId) (sendDisconnect : Bool) : TopicM (List TopicOutEvent) :=
  if sendDisconnect then disconnectPeer peer true else return [.disconnectPeer peer]

def keepAsPassive (peer : PeerId) (keepPassive : Bool) : TopicM Unit :=
  if keepPassive then do
    let s ← get
    let _ ← addPassive peer (s.peerDataByPeer peer)
    modify fun s => { s with aliveDisconnectPeers := OrderedSet.add s.aliveDisconnectPeers peer }
  else return

def removeActive (peer : PeerId) (keepPassive sendDisconnect : Bool) : TopicM (List TopicOutEvent) := do
  let s ← get
  if peer ∈ s.neighbors then
    set (s.forget peer)
    let goodbye ← farewell peer sendDisconnect
    keepAsPassive peer keepPassive
    return .emitEvent (.neighborDown peer) :: goodbye
  else return []

def firstPassiveWithoutPending : TopicM (Option PeerId) := do
  let s ← get
  randomArrayValue (s.passivePeers.filter fun peer => peer ∉ s.pendingNeighborRequests)

def refillActiveFromPassive : TopicM (List TopicOutEvent) := do
  let s ← get
  if s.neighbors.length + s.pendingNeighborRequests.length ≥ s.activeViewCapacity then return []
  else
    match ← firstPassiveWithoutPending with
    | none => return []
    | some peer =>
      let request ← sendNeighbor peer (if s.neighbors.length = 0 then .high else .low)
      return request ++ [.scheduleTimer pendingNeighborTimeoutMs (.pendingNeighbor peer)]

def evictActive : TopicM (List TopicOutEvent) := do
  let s ← get
  if s.neighbors.length ≥ s.activeViewCapacity then
    match ← randomArrayValue s.neighbors with
    | some evicted => removeActive evicted true true
    | none => return []
  else return []

def activate (peer : PeerId) (s : GossipTopicState) : GossipTopicState :=
  addEager peer { s with
    passivePeers := OrderedSet.delete s.passivePeers peer
    pendingNeighborRequests := OrderedSet.delete s.pendingNeighborRequests peer
    aliveDisconnectPeers := OrderedSet.delete s.aliveDisconnectPeers peer
    neighbors := OrderedSet.add s.neighbors peer }

def addActive (peer : PeerId) (data : Option Bytes) (priority : GossipSwarmNeighborPriority) (reply : Bool) :
    TopicM (List TopicOutEvent) := do
  let s ← get
  if peer = s.me then return []
  else
    let out ← addPeerData ⟨peer, data⟩
    let s ← get
    if peer ∈ s.neighbors then
      let answer ← replyNeighbor peer priority reply
      return out ++ answer
    else if priority = .low ∧ s.neighbors.length ≥ s.activeViewCapacity then
      let refusal ← disconnectPeer peer true
      return out ++ refusal
    else
      let eviction ← evictActive
      modify (activate peer)
      let answer ← replyNeighbor peer priority reply
      return out ++ eviction ++ .emitEvent (.neighborUp peer) :: answer

def removeNeighbor (peer : PeerId) : TopicM (List TopicOutEvent) := do
  let active ← removeActive peer false false
  if active.length ≠ 0 then
    let refill ← refillActiveFromPassive
    return active ++ refill
  else
    let s ← get
    if peer ∈ s.aliveDisconnectPeers then
      set { s with aliveDisconnectPeers := OrderedSet.delete s.aliveDisconnectPeers peer }
      return []
    else
      set { s with
        passivePeers := OrderedSet.delete s.passivePeers peer
        pendingNeighborRequests := OrderedSet.delete s.pendingNeighborRequests peer
        peerDataByPeer := Function.update s.peerDataByPeer peer none }
      return []

def forgetPassive (peer : PeerId) (s : GossipTopicState) : GossipTopicState :=
  { s with
    passivePeers := OrderedSet.delete s.passivePeers peer
    aliveDisconnectPeers := OrderedSet.delete s.aliveDisconnectPeers peer
    peerDataByPeer := Function.update s.peerDataByPeer peer none }

def handleDisconnectMessage (peer : PeerId) (alive : Bool) : TopicM (List TopicOutEvent) := do
  let active ← removeActive peer alive false
  if active.length ≠ 0 then
    let refill ← refillActiveFromPassive
    return active ++ refill
  else
    modify fun s => if alive then s else s.forgetPassive peer
    return [.disconnectPeer peer]

def handlePendingNeighbor (peer : PeerId) : TopicM (List TopicOutEvent) := do
  let s ← get
  if peer ∈ s.pendingNeighborRequests then
    set (forgetPassive peer
      { s with pendingNeighborRequests := OrderedSet.delete s.pendingNeighborRequests peer })
    let refill ← refillActiveFromPassive
    return .disconnectPeer peer :: refill
  else return []

def pickActiveExcept (peers : List PeerId) : TopicM (Option PeerId) := do
  let s ← get
  randomArrayValue (s.neighbors.filter fun peer => peer ∉ peers)

def walkPassive (peer : GossipPeerInfo) (ttl : ℕ) : TopicM (List TopicOutEvent) :=
  if ttl = passiveRandomWalkLength then addPassive peer.id peer.peerData else return []

def handleForwardJoin (sender : PeerId) (peer : GossipPeerInfo) (ttl : ℕ) : TopicM (List TopicOutEvent) := do
  let s ← get
  if peer.id ∈ s.neighbors ∨ ttl = 0 ∨ s.neighbors.length ≤ 1 then
    let data ← addPeerData peer
    let request ← sendNeighbor peer.id .high
    return data ++ request
  else
    let passive ← walkPassive peer ttl
    let s ← get
    if peer.id ∈ s.pendingNeighborRequests then return passive
    else
      match ← pickActiveExcept [sender] with
      | none => return passive
      | some next => return passive ++ [.sendMessage next (.forwardJoin peer (ttl - 1))]

def addPassives : List GossipPeerInfo → TopicM (List TopicOutEvent)
  | [] => return []
  | node :: nodes => do
    let out ← addPassive node.id node.peerData
    let rest ← addPassives nodes
    return out ++ rest

def handleShuffle (peer origin : PeerId) (nodes : List GossipPeerInfo) (ttl : ℕ) : TopicM (List TopicOutEvent) := do
  let s ← get
  if ttl = 0 ∨ s.neighbors.length ≤ 1 then
    let out ← addPassives nodes
    let sample ← peerSample nodes.length
    return out ++ [.sendMessage origin (.shuffleReply sample)]
  else
    match ← pickActiveExcept [origin, peer] with
    | none => return []
    | some next => return [.sendMessage next (.shuffle origin nodes (ttl - 1))]

def forwardJoin (s : GossipTopicState) (peer : PeerId) (peerData : Option Bytes) : List TopicOutEvent :=
  (s.neighbors.filter (· ≠ peer)).map fun neighbor =>
    .sendMessage neighbor (.forwardJoin ⟨peer, peerData⟩ activeRandomWalkLength)

def scheduleShuffle : TopicOutEvent := .scheduleTimer shuffleIntervalMs .doShuffle

def doShuffle : TopicM (List TopicOutEvent) := do
  let s ← get
  match ← randomArrayValue s.neighbors with
  | none => return []
  | some node =>
    let active ← randomSample (s.neighbors.filter (· ≠ node)) shuffleActiveViewCount
    let passive ← randomSample (s.passivePeers.filter (· ≠ node)) shufflePassiveViewCount
    let nodes := (active ++ passive).map s.peerInfo ++ [⟨s.me, s.peerData⟩]
    return [.sendMessage node (.shuffle s.me nodes shuffleRandomWalkLength)]

def eagerPush (s : GossipTopicState) (message : GossipBroadcastMessage) (sender : PeerId) : List TopicOutEvent :=
  (s.eagerPeers.filter (· ≠ sender)).map fun peer => .sendMessage peer (.gossip message)

def queueLazy (queue : List (PeerId × List GossipIHaveEntry)) (peer : PeerId) (entry : GossipIHaveEntry) :
    List (PeerId × List GossipIHaveEntry) :=
  OrderedMap.set queue peer ((OrderedMap.get queue peer).getD [] ++ [entry])

def queueLazies (entry : GossipIHaveEntry) (peers : List PeerId) (queue : List (PeerId × List GossipIHaveEntry)) :
    List (PeerId × List GossipIHaveEntry) :=
  peers.foldl (fun queue peer => queueLazy queue peer entry) queue

def announced (s : GossipTopicState) (entry : GossipIHaveEntry) (sender : PeerId) :
    List (PeerId × List GossipIHaveEntry) :=
  queueLazies entry (s.lazyPeers.filter (· ≠ sender)) s.lazyPushQueue

def lazyPush (message : GossipBroadcastMessage) (sender : PeerId) : TopicM (List TopicOutEvent) := do
  match message.scope with
  | .neighbors => return []
  | .swarm round =>
    let s ← get
    if (s.announced ⟨message.id, round⟩ sender).length = 0 ∨ s.dispatchTimerScheduled = true then
      set { s with lazyPushQueue := s.announced ⟨message.id, round⟩ sender }
      return []
    else
      set { s with lazyPushQueue := s.announced ⟨message.id, round⟩ sender, dispatchTimerScheduled := true }
      return [.scheduleTimer lazyDispatchDelayMs .dispatchLazyPush]

def storeGossip (message : GossipBroadcastMessage) (nowMs : ℕ) (s : GossipTopicState) : GossipTopicState :=
  { s with
    seenMessages := Function.update s.seenMessages message.id (some (nowMs + messageIdRetentionMs))
    cache := Function.update s.cache message.id (some ⟨message, nowMs + messageCacheRetentionMs⟩) }

def hasSeenMessage (id : MessageId) (nowMs : ℕ) : TopicM Bool := do
  let s ← get
  match s.seenMessages id with
  | none => return false
  | some expiresAtMs =>
    if expiresAtMs ≤ nowMs then
      set { s with seenMessages := Function.update s.seenMessages id none }
      return false
    else return true

def expireCaches (nowMs : ℕ) (s : GossipTopicState) : GossipTopicState :=
  { s with
    seenMessages := fun id => (s.seenMessages id).filter fun expiresAtMs => ¬ expiresAtMs ≤ nowMs
    cache := fun id => (s.cache id).filter fun cached => ¬ cached.expiresAtMs ≤ nowMs }

def ihavePayloadSize (messages : List GossipIHaveEntry) : ℕ := (encodeGossipIHaveMessage messages).length - 4

/-- The loop of `chunkIHaveMessages` with its current chunk. -/
def chunkIHave (maxMessageSize : ℕ) : List GossipIHaveEntry → List GossipIHaveEntry → List (List GossipIHaveEntry)
  | chunk, [] => if chunk.length ≠ 0 then [chunk] else []
  | chunk, message :: messages =>
    if chunk.length ≠ 0 ∧ ihavePayloadSize (chunk ++ [message]) > maxMessageSize then
      chunk :: chunkIHave maxMessageSize [message] messages
    else chunkIHave maxMessageSize (chunk ++ [message]) messages

def chunkIHaveMessages (s : GossipTopicState) (messages : List GossipIHaveEntry) : List (List GossipIHaveEntry) :=
  chunkIHave s.maxMessageSize [] messages

def dispatchLazyPush : TopicM (List TopicOutEvent) := do
  let s ← get
  set { s with dispatchTimerScheduled := false, lazyPushQueue := [] }
  return s.lazyPushQueue.flatMap fun queue =>
    (s.chunkIHaveMessages queue.2).map fun chunk => .sendMessage queue.1 (.ihave chunk)

def addMissing (peer : PeerId) (message : GossipIHaveEntry) (s : GossipTopicState) : GossipTopicState :=
  let sources := s.missingMessages message.id ++ [⟨peer, message.round⟩]
  { s with missingMessages := Function.update s.missingMessages message.id sources }

def handleIHave (peer : PeerId) (nowMs : ℕ) : List GossipIHaveEntry → TopicM (List TopicOutEvent)
  | [] => return []
  | message :: messages => do
    if ← hasSeenMessage message.id nowMs then handleIHave peer nowMs messages
    else
      modify (addMissing peer message)
      let s ← get
      if s.graftTimerScheduled message.id then handleIHave peer nowMs messages
      else
        modify fun s => { s with graftTimerScheduled := Function.update s.graftTimerScheduled message.id true }
        let rest ← handleIHave peer nowMs messages
        return .scheduleTimer graftTimeoutMs (.sendGraft message.id) :: rest

def handleSendGraft (id : MessageId) (nowMs : ℕ) : TopicM (List TopicOutEvent) := do
  modify fun s => { s with graftTimerScheduled := Function.update s.graftTimerScheduled id false }
  if ← hasSeenMessage id nowMs then return []
  else
    let s ← get
    match s.missingMessages id with
    | [] => return []
    | next :: rest =>
      set (addEager next.peer { s with missingMessages := Function.update s.missingMessages id rest })
      return [.sendMessage next.peer (.graft (some id) next.round),
        .scheduleTimer retryGraftTimeoutMs (.sendGraft id)]

def handleTimer (timer : TopicTimer) (nowMs : ℕ) : TopicM (List TopicOutEvent) :=
  match timer with
  | .dispatchLazyPush => dispatchLazyPush
  | .pendingNeighbor peer => handlePendingNeighbor peer
  | .doShuffle => do
    let out ← doShuffle
    return out ++ [scheduleShuffle]
  | .sendGraft id => handleSendGraft id nowMs

def deliveredScope : GossipDeliveryScope → GossipDeliveryScope
  | .swarm round => .swarm (round + 1)
  | .neighbors => .neighbors

section
variable (blake3 : Bytes → MessageId)

/-- A message is stored and no longer missing. -/
def found (message : GossipBroadcastMessage) (nowMs : ℕ) (s : GossipTopicState) : GossipTopicState :=
  { s.storeGossip message nowMs with
    graftTimerScheduled := Function.update s.graftTimerScheduled message.id false
    missingMessages := Function.update s.missingMessages message.id [] }

def deliver (peer : PeerId) (message : GossipBroadcastMessage) (nowMs : ℕ) : TopicM (List TopicOutEvent) :=
  let delivered := { message with scope := deliveredScope message.scope }
  let received := .emitEvent (.received peer delivered.id delivered.content delivered.scope)
  match message.scope with
  | .neighbors => return [received]
  | .swarm _ => do
    modify (found delivered nowMs)
    let s ← get
    let announced ← lazyPush delivered peer
    return received :: (s.eagerPush delivered peer ++ announced)

def handleGossipMessage (peer : PeerId) (message : GossipBroadcastMessage) (nowMs : ℕ) :
    TopicM (List TopicOutEvent) := do
  if message.id ≠ blake3 message.content then return []
  else
    if ← hasSeenMessage message.id nowMs then
      modify (addLazy peer)
      return [.sendMessage peer .prune]
    else deliver peer message nowMs

def handleGraft (peer : PeerId) (id : Option MessageId) : TopicM (List TopicOutEvent) := do
  modify (addEager peer)
  let s ← get
  match id.bind s.cache with
  | none => return []
  | some cached => return [.sendMessage peer (.gossip cached.message)]

def handleMessage (peer : PeerId) (message : GossipTopicMessage) (nowMs : ℕ) : TopicM (List TopicOutEvent) :=
  match message with
  | .join peerData => do
    let out ← addActive peer peerData .high true
    let s ← get
    return out ++ s.forwardJoin peer peerData
  | .neighbor priority peerData => do
    let s ← get
    set { s with pendingNeighborRequests := OrderedSet.delete s.pendingNeighborRequests peer }
    addActive peer peerData priority (peer ∉ s.pendingNeighborRequests)
  | .disconnect alive _ => handleDisconnectMessage peer alive
  | .forwardJoin joining ttl => handleForwardJoin peer joining ttl
  | .shuffle origin nodes ttl => handleShuffle peer origin nodes ttl
  | .shuffleReply nodes => do
    let out ← addPassives nodes
    let refill ← refillActiveFromPassive
    return out ++ refill
  | .prune => do
    modify (addLazy peer)
    return []
  | .graft id _ => handleGraft peer id
  | .ihave messages => handleIHave peer nowMs messages
  | .gossip message => handleGossipMessage blake3 peer message nowMs

def broadcastScope : Option GossipBroadcastScope → GossipDeliveryScope
  | some .neighbors => .neighbors
  | _ => .swarm 0

def broadcast (payload : Bytes) (scope : Option GossipBroadcastScope) (nowMs : ℕ) : TopicM (List TopicOutEvent) := do
  let message : GossipBroadcastMessage := ⟨blake3 payload, payload, broadcastScope scope⟩
  match message.scope with
  | .swarm _ =>
    modify (storeGossip message nowMs)
    let s ← get
    let announced ← lazyPush message s.me
    let s ← get
    return announced ++ s.eagerPush message s.me
  | .neighbors =>
    let s ← get
    return s.eagerPush message s.me

/-- The loop of `quit`. -/
def dismiss : List PeerId → TopicM (List TopicOutEvent)
  | [] => return []
  | peer :: peers => do
    modify (forget peer)
    let out ← disconnectPeer peer false
    let rest ← dismiss peers
    return out ++ rest

def quit : TopicM (List TopicOutEvent) := do
  let s ← get
  let out ← dismiss s.neighbors
  modify fun s => { s with
    neighbors := []
    passivePeers := []
    pendingNeighborRequests := []
    aliveDisconnectPeers := []
    eagerPeers := []
    lazyPeers := []
    lazyPushQueue := []
    missingMessages := fun _ => [] }
  return out

def handleCommand (command : GossipProtocolCommand) (nowMs : ℕ) : TopicM (List TopicOutEvent) :=
  match command with
  | .join peers => do
    let s ← get
    return peers.map fun peer => .sendMessage peer (.join s.peerData)
  | .broadcast payload scope => broadcast blake3 payload scope nowMs
  | .quit => quit

def handleEvent (event : TopicInEvent) (nowMs : ℕ) : TopicM (List TopicOutEvent) :=
  match event with
  | .command command => handleCommand blake3 command nowMs
  | .recvMessage peer message => handleMessage blake3 peer message nowMs
  | .peerDisconnected peer => removeNeighbor peer
  | .updatePeerData peerData => do
    modify fun s => { s with peerData := peerData }
    return []
  | .timerExpired (some timer) => handleTimer timer nowMs
  | .timerExpired none => return []

def handle (event : TopicInEvent) (nowMs : ℕ) : TopicM (List TopicOutEvent) := do
  modify (expireCaches nowMs)
  let out ← handleEvent blake3 event nowMs
  let s ← get
  if s.shuffleTimerScheduled then return out
  else
    set { s with shuffleTimerScheduled := true }
    return out ++ [scheduleShuffle]

end

end GossipTopicState

/-! `GossipProtocolState` of `gossip/state.ts`. -/

def activeViewCapacity : ℕ := 5
def passiveViewCapacity : ℕ := 30
def defaultMaxMessageSize : ℕ := 4096
def minMaxMessageSize : ℕ := 512

inductive GossipProtocolInEvent where
  | recvMessage (peer : PeerId) (topicId : TopicId) (message : GossipTopicMessage)
  | command (topicId : TopicId) (command : GossipProtocolCommand)
  | timerExpired (topicId : TopicId) (timer : Option TopicTimer)
  | peerDisconnected (peer : PeerId)
  | updatePeerData (peerData : Option Bytes)
  deriving DecidableEq

inductive GossipProtocolOutEvent where
  | sendMessage (peer : PeerId) (topicId : TopicId) (message : GossipTopicMessage)
  | emitEvent (topicId : TopicId) (event : GossipProtocolTopicEvent)
  | scheduleTimer (delayMs : ℕ) (topicId : TopicId) (timer : TopicTimer)
  | disconnectPeer (peer : PeerId)
  | peerData (peer : PeerId) (peerData : Bytes)
  deriving DecidableEq

structure GossipProtocolStateOptions where
  me : PeerId
  peerData : Option Bytes
  maxMessageSize : Option ℕ
  activeViewCapacity : Option ℕ
  passiveViewCapacity : Option ℕ

def validateMaxMessageSize (size : ℕ) : Outcome ℕ := do
  throwIf (size < minMaxMessageSize) ("gossip max message size must be at least " ++ toString minMaxMessageSize)
  return size

def validateViewCapacity (size : ℕ) (name : String) : Outcome ℕ := do
  throwIf (size < 1) ("gossip " ++ name ++ " view capacity must be at least 1")
  return size

/-- `topics` and `peerTopics` are in the order of the maps. -/
structure GossipProtocolState where
  me : PeerId
  maxMessageSize : ℕ
  activeViewCapacity : ℕ
  passiveViewCapacity : ℕ
  random : Stream' ℕ
  peerData : Option Bytes
  topics : List (TopicId × GossipTopicState)
  peerTopics : List (PeerId × List TopicId)

abbrev ProtocolM := StateM GossipProtocolState

namespace GossipProtocolState

def create (options : GossipProtocolStateOptions) (random : Stream' ℕ) : Outcome GossipProtocolState := do
  let maxMessageSize ← validateMaxMessageSize (options.maxMessageSize.getD defaultMaxMessageSize)
  let active ← validateViewCapacity (options.activeViewCapacity.getD Gossip.activeViewCapacity) "active"
  let passive ← validateViewCapacity (options.passiveViewCapacity.getD Gossip.passiveViewCapacity) "passive"
  return ⟨options.me, maxMessageSize, active, passive, random, some (options.peerData.getD []), [], []⟩

def activeView (s : GossipProtocolState) (topicId : TopicId) : List PeerId :=
  match OrderedMap.get s.topics topicId with
  | none => []
  | some topic => topic.neighbors

def hasActivePeers (s : GossipProtocolState) (topicId : TopicId) : Bool := (s.activeView topicId).length ≠ 0

def topicsOf (s : GossipProtocolState) (peer : PeerId) : List TopicId := (OrderedMap.get s.peerTopics peer).getD []

def trackPeerTopic (peer : PeerId) (topicId : TopicId) (s : GossipProtocolState) : GossipProtocolState :=
  { s with peerTopics := OrderedMap.set s.peerTopics peer (OrderedSet.add (s.topicsOf peer) topicId) }

def untrackPeerTopic (peer : PeerId) (topicId : TopicId) : ProtocolM Bool := do
  let s ← get
  match OrderedMap.get s.peerTopics peer with
  | none => return false
  | some topics =>
    let rest := OrderedSet.delete topics topicId
    if rest.length ≠ 0 then
      set { s with peerTopics := OrderedMap.set s.peerTopics peer rest }
      return false
    else
      set { s with peerTopics := OrderedMap.delete s.peerTopics peer }
      return true

/-- One round of the loop of `mapTopicOut`. -/
def mapTopicEvent (topicId : TopicId) (event : TopicOutEvent) : ProtocolM (List GossipProtocolOutEvent) :=
  match event with
  | .sendMessage peer message => do
    modify (trackPeerTopic peer topicId)
    return [.sendMessage peer topicId message]
  | .emitEvent event => return [.emitEvent topicId event]
  | .scheduleTimer delayMs timer => return [.scheduleTimer delayMs topicId timer]
  | .disconnectPeer peer => do
    let last ← untrackPeerTopic peer topicId
    return if last then [.disconnectPeer peer] else []
  | .peerData peer peerData => return [.peerData peer peerData]

def mapTopicOut (topicId : TopicId) : List TopicOutEvent → ProtocolM (List GossipProtocolOutEvent)
  | [] => return []
  | event :: events => do
    let out ← mapTopicEvent topicId event
    let rest ← mapTopicOut topicId events
    return out ++ rest

def requireTopic (topicId : TopicId) (s : GossipProtocolState) : GossipProtocolState :=
  match OrderedMap.get s.topics topicId with
  | some _ => s
  | none =>
    let topic := GossipTopicState.create s.me s.activeViewCapacity s.maxMessageSize s.passiveViewCapacity s.random
      s.peerData
    { s with topics := OrderedMap.set s.topics topicId topic }

section
variable (blake3 : Bytes → MessageId)

/-- An event for one topic, if there is the topic. The topics share the source of random numbers. -/
def handleTopic (topicId : TopicId) (event : TopicInEvent) (nowMs : ℕ) : ProtocolM (List GossipProtocolOutEvent) := do
  let s ← get
  match OrderedMap.get s.topics topicId with
  | none => return []
  | some topic =>
    let handled := GossipTopicState.handle blake3 event nowMs { topic with random := s.random }
    set { s with random := handled.2.random, topics := OrderedMap.set s.topics topicId handled.2 }
    mapTopicOut topicId handled.1

/-- The loop of `handleAllTopics`. -/
def handleTopics (event : TopicInEvent) (nowMs : ℕ) : List TopicId → ProtocolM (List GossipProtocolOutEvent)
  | [] => return []
  | topicId :: topicIds => do
    let out ← handleTopic blake3 topicId event nowMs
    let rest ← handleTopics event nowMs topicIds
    return out ++ rest

def handleAllTopics (event : TopicInEvent) (nowMs : ℕ) : ProtocolM (List GossipProtocolOutEvent) := do
  let s ← get
  handleTopics blake3 event nowMs (s.topics.map Prod.fst)

/-- The memberships without a topic, and the peers that have no other one. -/
def withoutTopic (topicId : TopicId) (peerTopics : List (PeerId × List TopicId)) :
    List (PeerId × List TopicId) × List PeerId :=
  let rest := peerTopics.map fun entry => (entry.1, OrderedSet.delete entry.2 topicId)
  (rest.filter fun entry => entry.2.length ≠ 0, (rest.filter fun entry => entry.2.length = 0).map Prod.fst)

def removeTopicMemberships (topicId : TopicId) : ProtocolM (List GossipProtocolOutEvent) := do
  let s ← get
  let left := withoutTopic topicId s.peerTopics
  set { s with peerTopics := left.1 }
  return left.2.map .disconnectPeer

def handle (event : GossipProtocolInEvent) (nowMs : ℕ) : ProtocolM (List GossipProtocolOutEvent) :=
  match event with
  | .peerDisconnected peer => do
    let out ← handleAllTopics blake3 (.peerDisconnected peer) nowMs
    modify fun s => { s with peerTopics := OrderedMap.delete s.peerTopics peer }
    return out
  | .updatePeerData peerData => do
    modify fun s => { s with peerData := peerData }
    handleAllTopics blake3 (.updatePeerData peerData) nowMs
  | .timerExpired topicId timer => handleTopic blake3 topicId (.timerExpired timer) nowMs
  | .command topicId (.join peers) => do
    modify (requireTopic topicId)
    handleTopic blake3 topicId (.command (.join peers)) nowMs
  | .command topicId .quit => do
    let out ← handleTopic blake3 topicId (.command .quit) nowMs
    modify fun s => { s with topics := OrderedMap.delete s.topics topicId }
    let left ← removeTopicMemberships topicId
    return out ++ left
  | .command topicId command => handleTopic blake3 topicId (.command command) nowMs
  | .recvMessage peer topicId message => do
    modify fun s => if (OrderedMap.get s.topics topicId).isSome then s.trackPeerTopic peer topicId else s
    handleTopic blake3 topicId (.recvMessage peer message) nowMs

end

end GossipProtocolState

end Enlace.Gossip
