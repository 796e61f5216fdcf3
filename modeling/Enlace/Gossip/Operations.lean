import Enlace.Gossip.Topic
import Enlace.Lib.Transition

set_option autoImplicit false

/-! What the operations of a topic keep: an invariant and a property of what is put out are held against each single
change, and then hold for every event. -/
namespace Enlace.Gossip
open ByteString Stateful List OrderedSet

def GossipTopicMessage.spreads : GossipTopicMessage → Bool
  | .prune | .graft _ _ | .ihave _ | .gossip _ => true
  | _ => false

def TopicInEvent.spreads : TopicInEvent → Bool
  | .recvMessage _ message => message.spreads
  | .command (.broadcast _ _) | .timerExpired (some .dispatchLazyPush) | .timerExpired (some (.sendGraft _)) => true
  | _ => false

/-- Neither a message to a peer nor one for the application. -/
def TopicOutEvent.Local : TopicOutEvent → Prop
  | .sendMessage _ _ | .emitEvent (.received _ _ _ _) => False
  | _ => True

def TopicOutEvent.Plain : TopicOutEvent → Prop
  | .emitEvent (.neighborUp _) => False
  | .emitEvent (.neighborDown _) => False
  | .disconnectPeer _ => False
  | _ => True

namespace Mesh

def addEager (peer : PeerId) (mesh : Mesh) : Mesh :=
  { mesh with
    lazyPeers := OrderedSet.delete mesh.lazyPeers peer
    lazyPushQueue := OrderedMap.delete mesh.lazyPushQueue peer
    eagerPeers := OrderedSet.add mesh.eagerPeers peer }

def addLazy (peer : PeerId) (mesh : Mesh) : Mesh :=
  { mesh with
    eagerPeers := OrderedSet.delete mesh.eagerPeers peer
    lazyPeers := OrderedSet.add mesh.lazyPeers peer }

def forget (peer : PeerId) (mesh : Mesh) : Mesh :=
  { mesh with
    neighbors := OrderedSet.delete mesh.neighbors peer
    eagerPeers := OrderedSet.delete mesh.eagerPeers peer
    lazyPeers := OrderedSet.delete mesh.lazyPeers peer
    lazyPushQueue := OrderedMap.delete mesh.lazyPushQueue peer }

def activate (peer : PeerId) (mesh : Mesh) : Mesh :=
  addEager peer { mesh with neighbors := OrderedSet.add mesh.neighbors peer }

end Mesh

namespace GossipTopicState

def Apart (s : GossipTopicState) : Prop := ∀ peer ∈ s.passivePeers, peer ∉ s.neighbors

def standing (s : GossipTopicState) : PeerId × ℕ × ℕ × List PeerId :=
  (s.me, s.activeViewCapacity, s.passiveViewCapacity, s.passivePeers)

variable (peer : PeerId)

section
variable {α : Type} {ν : Type*} {view : GossipTopicState → ν}

def Draws (m : TopicM α) : Prop := ∀ s, ∃ random, (m s).2 = { s with random := random }

variable {m : TopicM α}

lemma Draws.keeps (h : Draws m) (hv : ∀ s random, view { s with random := random } = view s) : Keeps view m := by
 intro s
 obtain ⟨random,hs⟩:=h s
 rw [hs,hv]

lemma Draws.mesh (h : Draws m) : Keeps toMesh m := h.keeps fun _ _=>rfl

lemma Draws.pure (a : α) : Draws (Pure.pure a : TopicM α) := fun s=>⟨s.random,rfl⟩

lemma Draws.bind {β : Type} {f : α → TopicM β} (hm : Draws m) (hf : ∀ a, Draws (f a)) : Draws (m >>= f) := by
 intro s
 obtain ⟨random,hs⟩:=hm s
 obtain ⟨next,hn⟩:=hf (m s).1 (m s).2
 rw [bind_apply,hn,hs]
 exact ⟨next,rfl⟩

lemma Draws.get_bind {f : GossipTopicState → TopicM α} (hf : ∀ s, Draws (f s)) : Draws (get >>= f) :=
 fun s=>hf s s

lemma Draws.ite {c : Prop} [Decidable c] {n : TopicM α} (hm : Draws m) (hn : Draws n) :
    Draws (if c then m else n) := by
 split_ifs
 · exact hm
 · exact hn

lemma draws_randomInt (n : ℕ) : Draws (randomInt n) := fun s=>⟨s.random.tail,rfl⟩

lemma draws_randomArrayValue (values : List α) : Draws (randomArrayValue values) :=
 .ite (.pure none) (.bind (draws_randomInt _) fun _=>.pure _)

lemma draws_randomSample (values : List α) (count : ℕ) : Draws (randomSample values count) := by
 induction count generalizing values with
 | zero => exact .pure []
 | succ count ih => exact .ite (.pure []) (.bind (draws_randomInt _) fun index=>.bind (ih _) fun _=>.pure _)

lemma draws_peerSample (count : ℕ) : Draws (peerSample count) :=
 .get_bind fun _=>.bind (draws_randomSample _ _) fun _=>.pure _

lemma draws_disconnectPeer (alive : Bool) : Draws (disconnectPeer peer alive) :=
 .bind (.get_bind fun _=>.bind (draws_randomSample _ _) fun _=>.bind (draws_randomSample _ _) fun _=>.pure _)
  fun _=>.pure _

lemma draws_pickActiveExcept (peers : List PeerId) : Draws (pickActiveExcept peers) :=
 .get_bind fun _=>draws_randomArrayValue _

lemma draws_firstPassiveWithoutPending : Draws firstPassiveWithoutPending :=
 .get_bind fun _=>draws_randomArrayValue _

end

lemma hasSeenMessage_eq (id : MessageId) (nowMs : ℕ) (s : GossipTopicState) :
    ∃ seen, (hasSeenMessage id nowMs s).2 = { s with seenMessages := seen } := by
 rw [hasSeenMessage,get_bind]
 cases s.seenMessages id with
 | none => exact ⟨s.seenMessages,rfl⟩
 | some expiresAtMs =>
  dsimp only
  split_ifs
  · exact ⟨_,rfl⟩
  · exact ⟨s.seenMessages,rfl⟩

variable {s : GossipTopicState} {peer : PeerId}

lemma randomArrayValue_mem {α : Type} {values : List α} {value : α}
    (h : (randomArrayValue values s).1 = some value) : value ∈ values := by
 rw [randomArrayValue] at h
 split_ifs at h
 · cases h
 · exact mem_of_getElem? h

lemma randomArrayValue_of_ne_nil {α : Type} {values : List α} (h : values ≠ []) (s : GossipTopicState) :
    ∃ value ∈ values, (randomArrayValue values s).1 = some value := by
 have hl : values.length ≠ 0 := fun hz=>h (length_eq_zero_iff.mp hz)
 have hi : s.random.head % values.length < values.length := Nat.mod_lt _ (Nat.pos_of_ne_zero hl)
 refine ⟨values[s.random.head % values.length],getElem_mem hi,?_⟩
 rw [randomArrayValue,if_neg hl]
 exact getElem?_eq_getElem hi

lemma evictActive_cases (s : GossipTopicState) : ∃ random, evictActive s = ([], { s with random := random }) ∨
      ∃ evicted ∈ s.neighbors, evictActive s = removeActive evicted true true { s with random := random } := by
 rw [evictActive,get_bind]
 split_ifs
 · obtain ⟨random,hd⟩:=draws_randomArrayValue s.neighbors s
   refine ⟨random,?_⟩
   rw [bind_apply,hd]
   cases hv : (randomArrayValue s.neighbors s).1 with
   | none => exact .inl rfl
   | some evicted => exact .inr ⟨evicted,randomArrayValue_mem hv,rfl⟩
 · exact ⟨s.random,.inl rfl⟩

def cleared (s : GossipTopicState) : GossipTopicState :=
  { s with
    neighbors := []
    passivePeers := []
    pendingNeighborRequests := []
    aliveDisconnectPeers := []
    eagerPeers := []
    lazyPeers := []
    lazyPushQueue := []
    missingMessages := fun _ => [] }

/-- Closed under the operations that leave the neighbours alone. Only the peers of `named` are written to. -/
structure PassiveClosed (me : PeerId) (named : PeerId → Prop) (I : GossipTopicState → Prop) (E : TopicOutEvent → Prop) :
    Prop where
  self : ∀ {s}, I s → s.me = me
  neighbor : ∀ {s peer}, I s → peer ∈ s.neighbors → named peer := by exact fun _ _ => trivial
  passive : ∀ {s peer}, I s → peer ∈ s.passivePeers → named peer := by exact fun _ _ => trivial
  aside : ∀ {s} random peerData aliveDisconnectPeers peerDataByPeer, I s → I { s with
        random := random, peerData := peerData, aliveDisconnectPeers := aliveDisconnectPeers
        peerDataByPeer := peerDataByPeer } := by exact fun _ _ _ _ hs => hs
  asked : ∀ {s peer}, I s → named peer →
    I { s with pendingNeighborRequests := add s.pendingNeighborRequests peer } := by exact fun hs _ => hs
  answered : ∀ {s} peer, I s →
    I { s with pendingNeighborRequests := delete s.pendingNeighborRequests peer } := by exact fun _ hs => hs
  shelved : ∀ {s peer}, I s → peer ≠ me → peer ∉ s.neighbors →
    I { (evictPassive s).2 with passivePeers := add (evictPassive s).2.passivePeers peer }
  dropped : ∀ {s} peer, I s → I { s with passivePeers := delete s.passivePeers peer } := by exact fun _ hs => hs
  sent : ∀ {peer message}, named peer → message.spreads = false → E (.sendMessage peer message)
  told : ∀ {event}, event.Local → event.Plain → E event

namespace PassiveClosed

variable {me peer : PeerId} {named : PeerId → Prop} {I : GossipTopicState → Prop} {E : TopicOutEvent → Prop}
variable (h : PassiveClosed me named I E)
include h

lemma draws {α : Type} {m : TopicM α} (hm : Draws m) : Preserves I m := by
 intro s hs
 obtain ⟨random,heq⟩:=hm s
 rw [heq]
 exact h.aside random s.peerData s.aliveDisconnectPeers s.peerDataByPeer hs

lemma addPeerData (peer : GossipPeerInfo) : Respects I E (addPeerData peer) := by
 refine .get_bind fun s hs=>?_
 cases peer.peerData with
 | none => exact ⟨hs,forall_mem_nil _⟩
 | some peerData =>
  dsimp only
  split_ifs
  · exact ⟨hs,forall_mem_nil _⟩
  · exact ⟨h.aside _ _ _ _ hs,forall_mem_singleton.mpr (h.told trivial trivial)⟩

lemma sendNeighbor (hpeer : named peer) (priority : GossipSwarmNeighborPriority) :
    Respects I E (sendNeighbor peer priority) := by
 refine .get_bind fun s hs=>?_
 split_ifs
 · exact ⟨hs,forall_mem_nil _⟩
 · exact ⟨h.asked hs hpeer,forall_mem_singleton.mpr (h.sent hpeer rfl)⟩

lemma replyNeighbor (hpeer : named peer) (priority : GossipSwarmNeighborPriority) (reply : Bool) :
    Respects I E (replyNeighbor peer priority reply) :=
 .ite (h.sendNeighbor hpeer priority) .nothing

lemma addPassive (peer : PeerId) (data : Option Bytes) : Respects I E (addPassive peer data) := by
 refine (h.addPeerData ⟨peer,data⟩).bind fun out ho=>.get_bind fun s hs=>?_
 split_ifs with hk
 · exact ⟨hs,ho⟩
 · refine ⟨h.shelved hs ?_ ?_,ho⟩
   · exact fun heq=>hk (.inl (heq.trans (h.self hs).symm))
   · exact fun hm=>hk (.inr (.inl hm))

lemma addPassives (nodes : List GossipPeerInfo) : Respects I E (addPassives nodes) := by
 induction nodes with
 | nil => exact .nothing
 | cons node nodes ih => exact (h.addPassive node.id node.peerData).append ih

lemma keepAsPassive (peer : PeerId) (keep : Bool) : Preserves I (keepAsPassive peer keep) := by
 refine .ite (fun s hs=>?_) (.pure _)
 exact h.aside _ _ _ _ (h.addPassive peer (s.peerDataByPeer peer) s hs).1

lemma refillActiveFromPassive : Respects I E refillActiveFromPassive := by
 refine .get_bind fun s hs=>?_
 by_cases hf : s.neighbors.length+s.pendingNeighborRequests.length ≥ s.activeViewCapacity
 · rw [if_pos hf]
   exact ⟨hs,forall_mem_nil _⟩
 · rw [if_neg hf,bind_apply]
   have hd:=h.draws draws_firstPassiveWithoutPending s hs
   cases hne : (firstPassiveWithoutPending s).1 with
   | none => exact ⟨hd,forall_mem_nil _⟩
   | some next =>
    have hn:=h.passive hs (mem_filter.mp (randomArrayValue_mem hne)).1
    refine (h.sendNeighbor hn _).append (.pure ?_) _ hd
    exact forall_mem_singleton.mpr (h.told trivial trivial)

/-- A message to a neighbour that is drawn. -/
lemma pickActiveExcept {out : List TopicOutEvent} (ho : ∀ event ∈ out, E event) (peers : List PeerId)
    {msg : GossipTopicMessage} (hm : msg.spreads = false) : Respects I E (do
      match ← pickActiveExcept peers with
      | none => return out
      | some next => return out ++ [.sendMessage next msg]) := by
 intro s hs
 have hd:=h.draws (draws_pickActiveExcept peers) s hs
 rw [bind_apply]
 cases hne : (GossipTopicState.pickActiveExcept peers s).1 with
 | none => exact ⟨hd,ho⟩
 | some next =>
  have hn:=h.neighbor hs (mem_filter.mp (randomArrayValue_mem hne)).1
  exact ⟨hd,forall_mem_append.mpr ⟨ho,forall_mem_singleton.mpr (h.sent hn hm)⟩⟩

lemma handleForwardJoin {s : GossipTopicState} (hs : I s) (sender : PeerId) {peer : GossipPeerInfo} {ttl : ℕ}
    (hpeer : peer.id ∈ s.neighbors ∨ ttl = 0 ∨ s.neighbors.length ≤ 1 → named peer.id) :
    I (handleForwardJoin sender peer ttl s).2 ∧ ∀ event ∈ (handleForwardJoin sender peer ttl s).1, E event := by
 rw [GossipTopicState.handleForwardJoin,get_bind]
 by_cases hn : peer.id ∈ s.neighbors ∨ ttl = 0 ∨ s.neighbors.length ≤ 1
 · rw [if_pos hn]
   exact (h.addPeerData peer).append (h.sendNeighbor (hpeer hn) .high) s hs
 · rw [if_neg hn]
   have hw : Respects I E (walkPassive peer ttl) := .ite (h.addPassive _ _) .nothing
   refine hw.bind (fun out ho=>.get_bind fun s hs=>?_) s hs
   split_ifs
   · exact ⟨hs,ho⟩
   · exact h.pickActiveExcept ho [sender] rfl s hs

lemma handleShuffle {s : GossipTopicState} (hs : I s) (peer : PeerId) {origin : PeerId} (nodes : List GossipPeerInfo)
    {ttl : ℕ} (ho : ttl = 0 ∨ s.neighbors.length ≤ 1 → named origin) :
    I (handleShuffle peer origin nodes ttl s).2 ∧ ∀ event ∈ (handleShuffle peer origin nodes ttl s).1, E event := by
 rw [GossipTopicState.handleShuffle,get_bind]
 by_cases hn : ttl = 0 ∨ s.neighbors.length ≤ 1
 · rw [if_pos hn]
   refine (h.addPassives nodes).bind (fun out hou=>.after (h.draws (draws_peerSample _)) fun sample=>.pure ?_) s hs
   exact forall_mem_append.mpr ⟨hou,forall_mem_singleton.mpr (h.sent (ho hn) rfl)⟩
 · rw [if_neg hn]
   exact h.pickActiveExcept (forall_mem_nil _) [origin,peer] rfl s hs

lemma doShuffle : Respects I E doShuffle := by
 refine .get_bind fun s hs=>?_
 have hd:=h.draws (draws_randomArrayValue s.neighbors) s hs
 rw [bind_apply]
 cases hno : (randomArrayValue s.neighbors s).1 with
 | none => exact ⟨hd,forall_mem_nil _⟩
 | some node =>
  have hn:=h.neighbor hs (randomArrayValue_mem hno)
  refine Respects.after (h.draws (draws_randomSample _ _))
   (fun _=>.after (h.draws (draws_randomSample _ _)) fun _=>?_) _ hd
  exact .pure (forall_mem_singleton.mpr (h.sent hn rfl))

end PassiveClosed

/-- Closed under the operations on the views. -/
structure ViewsClosed (me : PeerId) (named : PeerId → Prop) (I : GossipTopicState → Prop) (E : TopicOutEvent → Prop) :
    Prop extends PassiveClosed me named I E where
  forgotten : ∀ {s} peer, I s → I (s.forget peer)
  activated : ∀ {s peer}, I s → I (evictActive s).2 → peer ≠ me → I ((evictActive s).2.activate peer)
  cleared : ∀ {s}, I s → I s.cleared
  parted : ∀ {event}, event.Local → E event

namespace ViewsClosed

variable {me peer : PeerId} {named : PeerId → Prop} {I : GossipTopicState → Prop} {E : TopicOutEvent → Prop}
variable (h : ViewsClosed me named I E)
include h

lemma disconnectPeer (hpeer : named peer) (alive : Bool) : Respects I E (disconnectPeer peer alive) := by
 intro s hs
 refine ⟨h.draws (draws_disconnectPeer peer alive) s hs,?_⟩
 refine forall_mem_cons.mpr ⟨h.sent hpeer rfl,forall_mem_cons.mpr ⟨h.sent hpeer rfl,?_⟩⟩
 exact forall_mem_singleton.mpr (h.parted trivial)

lemma removeActive (peer : PeerId) (keep send : Bool) : Respects I E (removeActive peer keep send) := by
 refine .get_bind fun s hs=>?_
 split_ifs with hm
 · have hpeer:=h.neighbor hs hm
   have hf : Respects I E (farewell peer send) :=
    .ite (h.disconnectPeer hpeer true) (.pure (forall_mem_singleton.mpr (h.parted trivial)))
   obtain ⟨hg,ho⟩:=hf _ (h.forgotten peer hs)
   exact ⟨h.keepAsPassive peer keep _ hg,forall_mem_cons.mpr ⟨h.parted trivial,ho⟩⟩
 · exact ⟨hs,forall_mem_nil _⟩

lemma evictActive : Respects I E evictActive := by
 intro s hs
 have ha : ∀ random, I { s with random := random } := fun random=>h.aside random _ _ _ hs
 obtain ⟨random,hn|⟨evicted,_,hr⟩⟩:=evictActive_cases s
 · rw [hn]
   exact ⟨ha random,forall_mem_nil _⟩
 · rw [hr]
   exact h.removeActive evicted true true _ (ha random)

lemma addActive (hpeer : named peer) (data : Option Bytes) (priority : GossipSwarmNeighborPriority) (reply : Bool) :
    Respects I E (addActive peer data priority reply) := by
 refine .get_bind fun s hs=>?_
 by_cases hme : peer = s.me
 · rw [if_pos hme]
   exact ⟨hs,forall_mem_nil _⟩
 rw [h.self hs] at hme
 rw [if_neg (fun heq=>hme (heq.trans (h.self hs)))]
 refine (h.addPeerData ⟨peer,data⟩).bind (fun out ho=>.get_bind fun s hs=>?_) s hs
 split_ifs
 · exact (h.replyNeighbor hpeer priority reply).bind (fun _ ha=>.pure (forall_mem_append.mpr ⟨ho,ha⟩)) s hs
 · exact (h.disconnectPeer hpeer true).bind (fun _ hr=>.pure (forall_mem_append.mpr ⟨ho,hr⟩)) s hs
 · obtain ⟨hg,he⟩:=h.evictActive s hs
   rw [bind_apply,modify_bind]
   refine (h.replyNeighbor hpeer priority reply).bind (fun _ ha=>.pure ?_) _ (h.activated hs hg hme)
   exact forall_mem_append.mpr ⟨forall_mem_append.mpr ⟨ho,he⟩,forall_mem_cons.mpr ⟨h.parted trivial,ha⟩⟩

lemma removeNeighbor (peer : PeerId) : Respects I E (removeNeighbor peer) := by
 refine (h.removeActive peer false false).bind fun active ha=>.ite ?_ (.get_bind fun s hs=>?_)
 · exact h.refillActiveFromPassive.bind fun _ hr=>.pure (forall_mem_append.mpr ⟨ha,hr⟩)
 · split_ifs
   · exact ⟨h.aside _ _ _ _ hs,forall_mem_nil _⟩
   · exact ⟨h.aside _ _ _ _ (h.answered peer (h.dropped peer hs)),forall_mem_nil _⟩

lemma handleDisconnectMessage (peer : PeerId) (alive : Bool) : Respects I E (handleDisconnectMessage peer alive) := by
 refine (h.removeActive peer alive false).bind fun active ha=>.ite ?_ (.after (.modify fun s hs=>?_) fun _=>?_)
 · exact h.refillActiveFromPassive.bind fun _ hr=>.pure (forall_mem_append.mpr ⟨ha,hr⟩)
 · split_ifs
   · exact hs
   · exact h.aside _ _ _ _ (h.dropped peer hs)
 · exact .pure (forall_mem_singleton.mpr (h.parted trivial))

lemma handlePendingNeighbor (peer : PeerId) : Respects I E (handlePendingNeighbor peer) := by
 refine .get_bind fun s hs=>?_
 split_ifs
 · obtain ⟨hr,ho⟩:=h.refillActiveFromPassive _ (h.aside _ _ _ _ (h.dropped peer (h.answered peer hs)))
   exact ⟨hr,forall_mem_cons.mpr ⟨h.parted trivial,ho⟩⟩
 · exact ⟨hs,forall_mem_nil _⟩

lemma dismiss {peers : List PeerId} (hp : ∀ peer ∈ peers, named peer) : Respects I E (dismiss peers) := by
 induction peers with
 | nil => exact .nothing
 | cons peer peers ih =>
  obtain ⟨hpeer,hrest⟩:=forall_mem_cons.mp hp
  exact .after (.modify fun s hs=>h.forgotten peer hs) fun _=>(h.disconnectPeer hpeer false).append (ih hrest)

lemma quit : Respects I E quit := by
 refine .get_bind fun s hs=>(h.dismiss fun peer hpeer=>h.neighbor hs hpeer).bind (fun out ho=>?_) s hs
 exact .after (.modify fun s hs=>h.cleared hs) fun _=>.pure ho

end ViewsClosed

/-- The peers beside those of its views that a topic writes to when it handles the event. -/
def Answers (s : GossipTopicState) (event : TopicInEvent) (peer : PeerId) : Prop :=
  match event with
  | .recvMessage _ (.forwardJoin joining ttl) =>
    (joining.id ∈ s.neighbors ∨ ttl = 0 ∨ s.neighbors.length ≤ 1) ∧ peer = joining.id
  | .recvMessage _ (.shuffle origin _ ttl) => (ttl = 0 ∨ s.neighbors.length ≤ 1) ∧ peer = origin
  | .recvMessage sender _ => peer = sender
  | .command (.join peers) => peer ∈ peers
  | _ => False

section
variable (blake3 : Bytes → MessageId) {me : PeerId} {named : PeerId → Prop} {I : GossipTopicState → Prop}
  {E : TopicOutEvent → Prop} {s : GossipTopicState} {event : TopicInEvent}

lemma ViewsClosed.handleEvent (h : ViewsClosed me named I E) (hsp : event.spreads = false) (nowMs : ℕ) (hs : I s)
    (hn : ∀ peer, s.Answers event peer → named peer) :
    I (handleEvent blake3 event nowMs s).2 ∧ ∀ out ∈ (handleEvent blake3 event nowMs s).1, E out := by
 cases event with
 | recvMessage peer msg =>
  cases msg with
  | join peerData =>
   refine (h.addActive (hn peer rfl) peerData .high true).bind (fun out hou=>.get_bind fun s hs=>⟨hs,?_⟩) s hs
   refine forall_mem_append.mpr ⟨hou,forall_mem_map.mpr fun other ho=>?_⟩
   exact h.sent (h.neighbor hs (mem_filter.mp ho).1) rfl
  | neighbor priority peerData =>
   exact h.addActive (hn peer rfl) peerData priority (decide (peer ∉ s.pendingNeighborRequests)) _ (h.answered peer hs)
  | disconnect alive respond => exact h.handleDisconnectMessage peer alive s hs
  | forwardJoin joining ttl => exact h.handleForwardJoin hs peer fun hne=>hn joining.id ⟨hne,rfl⟩
  | shuffle origin nodes ttl => exact h.handleShuffle hs peer nodes fun hne=>hn origin ⟨hne,rfl⟩
  | shuffleReply nodes => exact (h.addPassives nodes).append h.refillActiveFromPassive s hs
  | prune | graft id round | ihave msgs | gossip msg => cases hsp
 | command command =>
  cases command with
  | join peers => exact ⟨hs,forall_mem_map.mpr fun peer hpeer=>h.sent (hn peer hpeer) rfl⟩
  | broadcast payload scope => cases hsp
  | quit => exact h.quit s hs
 | peerDisconnected peer => exact h.removeNeighbor peer s hs
 | updatePeerData peerData => exact ⟨h.aside _ _ _ _ hs,forall_mem_nil _⟩
 | timerExpired timer =>
  rcases timer with _|timer
  · exact ⟨hs,forall_mem_nil _⟩
  · cases timer with
    | dispatchLazyPush | sendGraft id => cases hsp
    | pendingNeighbor peer => exact h.handlePendingNeighbor peer s hs
    | doShuffle =>
     have ht : E scheduleShuffle := h.parted trivial
     exact h.doShuffle.append (.pure (forall_mem_singleton.mpr ht)) s hs

end

lemma hasSeenMessage_fst (id : MessageId) (nowMs : ℕ) (s : GossipTopicState) :
    (hasSeenMessage id nowMs s).1 = (s.seenMessages id).any fun expiresAtMs => ¬ expiresAtMs ≤ nowMs := by
 rw [hasSeenMessage,get_bind]
 cases s.seenMessages id with
 | none => rfl
 | some expiresAtMs =>
  dsimp only
  split_ifs with h
  · simp [bind_apply,pure_apply,h]
  · simp [pure_apply]
    omega

def grafted (event : TopicInEvent) (nowMs : ℕ) (s : GossipTopicState) : Option PeerId :=
  match event with
  | .recvMessage peer (.graft _ _) => some peer
  | .timerExpired (some (.sendGraft id)) =>
    if (hasSeenMessage id nowMs s).1 then none else (s.missingMessages id).head?.map MissingMessageSource.peer
  | _ => none

def attached (blake3 : Bytes → MessageId) (event : TopicInEvent) (nowMs : ℕ) (s : GossipTopicState) : Option PeerId :=
  match event with
  | .recvMessage peer .prune => some peer
  | .recvMessage peer (.gossip message) =>
    if message.id = blake3 message.content ∧ (hasSeenMessage message.id nowMs s).1 = true then some peer else none
  | event => grafted event nowMs s

lemma update_subset {missing : MessageId → List MissingMessageSource} {id : MessageId}
    {rest : List MissingMessageSource} (hrest : rest ⊆ missing id) (other : MessageId) :
    Function.update missing id rest other ⊆ missing other :=
 (Function.forall_update_iff missing fun other rest=>rest ⊆ missing other).mpr ⟨hrest,fun _ _=>Subset.refl _⟩ other

/-- Closed under the operations that spread messages. Only the peers of `named` are written to. -/
structure SpreadClosed (nowMs : ℕ) (named : PeerId → Prop) (I : GossipTopicState → Prop) (E : TopicOutEvent → Prop) :
    Prop where
  eager : ∀ {s peer}, I s → peer ∈ s.eagerPeers → named peer
  queued : ∀ {s peer}, I s → peer ∈ s.lazyPushQueue.map Prod.fst → named peer
  looked : ∀ {s id expiresAtMs}, I s → s.seenMessages id = some expiresAtMs → expiresAtMs ≤ nowMs →
    I { s with seenMessages := Function.update s.seenMessages id none }
  eagerAdded : ∀ {s peer}, I s → named peer → I (s.addEager peer)
  lazyAdded : ∀ {s peer}, I s → named peer → I (s.addLazy peer)
  stored : ∀ {s} message, I s → I (s.storeGossip message nowMs)
  announced : ∀ {s} entry sender scheduled, I s →
    I { s with lazyPushQueue := s.announced entry sender, dispatchTimerScheduled := scheduled }
  dispatched : ∀ {s}, I s → I { s with dispatchTimerScheduled := false, lazyPushQueue := [] }
  sought : ∀ {s} graftTimerScheduled missingMessages, I s → (∀ id, missingMessages id ⊆ s.missingMessages id) →
    I { s with graftTimerScheduled := graftTimerScheduled, missingMessages := missingMessages }
  sent : ∀ {peer message}, named peer → E (.sendMessage peer message)
  timed : ∀ {delayMs timer}, E (.scheduleTimer delayMs timer)

namespace SpreadClosed

variable {nowMs : ℕ} {named : PeerId → Prop} {I : GossipTopicState → Prop} {E : TopicOutEvent → Prop} {peer : PeerId}
  {s : GossipTopicState}
variable (h : SpreadClosed nowMs named I E)
include h

lemma hasSeenMessage (id : MessageId) : Preserves I (hasSeenMessage id nowMs) := by
 refine .get_bind fun s hs=>?_
 cases hse : s.seenMessages id with
 | none => exact hs
 | some expiresAtMs =>
  dsimp only
  split_ifs with he
  · exact h.looked hs hse he
  · exact hs

lemma eagerPush (hs : I s) (msg : GossipBroadcastMessage) (sender : PeerId) :
    ∀ event ∈ s.eagerPush msg sender, E event :=
 forall_mem_map.mpr fun _ hpeer=>h.sent (h.eager hs (mem_filter.mp hpeer).1)

lemma lazyPush (msg : GossipBroadcastMessage) (sender : PeerId) : Respects I E (lazyPush msg sender) := by
 rw [GossipTopicState.lazyPush]
 cases msg.scope with
 | neighbors => exact .nothing
 | swarm round =>
  refine .get_bind fun s hs=>?_
  split_ifs
  · exact ⟨h.announced _ _ s.dispatchTimerScheduled hs,forall_mem_nil _⟩
  · exact ⟨h.announced _ _ true hs,forall_mem_singleton.mpr h.timed⟩

lemma dispatchLazyPush : Respects I E dispatchLazyPush := by
 refine .get_bind fun s hs=>⟨h.dispatched hs,fun event hevent=>?_⟩
 obtain ⟨queue,hq,hc⟩:=mem_flatMap.mp hevent
 obtain ⟨chunk,_,rfl⟩:=mem_map.mp hc
 exact h.sent (h.queued hs (mem_map_of_mem hq))

lemma handleIHave (hm : ∀ s msg, I s → I (addMissing peer msg s)) (msgs : List GossipIHaveEntry) :
    Respects I E (handleIHave peer nowMs msgs) := by
 induction msgs with
 | nil => exact .nothing
 | cons msg msgs ih =>
  refine .after (h.hasSeenMessage msg.id) fun seen=>.ite ih (.after (.modify fun s hs=>hm s msg hs) fun _=>?_)
  refine .after (fun _ hs=>hs) fun s=>.ite ih (.after (.modify fun s hs=>?_) fun _=>ih.bind fun rest hrest=>?_)
  · exact h.sought _ s.missingMessages hs fun _=>Subset.refl _
  · exact .pure (forall_mem_cons.mpr ⟨h.timed,hrest⟩)

lemma handleSendGraft (hs : I s) {id : MessageId}
    (hn : ∀ peer, grafted (.timerExpired (some (.sendGraft id))) nowMs s = some peer → named peer) :
    I (handleSendGraft id nowMs s).2 ∧ ∀ event ∈ (handleSendGraft id nowMs s).1, E event := by
 rw [GossipTopicState.handleSendGraft,modify_bind,bind_apply]
 have hse:=h.sought (Function.update s.graftTimerScheduled id false) s.missingMessages hs fun _=>Subset.refl _
 have hl:=h.hasSeenMessage id _ hse
 obtain ⟨seen,hst⟩:=hasSeenMessage_eq id nowMs
  { s with graftTimerScheduled := Function.update s.graftTimerScheduled id false }
 rw [grafted,hasSeenMessage_fst] at hn
 rw [hst] at hl ⊢
 rw [hasSeenMessage_fst]
 split_ifs at hn ⊢
 · exact ⟨hl,forall_mem_nil _⟩
 · rw [get_bind]
   cases hm : s.missingMessages id with
   | nil => exact ⟨hl,forall_mem_nil _⟩
   | cons next rest =>
    have hna:=hn next.peer (by rw [hm]; rfl)
    have hrest : rest ⊆ s.missingMessages id := by
     rw [hm]
     exact subset_cons_self _ _
    refine ⟨h.eagerAdded (h.sought _ _ hl (update_subset hrest)) hna,?_⟩
    exact forall_mem_cons.mpr ⟨h.sent hna,forall_mem_singleton.mpr h.timed⟩

lemma deliver (hr : ∀ deliveredFrom id payload scope, E (.emitEvent (.received deliveredFrom id payload scope)))
    (peer : PeerId) (msg : GossipBroadcastMessage) : Respects I E (deliver peer msg nowMs) := by
 rw [GossipTopicState.deliver]
 cases msg.scope with
 | neighbors => exact .pure (forall_mem_singleton.mpr (hr _ _ _ _))
 | swarm round =>
  refine .after (.modify fun s hs=>h.sought _ _ (h.stored _ hs) (update_subset (nil_subset _)))
   fun _=>.get_bind fun s hs=>?_
  refine (h.lazyPush _ peer).bind (fun timers ht=>.pure ?_) s hs
  exact forall_mem_cons.mpr ⟨hr _ _ _ _,forall_mem_append.mpr ⟨h.eagerPush hs _ _,ht⟩⟩

lemma handleGraft (hpeer : named peer) (id : Option MessageId) : Respects I E (handleGraft peer id) := by
 refine .after (.modify fun s hs=>h.eagerAdded hs hpeer) fun _=>.get_bind fun s hs=>?_
 cases id.bind s.cache with
 | none => exact ⟨hs,forall_mem_nil _⟩
 | some cached => exact ⟨hs,forall_mem_singleton.mpr (h.sent hpeer)⟩

lemma broadcast (blake3 : Bytes → MessageId) (payload : Bytes) (scope : Option GossipBroadcastScope) :
    Respects I E (broadcast blake3 payload scope nowMs) := by
 rw [GossipTopicState.broadcast]
 cases broadcastScope scope with
 | neighbors => exact .get_bind fun s hs=>⟨hs,h.eagerPush hs _ _⟩
 | swarm round =>
  refine .after (.modify fun s hs=>h.stored _ hs) fun _=>.after (fun _ hs=>hs) fun s=>?_
  refine (h.lazyPush _ _).bind fun timers ht=>.get_bind fun s hs=>⟨hs,?_⟩
  exact forall_mem_append.mpr ⟨ht,h.eagerPush hs _ _⟩

lemma handleEvent (blake3 : Bytes → MessageId) {event : TopicInEvent} (hsp : event.spreads = true) (hs : I s)
    (ha : ∀ peer, attached blake3 event nowMs s = some peer → named peer)
    (hm : ∀ peer msgs, event = .recvMessage peer (.ihave msgs) → ∀ s msg, I s → I (addMissing peer msg s))
    (hr : (∃ peer msg, event = .recvMessage peer (.gossip msg)) →
      ∀ deliveredFrom id payload scope, E (.emitEvent (.received deliveredFrom id payload scope))) :
    I (handleEvent blake3 event nowMs s).2 ∧ ∀ out ∈ (handleEvent blake3 event nowMs s).1, E out := by
 cases event with
 | recvMessage peer msg =>
  cases msg with
  | prune => exact ⟨h.lazyAdded hs (ha peer rfl),forall_mem_nil _⟩
  | graft id round => exact h.handleGraft (ha peer rfl) id s hs
  | ihave msgs => exact h.handleIHave (hm peer msgs rfl) msgs s hs
  | gossip msg =>
   change I (handleGossipMessage blake3 peer msg nowMs s).2 ∧
    ∀ out ∈ (handleGossipMessage blake3 peer msg nowMs s).1, E out
   rw [handleGossipMessage]
   split_ifs with hid
   · exact ⟨hs,forall_mem_nil _⟩
   · have hl:=h.hasSeenMessage msg.id s hs
     rw [bind_apply]
     cases hse : (GossipTopicState.hasSeenMessage msg.id nowMs s).1 with
     | true =>
      have hpeer:=ha peer (if_pos ⟨not_not.mp hid,hse⟩)
      exact ⟨h.lazyAdded hl hpeer,forall_mem_singleton.mpr (h.sent hpeer)⟩
     | false => exact h.deliver (hr ⟨peer,msg,rfl⟩) peer msg _ hl
  | _ => cases hsp
 | command command =>
  cases command with
  | broadcast payload scope => exact h.broadcast blake3 payload scope s hs
  | _ => cases hsp
 | timerExpired timer =>
  rcases timer with _|timer
  · cases hsp
  · cases timer with
    | dispatchLazyPush => exact h.dispatchLazyPush s hs
    | sendGraft id => exact h.handleSendGraft hs ha
    | _ => cases hsp
 | _ => cases hsp

end SpreadClosed

end GossipTopicState

end Enlace.Gossip
