import Enlace.Gossip.Operations

set_option autoImplicit false

/-! What the operations of a topic do to its neighbours. -/
namespace Enlace.Gossip
open ByteString Stateful List OrderedSet

def TopicInEvent.about : TopicInEvent → Option PeerId
  | .recvMessage peer _ => some peer
  | .peerDisconnected peer => some peer
  | .timerExpired (some (.pendingNeighbor peer)) => some peer
  | _ => none

def Plain (out : List TopicOutEvent) : Prop := ∀ event ∈ out, event.Plain

@[simp] lemma plain_nil : Plain [] := nofun

variable {out : List TopicOutEvent}

@[simp] lemma plain_cons {event : TopicOutEvent} : Plain (event :: out) ↔ event.Plain ∧ Plain out :=
 forall_mem_cons

lemma Plain.append {rest : List TopicOutEvent} (h : Plain out) (hrest : Plain rest) : Plain (out ++ rest) :=
 forall_mem_append.mpr ⟨h,hrest⟩

namespace GossipTopicState

variable (peer : PeerId)

lemma evictPassive_eq (s : GossipTopicState) :
    ∃ random passive, (evictPassive s).2 = { s with random := random, passivePeers := passive } ∧
      passive ⊆ s.passivePeers := by
 rw [evictPassive,get_bind]
 split_ifs
 · obtain ⟨random,hd⟩:=draws_randomArrayValue s.passivePeers s
   rw [bind_apply,hd]
   cases (randomArrayValue s.passivePeers s).1 with
   | none => exact ⟨random,s.passivePeers,rfl,List.Subset.refl _⟩
   | some evicted =>
    exact ⟨random,delete s.passivePeers evicted,rfl,fun _ hpeer=>(mem_delete.mp hpeer).1⟩
 · exact ⟨s.random,s.passivePeers,rfl,List.Subset.refl _⟩

lemma mesh_passiveClosed (s : GossipTopicState) :
    PassiveClosed s.me (fun _ => True) (fun t => t.toMesh = s.toMesh) TopicOutEvent.Plain where
 self hs := congrArg Mesh.me hs
 shelved {s _} hs _ _ := by
  obtain ⟨random,passive,he,_⟩:=evictPassive_eq s
  rw [he]
  exact hs
 sent _ _ := trivial
 told _ hplain := hplain

lemma plain_scheduleTimer (delayMs : ℕ) (timer : TopicTimer) : Plain [.scheduleTimer delayMs timer] :=
 plain_cons.mpr ⟨trivial,plain_nil⟩

lemma refillActiveFromPassive_steady (s : GossipTopicState) :
    (refillActiveFromPassive s).2.toMesh = s.toMesh ∧ Plain (refillActiveFromPassive s).1 :=
 (mesh_passiveClosed s).refillActiveFromPassive s rfl

def Farewell (peer : PeerId) (out : List TopicOutEvent) : Prop :=
  ∃ messages : List GossipTopicMessage, out = messages.map (.sendMessage peer) ++ [.disconnectPeer peer]

lemma farewell_disconnectPeer (alive : Bool) (s : GossipTopicState) : Farewell peer (disconnectPeer peer alive s).1 :=
 ⟨[.shuffleReply _,.disconnect alive false],rfl⟩

lemma draws_farewell (send : Bool) : Draws (farewell peer send) :=
 .ite (draws_disconnectPeer peer true) (.pure _)

lemma farewell_farewell (send : Bool) (s : GossipTopicState) : Farewell peer (farewell peer send s).1 := by
 cases send with
 | false => exact ⟨[],rfl⟩
 | true => exact farewell_disconnectPeer peer true s

lemma keepAsPassive_toMesh (keep : Bool) : Keeps toMesh (keepAsPassive peer keep) :=
 .ite (fun s=>((mesh_passiveClosed s).addPassive peer (s.peerDataByPeer peer) s rfl).1) (.pure _)

variable {s : GossipTopicState} {peer : PeerId}

lemma removeActive_of_notMem (h : peer ∉ s.neighbors)
    (keep send : Bool) : removeActive peer keep send s = ([], s) := by
 rw [removeActive,get_bind,if_neg h]
 rfl

lemma removeActive_of_mem (h : peer ∈ s.neighbors) (keep send : Bool) : removeActive peer keep send s =
      (.emitEvent (.neighborDown peer) :: (farewell peer send (s.forget peer)).1,
        (keepAsPassive peer keep (farewell peer send (s.forget peer)).2).2) := by
 rw [removeActive,get_bind,if_pos h]
 rfl

lemma removeActive_toMesh (h : peer ∈ s.neighbors) (keep send : Bool) :
    (removeActive peer keep send s).2.toMesh = s.toMesh.forget peer := by
 rw [removeActive_of_mem h,keepAsPassive_toMesh,(draws_farewell peer send).mesh]
 rfl

def Answer (peer : PeerId) (out : List TopicOutEvent) : Prop :=
  ∀ event ∈ out, ∃ message, event = .sendMessage peer message

lemma Answer.plain (h : Answer peer out) : Plain out := by
 intro event hevent
 obtain ⟨msg,rfl⟩:=h event hevent
 trivial

lemma sendNeighbor_answer (peer : PeerId) (priority : GossipSwarmNeighborPriority) (s : GossipTopicState) :
    Answer peer (sendNeighbor peer priority s).1 := by
 rw [sendNeighbor,get_bind]
 split_ifs
 · exact nofun
 · exact fun event h=>⟨_,mem_singleton.mp h⟩

lemma replyNeighbor_answer (peer : PeerId) (priority : GossipSwarmNeighborPriority) (reply : Bool)
    (s : GossipTopicState) : Answer peer (replyNeighbor peer priority reply s).1 := by
 rw [replyNeighbor]
 split_ifs
 · exact sendNeighbor_answer peer priority s
 · exact nofun

/-- What `addActive` does with a peer: it stays what it is, is refused, or becomes a neighbour, maybe in the place of
another. -/
inductive Admission (peer : PeerId) (mesh : Mesh) : List TopicOutEvent → Mesh → Prop where
  | kept {out : List TopicOutEvent} (hout : Plain out) : Admission peer mesh out mesh
  | refused {data goodbye : List TopicOutEvent} (hpeer : peer ∉ mesh.neighbors) (hdata : Plain data)
    (hgoodbye : Farewell peer goodbye) : Admission peer mesh (data ++ goodbye) mesh
  | admitted {data answer : List TopicOutEvent} (hme : peer ≠ mesh.me) (hpeer : peer ∉ mesh.neighbors)
    (hdata : Plain data) (hanswer : Answer peer answer) :
    Admission peer mesh (data ++ .emitEvent (.neighborUp peer) :: answer) (mesh.activate peer)
  | replaced {data goodbye answer : List TopicOutEvent} {evicted : PeerId} (hme : peer ≠ mesh.me)
    (hpeer : peer ∉ mesh.neighbors) (hevicted : evicted ∈ mesh.neighbors) (hdata : Plain data)
    (hgoodbye : Farewell evicted goodbye) (hanswer : Answer peer answer) :
    Admission peer mesh
      (data ++ .emitEvent (.neighborDown evicted) :: goodbye ++ .emitEvent (.neighborUp peer) :: answer)
      ((mesh.forget evicted).activate peer)

lemma addActive_admission (peer : PeerId) (data : Option Bytes) (priority : GossipSwarmNeighborPriority) (reply : Bool)
    (s : GossipTopicState) :
    Admission peer s.toMesh (addActive peer data priority reply s).1
      (addActive peer data priority reply s).2.toMesh := by
 rw [addActive,get_bind]
 split_ifs with hme
 · exact .kept plain_nil
 obtain ⟨hm,hp⟩ : _ ∧ Plain _ := (mesh_passiveClosed s).addPeerData ⟨peer,data⟩ s rfl
 have hr : ∀ t, (replyNeighbor peer priority reply t).2.toMesh = t.toMesh := fun t=>
  ((mesh_passiveClosed t).replyNeighbor trivial priority reply t rfl).1
 rw [bind_apply,get_bind]
 generalize (addPeerData ⟨peer,data⟩ s).2 = t at hm ⊢
 generalize (addPeerData ⟨peer,data⟩ s).1 = out at hp ⊢
 have ho : peer ≠ t.me := by rwa [hm]
 rw [← hm]
 split_ifs with hpeer hf
 · rw [bind_apply,pure_apply]
   have ha:=replyNeighbor_answer peer priority reply t
   rw [hr]
   exact .kept (hp.append ha.plain)
 · rw [bind_apply,pure_apply]
   rw [show (disconnectPeer peer true t).2.toMesh = t.toMesh from (draws_disconnectPeer peer true).mesh t]
   exact .refused hpeer hp (farewell_disconnectPeer peer true t)
 · rw [bind_apply,modify_bind,bind_apply,pure_apply]
   have ha:=replyNeighbor_answer peer priority reply (activate peer (evictActive t).2)
   rw [show (replyNeighbor peer priority reply (activate peer (evictActive t).2)).2.toMesh =
    (evictActive t).2.toMesh.activate peer
    from hr _]
   generalize (replyNeighbor peer priority reply (activate peer (evictActive t).2)).1 = answer at ha ⊢
   obtain ⟨random,hn|⟨evicted,he,hre⟩⟩:=evictActive_cases t
   · rw [hn,append_nil]
     exact .admitted ho hpeer hp ha
   · rw [hre]
     have hmem : evicted ∈ ({ t with random := random } : GossipTopicState).neighbors := he
     rw [removeActive_toMesh hmem,removeActive_of_mem hmem]
     exact .replaced ho hpeer he hp (farewell_farewell _ _ _) ha

def Silent (peer : PeerId) (out : List TopicOutEvent) : Prop := ∀ message, .sendMessage peer message ∉ out

variable {out rest : List TopicOutEvent}

lemma Silent.append (h : Silent peer out) (hrest : Silent peer rest) : Silent peer (out ++ rest) := by
 intro msg hm
 rcases mem_append.mp hm with ho|hm
 · exact h msg ho
 · exact hrest msg hm

lemma silent_of_shuffle (h : out = [] ∨ out = [scheduleShuffle]) (peer : PeerId) : Silent peer out := by
 intro msg hm
 rcases h with rfl|rfl
 · exact not_mem_nil hm
 · cases mem_singleton.mp hm

lemma Answer.silent {other : PeerId} (h : Answer peer out) (hne : other ≠ peer) : Silent other out := by
 intro msg hm
 obtain ⟨_,heq⟩:=h _ hm
 cases heq
 exact hne rfl

/-- What one event does to the neighbours of a topic. A peer that was told to disconnect is sent nothing more, unless it
disconnects alive and is asked to come back. -/
inductive Turn (event : TopicInEvent) (neighbors : List PeerId) : List TopicOutEvent → List PeerId → Prop where
  | plain {out : List TopicOutEvent} (hout : Plain out) : Turn event neighbors out neighbors
  | refused {peer : PeerId} {data goodbye rest : List TopicOutEvent} (habout : event.about = some peer)
    (hpeer : peer ∉ neighbors) (hdata : Plain data) (hgoodbye : Farewell peer goodbye) (hrest : Plain rest)
    (hsilent : Silent peer rest) :
    Turn event neighbors (data ++ goodbye ++ rest) neighbors
  | admitted {peer : PeerId} {message : GossipTopicMessage} {data answer : List TopicOutEvent}
    (hevent : event = .recvMessage peer message) (hpeer : peer ∉ neighbors) (hdata : Plain data)
    (hanswer : Plain answer) :
    Turn event neighbors (data ++ .emitEvent (.neighborUp peer) :: answer) (OrderedSet.add neighbors peer)
  | replaced {peer evicted : PeerId} {message : GossipTopicMessage} {data goodbye answer : List TopicOutEvent}
    (hevent : event = .recvMessage peer message) (hpeer : peer ∉ neighbors) (hevicted : evicted ∈ neighbors)
    (hdata : Plain data) (hgoodbye : Farewell evicted goodbye) (hanswer : Plain answer)
    (hsilent : Silent evicted answer) :
    Turn event neighbors
      (data ++ .emitEvent (.neighborDown evicted) :: goodbye ++ .emitEvent (.neighborUp peer) :: answer)
      (OrderedSet.add (OrderedSet.delete neighbors evicted) peer)
  | removed {peer : PeerId} {goodbye rest : List TopicOutEvent} (habout : event.about = some peer)
    (hpeer : peer ∈ neighbors) (hgoodbye : Farewell peer goodbye) (hrest : Plain rest)
    (hsilent : Silent peer rest ∨ ∃ respond, event = .recvMessage peer (.disconnect true respond)) :
    Turn event neighbors (.emitEvent (.neighborDown peer) :: goodbye ++ rest) (OrderedSet.delete neighbors peer)
  | expired {peer : PeerId} {rest : List TopicOutEvent} (hevent : event = .timerExpired (some (.pendingNeighbor peer)))
    (hpeer : peer ∈ neighbors) (hrest : Plain rest) (hsilent : Silent peer rest) :
    Turn event neighbors (.disconnectPeer peer :: rest) neighbors
  | quit {out : List TopicOutEvent} (hevent : event = .command .quit) : Turn event neighbors out []

lemma Turn.append {event : TopicInEvent} {ns after : List PeerId}
    (h : Turn event ns out after) (hrest : Plain rest) (hsilent : ∀ peer, Silent peer rest) :
    Turn event ns (out ++ rest) after := by
 cases h with
 | plain ho => exact .plain (ho.append hrest)
 | refused hab hpeer hdata hgoodbye hp hq =>
  rw [append_assoc]
  exact .refused hab hpeer hdata hgoodbye (hp.append hrest) (hq.append (hsilent _))
 | admitted hevent hpeer hdata ha =>
  rw [append_assoc]
  exact .admitted hevent hpeer hdata (ha.append hrest)
 | replaced hevent hpeer he hdata hgoodbye ha hq =>
  rw [append_assoc]
  exact .replaced hevent hpeer he hdata hgoodbye (ha.append hrest) (hq.append (hsilent _))
 | removed hab hpeer hgoodbye hp hq =>
  rw [append_assoc]
  exact .removed hab hpeer hgoodbye (hp.append hrest) (hq.imp_left fun hq=>hq.append (hsilent _))
 | expired hevent hpeer hp hq =>
  exact .expired hevent hpeer (hp.append hrest) (hq.append (hsilent _))
 | quit hevent => exact .quit hevent

lemma Admission.turn {mesh mesh' : Mesh} (h : Admission peer mesh out mesh')
    (msg : GossipTopicMessage) (hrest : Plain rest)
    (ho : ∀ other, other = peer ∨ other ∉ mesh'.neighbors → Silent other rest) :
    Turn (.recvMessage peer msg) mesh.neighbors (out ++ rest) mesh'.neighbors := by
 cases h with
 | kept hou => exact .plain (hou.append hrest)
 | refused hpeer hdata hgoodbye => exact .refused rfl hpeer hdata hgoodbye hrest (ho peer (.inl rfl))
 | admitted _ hpeer hdata ha =>
  rw [append_assoc]
  exact .admitted rfl hpeer hdata (ha.plain.append hrest)
 | @replaced _ _ _ evicted _ hpeer he hdata hgoodbye ha =>
  rw [append_assoc]
  have hne : evicted ≠ peer := fun heq=>hpeer (heq ▸ he)
  have hg : evicted ∉ add (delete mesh.neighbors evicted) peer := by
   intro hm
   rcases mem_add.mp hm with hold|heq
   · exact (mem_delete.mp hold).2 rfl
   · exact hne heq
  exact .replaced rfl hpeer he hdata hgoodbye (ha.plain.append hrest)
   ((ha.silent hne).append (ho evicted (.inr hg)))

lemma refillActiveFromPassive_silent (h : peer ∉ s.passivePeers) : Silent peer (refillActiveFromPassive s).1 := by
 intro msg hm
 rw [refillActiveFromPassive,get_bind] at hm
 by_cases hf : s.neighbors.length+s.pendingNeighborRequests.length ≥ s.activeViewCapacity
 · rw [if_pos hf] at hm
   exact absurd hm not_mem_nil
 · rw [if_neg hf,bind_apply] at hm
   cases hn : (firstPassiveWithoutPending s).1 with
   | none =>
    rw [hn] at hm
    exact absurd hm not_mem_nil
   | some next =>
    rw [hn] at hm
    have hp : next ∈ s.passivePeers := (mem_filter.mp (randomArrayValue_mem hn)).1
    rcases mem_append.mp hm with ha|ht
    · obtain ⟨_,heq⟩:=sendNeighbor_answer _ _ _ _ ha
      cases heq
      exact h hp
    · cases mem_singleton.mp ht

lemma removeActive_passivePeers (peer : PeerId) (s : GossipTopicState) :
    (removeActive peer false false s).2.passivePeers = s.passivePeers := by
 by_cases h : peer ∈ s.neighbors
 · rw [removeActive_of_mem h]
   rfl
 · rw [removeActive_of_notMem h]

lemma removeActive_refill_turn {event : TopicInEvent}
    (ha : event.about = some peer) (h : peer ∈ s.neighbors) (keep : Bool)
    (hsilent : Silent peer (refillActiveFromPassive (removeActive peer keep false s).2).1 ∨
      ∃ respond, event = .recvMessage peer (.disconnect true respond)) : Turn event s.neighbors
      ((removeActive peer keep false s).1 ++ (refillActiveFromPassive (removeActive peer keep false s).2).1)
      (refillActiveFromPassive (removeActive peer keep false s).2).2.neighbors := by
 obtain ⟨hre,hp⟩:=refillActiveFromPassive_steady (removeActive peer keep false s).2
 have hr:=congrArg Mesh.neighbors (removeActive_toMesh h keep false)
 rw [hre,hr]
 generalize (refillActiveFromPassive (removeActive peer keep false s).2).1 = rest at hsilent hp
 rw [removeActive_of_mem h]
 exact .removed ha h (farewell_farewell _ _ _) hp hsilent

lemma refill_silent_of_removed (hs : s.Apart) (h : peer ∈ s.neighbors) :
    Silent peer (refillActiveFromPassive (removeActive peer false false s).2).1 := by
 refine refillActiveFromPassive_silent ?_
 rw [removeActive_passivePeers]
 exact fun hp=>hs peer hp h

lemma length_removeActive_ne (h : peer ∈ s.neighbors)
    (keep send : Bool) : (removeActive peer keep send s).1.length ≠ 0 := by
 rw [removeActive_of_mem h]
 exact Nat.succ_ne_zero _

lemma removeNeighbor_turn (hs : s.Apart) (peer : PeerId) :
    Turn (.peerDisconnected peer) s.neighbors (removeNeighbor peer s).1 (removeNeighbor peer s).2.neighbors := by
 rw [removeNeighbor,bind_apply]
 by_cases h : peer ∈ s.neighbors
 · rw [if_pos (length_removeActive_ne h false false)]
   exact removeActive_refill_turn rfl h false (.inl (refill_silent_of_removed hs h))
 · rw [removeActive_of_notMem h,if_neg (fun hl=>hl rfl),get_bind]
   split_ifs
   · exact .plain plain_nil
   · exact .plain plain_nil

lemma handleDisconnectMessage_turn (hs : s.Apart) (peer : PeerId) (alive respond : Bool) :
    Turn (.recvMessage peer (.disconnect alive respond)) s.neighbors (handleDisconnectMessage peer alive s).1
      (handleDisconnectMessage peer alive s).2.neighbors := by
 rw [handleDisconnectMessage,bind_apply]
 by_cases h : peer ∈ s.neighbors
 · rw [if_pos (length_removeActive_ne h alive false)]
   cases alive with
   | true => exact removeActive_refill_turn rfl h true (.inr ⟨respond,rfl⟩)
   | false => exact removeActive_refill_turn rfl h false (.inl (refill_silent_of_removed hs h))
 · rw [removeActive_of_notMem h]
   have ht : Turn (.recvMessage peer (.disconnect alive respond)) s.neighbors ([] ++ [.disconnectPeer peer] ++ [])
    s.neighbors := .refused rfl h plain_nil ⟨[],rfl⟩ plain_nil (fun _=>not_mem_nil)
   cases alive with
   | true | false => exact ht

lemma handlePendingNeighbor_of_mem (h : peer ∈ s.pendingNeighborRequests) :
    ∃ t : GossipTopicState, t.neighbors = s.neighbors ∧ peer ∉ t.passivePeers ∧ handlePendingNeighbor peer s =
      (.disconnectPeer peer :: (refillActiveFromPassive t).1, (refillActiveFromPassive t).2) := by
 refine ⟨forgetPassive peer { s with pendingNeighborRequests := delete s.pendingNeighborRequests peer },
  rfl,fun hm=>(mem_delete.mp hm).2 rfl,?_⟩
 rw [handlePendingNeighbor,get_bind,if_pos h]
 rfl

lemma handlePendingNeighbor_of_notMem (h : peer ∉ s.pendingNeighborRequests) :
    handlePendingNeighbor peer s = ([], s) := by
 rw [handlePendingNeighbor,get_bind,if_neg h]
 rfl

lemma handlePendingNeighbor_turn (peer : PeerId) (s : GossipTopicState) :
    Turn (.timerExpired (some (.pendingNeighbor peer))) s.neighbors (handlePendingNeighbor peer s).1
      (handlePendingNeighbor peer s).2.neighbors := by
 by_cases hp : peer ∈ s.pendingNeighborRequests
 · obtain ⟨t,hn,hpa,heq⟩:=handlePendingNeighbor_of_mem hp
   have hsilent:=refillActiveFromPassive_silent hpa
   obtain ⟨hr,hpl⟩:=refillActiveFromPassive_steady t
   rw [heq,hr,hn]
   by_cases h : peer ∈ s.neighbors
   · exact .expired rfl h hpl hsilent
   · have ht : Turn (.timerExpired (some (.pendingNeighbor peer))) s.neighbors
      ([] ++ [.disconnectPeer peer] ++ (refillActiveFromPassive t).1) s.neighbors :=
      .refused rfl h plain_nil ⟨[],rfl⟩ hpl hsilent
     exact ht
 · rw [handlePendingNeighbor_of_notMem hp]
   exact .plain plain_nil

lemma plain_map_sendMessage (peers : List PeerId) (msg : PeerId → GossipTopicMessage) :
    Plain (peers.map fun peer => .sendMessage peer (msg peer)) := by
 intro event hevent
 obtain ⟨peer,_,rfl⟩:=mem_map.mp hevent
 trivial

section
variable (blake3 : Bytes → MessageId)

lemma Turn.steady {event : TopicInEvent} {out : List TopicOutEvent} {s t : GossipTopicState}
    (h : t.toMesh = s.toMesh ∧ Plain out) : Turn event s.neighbors out t.neighbors := by
 rw [h.1]
 exact .plain h.2

variable {s : GossipTopicState}

variable (event : TopicInEvent)

lemma views_spreadClosed (nowMs : ℕ) (s : GossipTopicState) :
    SpreadClosed nowMs (fun _ => True)
      (fun t => t.neighbors = s.neighbors ∧ t.standing = s.standing) TopicOutEvent.Plain where
 eager _ _ := trivial
 queued _ _ := trivial
 looked hs _ _ := hs
 eagerAdded hs _ := hs
 lazyAdded hs _ := hs
 stored _ hs := hs
 announced _ _ _ hs := hs
 dispatched hs := hs
 sought _ _ hs _ := hs
 sent _ := trivial
 timed := trivial

/-- The events that spread messages leave both views as they are. -/
lemma handleEvent_of_spreads (hsp : event.spreads = true) (nowMs : ℕ) (s : GossipTopicState) :
    ((handleEvent blake3 event nowMs s).2.neighbors = s.neighbors ∧
      (handleEvent blake3 event nowMs s).2.standing = s.standing) ∧ Plain (handleEvent blake3 event nowMs s).1 := by
 refine (views_spreadClosed nowMs s).handleEvent blake3 hsp ⟨rfl,rfl⟩ (fun _ _=>trivial) ?_ fun _ _ _ _ _=>trivial
 exact fun _ _ _ _ _ hs=>hs

lemma apart_viewsClosed (me : PeerId) :
    ViewsClosed me (fun _ => True) (fun s => s.me = me ∧ s.Apart) fun _ => True where
 self hs := hs.1
 shelved {s peer} hs _ hpeer := by
  obtain ⟨random,passive,he,hsu⟩:=evictPassive_eq s
  rw [he]
  refine ⟨hs.1,fun other ho=>?_⟩
  rcases mem_add.mp ho with hold|rfl
  · exact hs.2 other (hsu hold)
  · exact hpeer
 dropped _ hs := ⟨hs.1,fun other ho=>hs.2 other (mem_delete.mp ho).1⟩
 forgotten _ hs := ⟨hs.1,fun other ho hm=>hs.2 other ho (mem_delete.mp hm).1⟩
 activated {s peer} _ hs _ := by
  refine ⟨hs.1,fun other ho hm=>?_⟩
  obtain ⟨hp,hne⟩:=mem_delete.mp ho
  rcases mem_add.mp hm with hold|heq
  · exact hs.2 other hp hold
  · exact hne heq
 cleared hs := ⟨hs.1,nofun⟩
 sent _ _ := trivial
 told _ _ := trivial
 parted _ := trivial

lemma handleEvent_apart (nowMs : ℕ) : Preserves Apart (handleEvent blake3 event nowMs) := by
 intro s hs
 cases hsp : event.spreads with
 | false => exact ((apart_viewsClosed s.me).handleEvent blake3 hsp nowMs ⟨rfl,hs⟩ fun _ _=>trivial).1.2
 | true =>
  obtain ⟨⟨hn,hst⟩,_⟩:=handleEvent_of_spreads blake3 event hsp nowMs s
  have hp : (handleEvent blake3 event nowMs s).2.passivePeers = s.passivePeers :=
   congrArg (fun standing=>standing.2.2.2) hst
  rw [Apart,hp,hn]
  exact hs

variable {event} in
lemma handleEvent_turn (hs : s.Apart) (nowMs : ℕ) :
    Turn event s.neighbors (handleEvent blake3 event nowMs s).1 (handleEvent blake3 event nowMs s).2.neighbors := by
 cases hsp : event.spreads with
 | true =>
  obtain ⟨⟨hn,_⟩,hp⟩:=handleEvent_of_spreads blake3 event hsp nowMs s
  rw [hn]
  exact .plain hp
 | false =>
  have hst:=mesh_passiveClosed s
  cases event with
  | recvMessage peer msg =>
   cases msg with
   | join peerData =>
    have ha:=addActive_admission peer peerData .high true s
    refine ha.turn _ (plain_map_sendMessage _ _) fun other ho msg hm=>?_
    obtain ⟨neighbor,hnr,heq⟩:=mem_map.mp hm
    obtain ⟨hin,hne⟩:=mem_filter.mp hnr
    cases heq
    rcases ho with rfl|hou
    · exact absurd rfl (of_decide_eq_true hne)
    · exact hou hin
   | neighbor priority peerData =>
    have ha:=addActive_admission peer peerData priority (decide (peer ∉ s.pendingNeighborRequests))
     { s with pendingNeighborRequests := delete s.pendingNeighborRequests peer }
    have ht:=ha.turn (.neighbor priority peerData) plain_nil fun _ _ _=>not_mem_nil
    rw [append_nil] at ht
    exact ht
   | disconnect alive respond => exact handleDisconnectMessage_turn hs peer alive respond
   | forwardJoin joining ttl => exact .steady (hst.handleForwardJoin rfl peer fun _=>trivial)
   | shuffle origin nodes ttl => exact .steady (hst.handleShuffle rfl peer nodes fun _=>trivial)
   | shuffleReply nodes => exact .steady ((hst.addPassives nodes).append hst.refillActiveFromPassive s rfl)
   | prune | graft | ihave | gossip => cases hsp
  | command command =>
   cases command with
   | join peers => exact .plain (plain_map_sendMessage _ _)
   | broadcast payload scope => cases hsp
   | quit => exact .quit rfl
  | peerDisconnected peer => exact removeNeighbor_turn hs peer
  | updatePeerData peerData => exact .plain plain_nil
  | timerExpired timer =>
   rcases timer with _|timer
   · exact .plain plain_nil
   · cases timer with
     | dispatchLazyPush | sendGraft => cases hsp
     | pendingNeighbor peer => exact handlePendingNeighbor_turn peer s
     | doShuffle => exact .steady (hst.doShuffle.append (.pure (plain_scheduleTimer _ _)) s rfl)

lemma handle_cases (nowMs : ℕ) (s : GossipTopicState) : ∃ rest, (rest = [] ∨ rest = [scheduleShuffle]) ∧
      (handle blake3 event nowMs s).1 = (handleEvent blake3 event nowMs (s.expireCaches nowMs)).1 ++ rest ∧
      ∃ scheduled, (handle blake3 event nowMs s).2 =
        { (handleEvent blake3 event nowMs (s.expireCaches nowMs)).2 with shuffleTimerScheduled := scheduled } := by
 rw [handle,modify_bind,bind_apply,get_bind]
 split_ifs with hs
 · exact ⟨[],.inl rfl,(append_nil _).symm,_,rfl⟩
 · exact ⟨[scheduleShuffle],.inr rfl,rfl,true,rfl⟩

def step (s : GossipTopicState) (event : TopicInEvent × ℕ) : Option GossipTopicState :=
  some (handle blake3 event.1 event.2 s).2

lemma handle_turn (hs : s.Apart) (event : TopicInEvent) (nowMs : ℕ) :
    Turn event s.neighbors (handle blake3 event nowMs s).1 (handle blake3 event nowMs s).2.neighbors := by
 obtain ⟨rest,hrest,ho,scheduled,hst⟩:=handle_cases blake3 event nowMs s
 have he : (s.expireCaches nowMs).Apart := hs
 rw [ho,hst]
 refine (handleEvent_turn blake3 he nowMs).append ?_ fun peer msg hm=>?_
 · rcases hrest with rfl|rfl
   · exact plain_nil
   · exact plain_scheduleTimer _ _
 · rcases hrest with rfl|rfl
   · exact absurd hm not_mem_nil
   · cases mem_singleton.mp hm

lemma handle_apart (nowMs : ℕ) : Preserves Apart (handle blake3 event nowMs) := by
 intro s hs
 obtain ⟨_,_,_,scheduled,hst⟩:=handle_cases blake3 event nowMs s
 have he : (s.expireCaches nowMs).Apart := hs
 rw [hst]
 exact handleEvent_apart blake3 event nowMs _ he

end

end GossipTopicState

end Enlace.Gossip
