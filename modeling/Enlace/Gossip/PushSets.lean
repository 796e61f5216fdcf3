import Enlace.Gossip.AtMostOnce

set_option autoImplicit false

/-! Who gets messages: the eager and the lazy peers against the active view, over the histories of a topic. -/
namespace Enlace.Gossip
open ByteString Transition List OrderedSet

namespace Mesh

/-- Messages go to the neighbours and to nobody else. -/
structure Tight (mesh : Mesh) : Prop where
  covered : mesh.Covered
  eager : mesh.eagerPeers ⊆ mesh.neighbors
  lazy : mesh.lazyPeers ⊆ mesh.neighbors
  queue : mesh.lazyPushQueue.map Prod.fst ⊆ mesh.neighbors

variable {peer : PeerId} {queue : List (PeerId × List GossipIHaveEntry)}

namespace Tight

variable {mesh : Mesh}

lemma mem_keys_delete {other : PeerId} :
    other ∈ (OrderedMap.delete queue peer).map Prod.fst ↔ other ∈ queue.map Prod.fst ∧ other ≠ peer := by
 constructor
 · intro h
   obtain ⟨entry,he,rfl⟩:=mem_map.mp h
   obtain ⟨hm,hne⟩:=mem_filter.mp he
   exact ⟨mem_map_of_mem hm,of_decide_eq_true hne⟩
 · rintro ⟨h,hne⟩
   obtain ⟨entry,he,rfl⟩:=mem_map.mp h
   exact mem_map_of_mem (mem_filter.mpr ⟨he,decide_eq_true hne⟩)

lemma addEager (h : mesh.Tight) (hpeer : peer ∈ mesh.neighbors) : (mesh.addEager peer).Tight where
 covered := h.covered.addEager peer
 eager other ho := by
  rcases mem_add.mp ho with hold|rfl
  · exact h.eager hold
  · exact hpeer
 lazy other ho := h.lazy (mem_delete.mp ho).1
 queue other ho := h.queue (mem_keys_delete.mp ho).1

lemma addLazy (h : mesh.Tight) (hpeer : peer ∈ mesh.neighbors) : (mesh.addLazy peer).Tight where
 covered := h.covered.addLazy peer
 eager other ho := h.eager (mem_delete.mp ho).1
 lazy other ho := by
  rcases mem_add.mp ho with hold|rfl
  · exact h.lazy hold
  · exact hpeer
 queue := h.queue

lemma forget (h : mesh.Tight) (peer : PeerId) : (mesh.forget peer).Tight where
 covered := h.covered.forget peer
 eager other ho := by
  obtain ⟨hm,hne⟩:=mem_delete.mp ho
  exact mem_delete.mpr ⟨h.eager hm,hne⟩
 lazy other ho := by
  obtain ⟨hm,hne⟩:=mem_delete.mp ho
  exact mem_delete.mpr ⟨h.lazy hm,hne⟩
 queue other ho := by
  obtain ⟨hm,hne⟩:=mem_keys_delete.mp ho
  exact mem_delete.mpr ⟨h.queue hm,hne⟩

lemma activate (h : mesh.Tight) (peer : PeerId) : (mesh.activate peer).Tight where
 covered := h.covered.activate peer
 eager _ hother := mem_add.mpr ((mem_add.mp hother).imp_left fun hold=>h.eager hold)
 lazy _ hother := mem_add.mpr (.inl (h.lazy (mem_delete.mp hother).1))
 queue _ hother := mem_add.mpr (.inl (h.queue (mem_keys_delete.mp hother).1))

lemma keys_queueLazies {entry : GossipIHaveEntry} {peers : List PeerId}
    (h : peer ∈ (GossipTopicState.queueLazies entry peers queue).map Prod.fst) :
    peer ∈ peers ∨ peer ∈ queue.map Prod.fst := by
 induction peers generalizing queue with
 | nil => exact .inr h
 | cons other peers ih =>
  rcases ih h with hrest|hq
  · exact .inl (mem_cons_of_mem _ hrest)
  · change peer ∈ (OrderedMap.set queue other _).map Prod.fst at hq
    rw [OrderedMap.keys_set] at hq
    split_ifs at hq
    · exact .inr hq
    · rcases mem_append.mp hq with hold|hn
      · exact .inr hold
      · exact .inl (mem_cons.mpr (.inl (mem_singleton.mp hn)))

lemma push (h : mesh.Tight) (sender : PeerId) (entry : GossipIHaveEntry) : (mesh.push sender entry).Tight where
 covered := h.covered
 eager := h.eager
 lazy := h.lazy
 queue peer hpeer := by
  rcases keys_queueLazies hpeer with hl|hq
  · exact h.lazy (mem_filter.mp hl).1
  · exact h.queue hq

lemma clear (mesh : Mesh) : mesh.clear.Tight :=
 ⟨nofun,nil_subset _,nil_subset _,nil_subset _⟩

end Tight

end Mesh

namespace GossipTopicState

variable {out : List TopicOutEvent}

variable (peer : PeerId)

section
variable (blake3 : Bytes → MessageId)

def Addressed (neighbors : List PeerId) (out : List TopicOutEvent) : Prop :=
  ∀ peer message, message.spreads = true → .sendMessage peer message ∈ out → peer ∈ neighbors

lemma addressed_of_control (h : Controls out) (ns : List PeerId) : Addressed ns out := by
 intro peer msg hs hm
 have hc : msg.spreads = false := h _ hm
 rw [hs] at hc
 cases hc

lemma Addressed.append {ns : List PeerId} {rest : List TopicOutEvent} (h : Addressed ns out)
    (hrest : Addressed ns rest) : Addressed ns (out ++ rest) := by
 intro peer msg hs hm
 rcases mem_append.mp hm with hm|hm
 · exact h peer msg hs hm
 · exact hrest peer msg hs hm

variable {s : GossipTopicState}

variable {event : TopicInEvent} {nowMs : ℕ}

lemma handleEvent_attached {peer : PeerId} (h : attached blake3 event nowMs s = some peer) :
    (handleEvent blake3 event nowMs s).2.toMesh = s.toMesh.addEager peer ∨
      (handleEvent blake3 event nowMs s).2.toMesh = s.toMesh.addLazy peer := by
 unfold attached at h
 split at h
 · cases h
   exact .inr rfl
 · rename_i sender message
   split_ifs at h with hs
   obtain rfl:=Option.some.inj h
   right
   rcases handleGossipMessage_cases blake3 sender message nowMs s with ⟨hid,_⟩|⟨_,_,heq⟩|⟨_,hu,_⟩
   · exact absurd hs.1 hid
   · change (handleGossipMessage blake3 sender message nowMs s).2.toMesh = _
     rw [heq]
     change (hasSeenMessage message.id nowMs s).2.toMesh.addLazy sender = _
     rw [hasSeenMessage_toMesh]
   · rw [hs.2] at hu
     cases hu
 · exact .inl (handleEvent_grafted blake3 h).1

lemma tight_viewsClosed (me : PeerId) :
    ViewsClosed me (fun _ => True) (fun s => s.me = me ∧ s.toMesh.Tight) fun _ => True where
 self hs := hs.1
 shelved {s _} hs _ _ := by
  obtain ⟨random,peers,he,_⟩:=evictPassive_eq s
  rw [he]
  exact hs
 forgotten peer hs := ⟨hs.1,hs.2.forget peer⟩
 activated {_ peer} _ hs _ := ⟨hs.1,hs.2.activate peer⟩
 cleared {s} hs := ⟨hs.1,.clear s.toMesh⟩
 sent _ _ := trivial
 told _ _ := trivial
 parted _ := trivial

lemma tight_spreadClosed (nowMs : ℕ) (ns : List PeerId) :
    SpreadClosed nowMs (· ∈ ns) (fun s => s.neighbors = ns ∧ s.toMesh.Tight)
      fun event => ∀ peer msg, event = .sendMessage peer msg → peer ∈ ns where
 eager hs hpeer := hs.1 ▸ hs.2.eager hpeer
 queued hs hpeer := hs.1 ▸ hs.2.queue hpeer
 looked hs _ _ := hs
 eagerAdded hs hpeer := ⟨hs.1,hs.2.addEager (hs.1 ▸ hpeer)⟩
 lazyAdded hs hpeer := ⟨hs.1,hs.2.addLazy (hs.1 ▸ hpeer)⟩
 stored _ hs := hs
 announced entry sender _ hs := ⟨hs.1,hs.2.covered,hs.2.eager,hs.2.lazy,(hs.2.push sender entry).queue⟩
 dispatched hs := ⟨hs.1,hs.2.covered,hs.2.eager,hs.2.lazy,nil_subset _⟩
 sought _ _ hs _ := hs
 sent hpeer _ _ heq := by
  cases heq
  exact hpeer
 timed _ _ heq := by cases heq

lemma handleEvent_tight (h : s.toMesh.Tight)
    (ha : ∀ peer, attached blake3 event nowMs s = some peer → peer ∈ s.neighbors) :
    (handleEvent blake3 event nowMs s).2.toMesh.Tight ∧
      Addressed (handleEvent blake3 event nowMs s).2.neighbors (handleEvent blake3 event nowMs s).1 := by
 cases hsp : event.spreads with
 | false =>
  have hsw:=swarmLayer_handleEvent blake3 hsp nowMs
  refine ⟨?_,addressed_of_control (hsw.2 s) _⟩
  exact ((tight_viewsClosed s.me).handleEvent blake3 hsp nowMs ⟨rfl,h⟩ fun _ _=>trivial).1.2
 | true =>
  obtain ⟨⟨hsa,ht⟩,ho⟩:=(tight_spreadClosed nowMs s.neighbors).handleEvent blake3 hsp ⟨rfl,h⟩ ha
   (fun _ _ _ _ _ hs=>hs) fun _ _ _ _ _ _ _ heq=>by cases heq
  rw [hsa]
  exact ⟨ht,fun peer msg _ hm=>ho _ hm peer msg rfl⟩

lemma handle_tight (h : s.toMesh.Tight)
    (hat : ∀ peer, attached blake3 event nowMs (s.expireCaches nowMs) = some peer → peer ∈ s.neighbors) :
    (handle blake3 event nowMs s).2.toMesh.Tight ∧
      Addressed (handle blake3 event nowMs s).2.neighbors (handle blake3 event nowMs s).1 := by
 obtain ⟨rest,hrest,ho,scheduled,hs⟩:=handle_cases blake3 event nowMs s
 have he : (s.expireCaches nowMs).toMesh.Tight := h
 have hc : Controls rest := by
  rcases hrest with rfl|rfl
  · exact controls_nil
  · exact controls_scheduleTimer _ _
 rw [ho,hs]
 obtain ⟨ht,ha⟩:=handleEvent_tight blake3 he hat
 exact ⟨ht,ha.append (addressed_of_control hc _)⟩

end

end GossipTopicState

/-- A topic with what its last event returned, and the disconnected peers that have not become neighbours since. -/
structure PushHistory where
  state : GossipTopicState
  out : List TopicOutEvent
  gone : List PeerId

namespace PushHistory
open GossipTopicState

section
variable (blake3 : Bytes → MessageId)

def next (h : PushHistory) (event : TopicInEvent) (nowMs : ℕ) : PushHistory where
  state := (handle blake3 event nowMs h.state).2
  out := (handle blake3 event nowMs h.state).1
  gone := (reported event ++ h.gone).filter fun peer =>
    !OrderedSet.has (handle blake3 event nowMs h.state).2.neighbors peer
where
  reported : TopicInEvent → List PeerId
    | .peerDisconnected peer => [peer]
    | _ => []

def step (h : PushHistory) (event : TopicInEvent × ℕ) : Option PushHistory := some (h.next blake3 event.1 event.2)

/-- The peers that get messages, those that the last event sent some to, and those that are gone. -/
def PushesToNeighbors (h : PushHistory) : Prop :=
  (∀ peer, peer ∈ h.state.eagerPeers ∨ peer ∈ h.state.lazyPeers ↔ peer ∈ h.state.neighbors) ∧
    (∀ peer message, message.spreads = true → .sendMessage peer message ∈ h.out → peer ∈ h.state.neighbors) ∧
    ∀ peer message, message.spreads = true → .sendMessage peer message ∈ h.out → peer ∉ h.gone

def AttachesNeighbor (h : PushHistory) (event : TopicInEvent × ℕ) : Prop :=
  ∀ peer ∈ attached blake3 event.1 event.2 (h.state.expireCaches event.2), peer ∈ h.state.neighbors

instance decidableAttachesNeighbor (h : PushHistory) : DecidablePred (h.AttachesNeighbor blake3) := fun event =>
  @Option.decidableForallMem PeerId (fun peer => peer ∈ h.state.neighbors)
    (fun peer => decidable_of_iff (OrderedSet.has h.state.neighbors peer = true) OrderedSet.has_eq_true)
    (attached blake3 event.1 event.2 (h.state.expireCaches event.2))

structure Proper (h : PushHistory) : Prop where
  tight : h.state.toMesh.Tight
  out : Addressed h.state.neighbors h.out
  gone : ∀ peer ∈ h.gone, peer ∉ h.state.neighbors

variable {h : PushHistory}

lemma Proper.pushesToNeighbors (hp : h.Proper) : h.PushesToNeighbors := by
 refine ⟨fun peer=>⟨?_,hp.tight.covered peer⟩,hp.out,fun peer msg hs hm hg=>?_⟩
 · rintro (he|hl)
   · exact hp.tight.eager he
   · exact hp.tight.lazy hl
 · exact hp.gone peer hg (hp.out peer msg hs hm)

lemma Proper.next (hp : h.Proper) {event : TopicInEvent × ℕ}
    (ha : h.AttachesNeighbor blake3 event) : (h.next blake3 event.1 event.2).Proper := by
 obtain ⟨ht,ho⟩:=handle_tight blake3 hp.tight fun peer hpeer=>ha peer hpeer
 refine ⟨ht,ho,fun peer hpeer hn=>?_⟩
 have hno:=(mem_filter.mp hpeer).2
 have hh : has (handle blake3 event.1 event.2 h.state).2.neighbors peer = true := has_eq_true.mpr hn
 rw [hh] at hno
 cases hno

lemma attachesNeighbor_of_next {event : TopicInEvent × ℕ}
    (hn : (h.next blake3 event.1 event.2).PushesToNeighbors) : h.AttachesNeighbor blake3 event := by
 intro peer hpeer
 obtain ⟨_,_,_,scheduled,hs⟩:=handle_cases blake3 event.1 event.2 h.state
 have hl:=(hn.1 peer).mp
 change peer ∈ (handle blake3 event.1 event.2 h.state).2.eagerPeers ∨
  peer ∈ (handle blake3 event.1 event.2 h.state).2.lazyPeers →
  peer ∈ (handle blake3 event.1 event.2 h.state).2.neighbors at hl
 rw [hs] at hl
 rcases handleEvent_attached blake3 hpeer with hm|hm
 · rw [hm] at hl
   exact hl (.inl (mem_add.mpr (.inr rfl)))
 · rw [hm] at hl
   exact hl (.inr (mem_add.mpr (.inr rfl)))

/-- Messages go to the active view exactly in the histories in which only neighbours are made eager or lazy. -/
theorem pushes_to_neighbors_iff (me : PeerId) (activeViewCapacity maxMessageSize passiveViewCapacity : ℕ)
    (random : Stream' ℕ) (peerData : Option Bytes) {events : List (TopicInEvent × ℕ)} {last : PushHistory}
    (hruns : Runs (PushHistory.step blake3)
      ⟨create me activeViewCapacity maxMessageSize passiveViewCapacity random peerData, [], []⟩ events last) :
    GuardedRuns (PushHistory.step blake3) (AttachesNeighbor blake3)
      ⟨create me activeViewCapacity maxMessageSize passiveViewCapacity random peerData, [], []⟩ events last ↔
    ∀ before rest h, events = before ++ rest → Runs (PushHistory.step blake3)
      ⟨create me activeViewCapacity maxMessageSize passiveViewCapacity random peerData, [], []⟩ before h →
      h.PushesToNeighbors := by
 refine hruns.guarded_iff_holds (I := Proper) ?_ ?_ (fun _ hp=>hp.pushesToNeighbors) ?_
 · refine ⟨?_,addressed_of_control controls_nil _,nofun⟩
   exact .clear (create me activeViewCapacity maxMessageSize passiveViewCapacity random peerData).toMesh
 · intro h event next hp ha hn
   cases hn
   exact hp.next blake3 ha
 · intro h event next _ hn hpu
   cases hn
   exact attachesNeighbor_of_next blake3 hpu

end

/-- A neighbour disconnects and asks for full messages without joining again; then a message is broadcast. -/
def lateGraft : List (TopicInEvent × ℕ) :=
  [(.recvMessage (idOf 2) (.join none), 0), (.peerDisconnected (idOf 2), 1),
    (.recvMessage (idOf 2) (.graft none 0), 2), (.command (.broadcast [65] none), 3)]

theorem pushes_to_disconnected_peer : ∃ h, Runs (step fun _ => idOf 9) ⟨TopicHistory.freshTopic, [], []⟩ lateGraft h ∧
      h.state.neighbors = [] ∧ h.state.eagerPeers = [idOf 2] ∧ h.gone = [idOf 2] ∧
      .sendMessage (idOf 2) (.gossip ⟨idOf 9, [65], .swarm 0⟩) ∈ h.out :=
 by decide +kernel

def announcedThenGone : List (TopicInEvent × ℕ) :=
  [(.recvMessage (idOf 2) (.join none), 0), (.recvMessage (idOf 2) .prune, 1),
    (.command (.broadcast [65] none), 2), (.timerExpired (some .dispatchLazyPush), 7),
    (.peerDisconnected (idOf 2), 8)]

theorem pushes_to_one_neighbor :
    ∃ last, Runs (step fun _ => idOf 9) ⟨TopicHistory.freshTopic, [], []⟩ announcedThenGone last ∧
      last.gone = [idOf 2] ∧
      ∀ before rest h, announcedThenGone = before ++ rest →
        Runs (step fun _ => idOf 9) ⟨TopicHistory.freshTopic, [], []⟩ before h → h.PushesToNeighbors := by
 obtain ⟨last,hg,hgo⟩ : ∃ last, GuardedRuns (step fun _=>idOf 9) (AttachesNeighbor fun _=>idOf 9)
   ⟨TopicHistory.freshTopic,[],[]⟩ announcedThenGone last ∧ last.gone = [idOf 2] := by
  decide +kernel
 refine ⟨last,hg.runs,hgo,?_⟩
 exact (pushes_to_neighbors_iff (fun _=>idOf 9) (idOf 1) 5 4096 30 (fun _=>0) (some [])
  hg.runs).mp hg

end PushHistory

end Enlace.Gossip
