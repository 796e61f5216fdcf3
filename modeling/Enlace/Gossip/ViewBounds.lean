import Enlace.Gossip.Forwarding

set_option autoImplicit false

/-! The two views of a topic over its histories: their sizes, and who is in them. -/
namespace Enlace.Gossip
open ByteString Stateful List OrderedSet Transition

namespace Mesh

def Split (mesh : Mesh) : Prop := ∀ peer ∈ mesh.eagerPeers, peer ∉ mesh.lazyPeers

variable {mesh mesh' : Mesh}

lemma Split.addEager (h : mesh.Split) (peer : PeerId) : (mesh.addEager peer).Split := by
 intro other he hl
 obtain ⟨hl,hne⟩:=mem_delete.mp hl
 rcases mem_add.mp he with hold|heq
 · exact h other hold hl
 · exact hne heq

lemma Split.addLazy (h : mesh.Split) (peer : PeerId) : (mesh.addLazy peer).Split := by
 intro other he hl
 obtain ⟨he,hne⟩:=mem_delete.mp he
 rcases mem_add.mp hl with hold|heq
 · exact h other he hold
 · exact hne heq

lemma Split.forget (h : mesh.Split) (peer : PeerId) : (mesh.forget peer).Split :=
 fun other he hl=>h other (mem_delete.mp he).1 (mem_delete.mp hl).1

lemma Split.activate (h : mesh.Split) (peer : PeerId) : (mesh.activate peer).Split := h.addEager peer

lemma Step.split {grafted : Option PeerId} (hs : Step grafted mesh mesh') (h : mesh.Split) : mesh'.Split := by
 cases hs with
 | same => exact h
 | forget peer => exact h.forget peer
 | activate _ => exact h.activate _
 | replace _ _ => exact (h.forget _).activate _
 | addLazy peer => exact h.addLazy peer
 | addEager _ => exact h.addEager _
 | clear => exact nofun

end Mesh

namespace GossipTopicState

variable {s : GossipTopicState}

lemma evictPassive_length (hpassive : 1 ≤ s.passiveViewCapacity) (h : s.passivePeers.length ≤ s.passiveViewCapacity) :
    (evictPassive s).2.passivePeers.length < s.passiveViewCapacity := by
 rw [evictPassive,get_bind]
 split_ifs with hf
 · have hne : s.passivePeers ≠ [] := fun hn=>by
    rw [hn,length_nil] at hf
    omega
   obtain ⟨evicted,hm,hv⟩:=randomArrayValue_of_ne_nil hne s
   obtain ⟨random,hd⟩:=draws_randomArrayValue s.passivePeers s
   rw [bind_apply,hv,hd]
   exact lt_of_lt_of_le (length_delete_lt hm) h
 · exact Nat.lt_of_not_le hf

lemma evictActive_length (hactive : 1 ≤ s.activeViewCapacity)
    (h : s.neighbors.length ≤ s.activeViewCapacity) : (evictActive s).2.neighbors.length < s.activeViewCapacity := by
 rw [evictActive,get_bind]
 split_ifs with hf
 · have hne : s.neighbors ≠ [] := fun hn=>by
    rw [hn,length_nil] at hf
    omega
   obtain ⟨evicted,hm,hv⟩:=randomArrayValue_of_ne_nil hne s
   obtain ⟨random,hd⟩:=draws_randomArrayValue s.neighbors s
   rw [bind_apply,hv,hd]
   have hs : evicted ∈ ({ s with random := random } : GossipTopicState).neighbors := hm
   rw [removeActive_toMesh hs]
   exact lt_of_lt_of_le (length_delete_lt hm) h
 · exact Nat.lt_of_not_le hf

def Within (me : PeerId) (capacity : ℕ) (peers : List PeerId) : Prop := peers.length ≤ capacity ∧ me ∉ peers

lemma Within.sublist {me : PeerId} {capacity : ℕ} {peers fewer : List PeerId} (h : Within me capacity peers)
    (hs : fewer.Sublist peers) : Within me capacity fewer :=
 ⟨hs.length_le.trans h.1,fun hm=>h.2 (hs.subset hm)⟩

lemma within_add {me peer : PeerId} {capacity : ℕ} {peers : List PeerId} (hl : peers.length < capacity)
    (hme : me ∉ peers) (hpeer : peer ≠ me) : Within me capacity (add peers peer) := by
 refine ⟨(length_add_le peers peer).trans hl,fun hm=>?_⟩
 rcases mem_add.mp hm with hold|hn
 · exact hme hold
 · exact hpeer hn.symm

def Bounded (me : PeerId) (active passive : ℕ) (s : GossipTopicState) : Prop :=
  (s.me, s.activeViewCapacity, s.passiveViewCapacity) = (me, active, passive) ∧
    Within me active s.neighbors ∧ Within me passive s.passivePeers

structure Kept (me : PeerId) (active passive : ℕ) (s : GossipTopicState) : Prop where
  bounded : s.Bounded me active passive
  apart : s.Apart
  split : s.toMesh.Split
  covered : s.toMesh.Covered

section
variable (blake3 : Bytes → MessageId) {me : PeerId} {active passive : ℕ}

lemma handle_mesh (hs : s.toMesh.Split) (hc : s.toMesh.Covered) (event : TopicInEvent)
    (nowMs : ℕ) : (handle blake3 event nowMs s).2.toMesh.Split ∧ (handle blake3 event nowMs s).2.toMesh.Covered := by
 by_cases hd : event = .timerExpired (some .dispatchLazyPush)
 · subst hd
   rw [(handle_dispatch blake3 nowMs s).1]
   exact ⟨hs,hc⟩
 · cases handle_spread blake3 hd nowMs s with
   | push _ hpushed =>
    obtain ⟨round,hm⟩:=hpushed.queued
    rw [hm]
    exact ⟨hs,hc⟩
   | step _ hst => exact ⟨hst.split hs,hst.covered hc⟩

section
variable (hactive : 1 ≤ active) (hpassive : 1 ≤ passive)
include hactive hpassive

lemma bounded_viewsClosed : ViewsClosed me (fun _ => True) (Bounded me active passive) fun _ => True where
 self hs := (Prod.mk.inj hs.1).1
 shelved {s _} hs hpeer _ := by
  obtain ⟨hf,hn,hre⟩:=hs
  obtain ⟨rfl,rfl,rfl⟩ : s.me = me ∧ _ = active ∧ _ = passive := by simpa using hf
  have hr:=evictPassive_length hpassive hre.1
  obtain ⟨random,peers,he,hsu⟩:=evictPassive_eq s
  rw [he] at hr ⊢
  exact ⟨rfl,hn,within_add hr (fun hm=>hre.2 (hsu hm)) hpeer⟩
 dropped _ hs := ⟨hs.1,hs.2.1,hs.2.2.sublist filter_sublist⟩
 forgotten _ hs := ⟨hs.1,hs.2.1.sublist filter_sublist,hs.2.2⟩
 activated {s peer} hs hg hpeer := by
  obtain ⟨rfl,rfl,rfl⟩ : s.me = me ∧ _ = active ∧ _ = passive := by simpa using hs.1
  have hr:=evictActive_length hactive hs.2.1.1
  exact ⟨hg.1,within_add hr hg.2.1.2 hpeer,hg.2.2.sublist filter_sublist⟩
 cleared hs := ⟨hs.1,hs.2.1.sublist (nil_sublist _),hs.2.2.sublist (nil_sublist _)⟩
 sent _ _ := trivial
 told _ _ := trivial
 parted _ := trivial

lemma handleEvent_bounded (event : TopicInEvent) (nowMs : ℕ) :
    Preserves (Bounded me active passive) (handleEvent blake3 event nowMs) := by
 intro s hs
 cases hsp : event.spreads with
 | false => exact ((bounded_viewsClosed hactive hpassive).handleEvent blake3 hsp nowMs hs fun _ _=>trivial).1
 | true =>
  obtain ⟨hn,hst⟩:=(handleEvent_of_spreads blake3 event hsp nowMs s).1
  simp only [standing,Prod.mk.injEq] at hst
  simp only [Bounded,hn,hst]
  exact hs

lemma handle_kept (event : TopicInEvent) (nowMs : ℕ) :
    Preserves (Kept me active passive) (handle blake3 event nowMs) := by
 intro s hs
 obtain ⟨hsp,hc⟩:=handle_mesh blake3 hs.split hs.covered event nowMs
 have ha:=handle_apart blake3 event nowMs s hs.apart
 obtain ⟨_,_,_,scheduled,hst⟩:=handle_cases blake3 event nowMs s
 have hb:=handleEvent_bounded blake3 hactive hpassive event nowMs (s.expireCaches nowMs) hs.bounded
 refine ⟨?_,ha,hsp,hc⟩
 rw [hst]
 exact hb

end

/-- In every history the views are within their capacities, apart and without the peer itself, and every neighbour gets
messages in exactly one way. -/
theorem views_of_history (hactive : 1 ≤ active) (hpassive : 1 ≤ passive) (maxMessageSize : ℕ) (random : Stream' ℕ)
    (peerData : Option Bytes) {events : List (TopicInEvent × ℕ)} {s : GossipTopicState}
    (hruns : Runs (step blake3) (create me active maxMessageSize passive random peerData) events s) :
    s.neighbors.length ≤ active ∧ s.passivePeers.length ≤ passive ∧ (∀ peer ∈ s.passivePeers, peer ∉ s.neighbors) ∧
      me ∉ s.neighbors ∧ me ∉ s.passivePeers ∧ (∀ peer ∈ s.eagerPeers, peer ∉ s.lazyPeers) ∧
      ∀ peer ∈ s.neighbors, peer ∈ s.eagerPeers ∨ peer ∈ s.lazyPeers := by
 have hst : (create me active maxMessageSize passive random peerData).Kept me active passive := by
  refine ⟨⟨rfl,⟨Nat.zero_le _,not_mem_nil⟩,Nat.zero_le _,not_mem_nil⟩,?_,?_,?_⟩
  · exact nofun
  · exact nofun
  · exact nofun
 have hk:=hruns.invariant (Kept me active passive) hst fun s event next hs hne=>by
  cases hne
  exact handle_kept blake3 hactive hpassive event.1 event.2 s hs
 obtain ⟨_,⟨hn,hse⟩,hr,hno⟩:=hk.bounded
 exact ⟨hn,hr,hk.apart,hse,hno,hk.split,hk.covered⟩

end

def twoJoin : List (TopicInEvent × ℕ) :=
  [(.recvMessage (idOf 2) (.join none), 0), (.recvMessage (idOf 3) (.join none), 1),
    (.recvMessage (idOf 3) .prune, 2)]

theorem views_of_two_peers : ∃ s, Runs (step fun _ => idOf 0) (create (idOf 1) 1 4096 1 (fun _ => 0) none) twoJoin s ∧
      s.neighbors = [idOf 3] ∧ s.passivePeers = [idOf 2] ∧ s.neighbors.length ≤ 1 ∧
      (∀ peer ∈ s.passivePeers, peer ∉ s.neighbors) ∧
      ∀ peer ∈ s.neighbors, peer ∈ s.eagerPeers ∨ peer ∈ s.lazyPeers := by
 refine exists_and₃ (by decide +kernel) fun s hr _ _=>?_
 obtain ⟨hl,_,ha,_,_,_,hc⟩ := views_of_history (fun _=>idOf 0) le_rfl le_rfl 4096 (fun _=>0) none hr
 exact ⟨hl,ha,hc⟩

end GossipTopicState

end Enlace.Gossip
