import Enlace.Gossip.Membership

set_option autoImplicit false

/-! Peers that `GossipProtocolState.handle` tells to disconnect, over the histories of a protocol state. -/
namespace Enlace.Gossip
open ByteString Stateful Transition List OrderedMap OrderedSet Prod

namespace GossipProtocolState
open GossipTopicState

section
variable (blake3 : Bytes → MessageId)
variable {s : GossipProtocolState} {topicId : TopicId} {topic : GossipTopicState} {event : TopicInEvent} {nowMs : ℕ}

/-- No request expires of a peer that is a neighbour, and no neighbour that disconnects is asked back to the only topic
that it has. -/
def Admissible (s : GossipProtocolState) (step : GossipProtocolInEvent × ℕ) : Prop :=
  match step.1 with
  | .timerExpired topicId timer =>
    ∀ topic, OrderedMap.get s.topics topicId = some topic → Unexpired topic (.timerExpired timer)
  | .recvMessage peer topicId message =>
    ∀ topic, OrderedMap.get s.topics topicId = some topic → LetGo topicId topic (.recvMessage peer message) s
  | _ => True

structure Consistent (out : List GossipProtocolOutEvent) (s : GossipProtocolState) : Prop where
  disconnected : ∀ peer, .disconnectPeer peer ∈ out → s.topicsOf peer = []
  recorded : s.Recorded

lemma topicsOf_tracked (h : get s.topics topicId = some topic) (sender peer : PeerId) :
    (s.tracked sender topicId).topicsOf peer =
      if sender = peer then add (s.topicsOf peer) topicId else s.topicsOf peer := by
 rw [tracked,h,if_pos (show (some topic).isSome = true from rfl),topicsOf_trackPeerTopic]

variable {peer : PeerId}

lemma mem_topicsOf_tracked {other : TopicId} (h : other ∈ s.topicsOf peer) (sender : PeerId) :
    other ∈ (s.tracked sender topicId).topicsOf peer := by
 unfold tracked
 split_ifs
 · rw [topicsOf_trackPeerTopic]
   split_ifs
   · exact mem_add.mpr (.inl h)
   · exact h
 · exact h

lemma handled_tracked (peer : PeerId) (topicId : TopicId) (s : GossipProtocolState) :
    handled blake3 topic event nowMs (s.tracked peer topicId) = handled blake3 topic event nowMs s := by
 rw [handled,handled,random_tracked]

lemma recorded_tracked (h : s.Recorded) (peer : PeerId) (topicId : TopicId) : (s.tracked peer topicId).Recorded := by
 intro other neighbor hm
 rw [activeView,topics_tracked] at hm
 exact mem_topicsOf_tracked (h other neighbor hm) peer

section
variable (hs : s.WellFormed)
include hs

section
variable (hrecorded : s.Recorded)
include hrecorded

lemma recvMessage_consistent (peer : PeerId) (msg : GossipTopicMessage)
    (hb : ∀ topic, get s.topics topicId = some topic → LetGo topicId topic (.recvMessage peer msg) s) :
    Consistent (handle blake3 (.recvMessage peer topicId msg) nowMs s).1
      (handle blake3 (.recvMessage peer topicId msg) nowMs s).2 := by
 rw [handle_recvMessage]
 cases h : get s.topics topicId with
 | none =>
  have hno : get (s.tracked peer topicId).topics topicId = none := by rw [topics_tracked,h]
  rw [handleTopic_of_none blake3 hno]
  exact ⟨nofun,recorded_tracked hrecorded peer topicId⟩
 | some topic =>
  constructor
  · intro gone hg
    have hl : ∀ topic', get (s.tracked peer topicId).topics topicId = some topic' →
      LetGo topicId topic' (.recvMessage peer msg) (s.tracked peer topicId) := by
     intro topic' ht' neighbor respond hevent hn
     rw [topics_tracked] at ht'
     rw [random_tracked]
     refine (hb topic' ht' neighbor respond hevent hn).imp_left ?_
     rintro ⟨other,ho,hne⟩
     exact ⟨other,mem_topicsOf_tracked ho peer,hne⟩
    have hq : TopicInEvent.recvMessage peer msg ≠ .command .quit := nofun
    exact handleTopic_disconnects blake3 (hs.tracked peer topicId) hq hl hg
  · refine recorded_handleTopic blake3 (hs.tracked peer topicId) (recorded_tracked hrecorded peer topicId) ?_ ?_
    · intro sender message' heq
      cases heq
      rw [topicsOf_tracked h,if_pos rfl]
      exact mem_add.mpr (.inr rfl)
    · exact nofun

lemma quit_consistent (topicId : TopicId) :
    Consistent (handle blake3 (.command topicId .quit) nowMs s).1
      (handle blake3 (.command topicId .quit) nowMs s).2 := by
 rw [handle,bind_apply,Stateful.modify_bind,bind_apply,pure_apply]
 have hw:=wellFormed_handleTopic blake3 topicId (.command .quit) nowMs s hs
 have hk : (handleTopic blake3 topicId (.command .quit) nowMs s).2.Recorded :=
  recorded_handleTopic blake3 hs hrecorded nofun nofun
 have hl : ∀ peer, .disconnectPeer peer ∈ (handleTopic blake3 topicId (.command .quit) nowMs s).1 →
   delete ((handleTopic blake3 topicId (.command .quit) nowMs s).2.topicsOf peer) topicId = [] := by
  intro peer hm
  refine eq_nil_iff_forall_not_mem.mpr fun other ho=>?_
  obtain ⟨hin,hne⟩:=mem_delete.mp ho
  exact hne (eq_of_handleTopic_disconnects blake3 hm ((mem_topicsOf_of_ne blake3 hne peer).mp hin))
 generalize handleTopic blake3 topicId (.command .quit) nowMs s = left at hw hk hl
 have hp : ({ left.2 with topics := delete left.2.topics topicId } : GossipProtocolState).NodupPeers := hw.peers
 constructor
 · intro peer hm
   rw [topicsOf_removeTopicMemberships hp]
   rcases mem_append.mp hm with hf|hrest
   · exact hl peer hf
   · exact removeTopicMemberships_disconnects hp hrest
 · intro other peer hm
   rw [topicsOf_removeTopicMemberships hp]
   change peer ∈ activeView { left.2 with topics := delete left.2.topics topicId } other at hm
   rw [activeView,get_delete] at hm
   split_ifs at hm with heq
   · exact absurd hm not_mem_nil
   · exact mem_delete.mpr ⟨hk other peer hm,Ne.symm heq⟩

lemma peerDisconnected_consistent (gone : PeerId) :
    Consistent (handle blake3 (.peerDisconnected gone) nowMs s).1
      (handle blake3 (.peerDisconnected gone) nowMs s).2 := by
 have hal : (TopicInEvent.peerDisconnected gone).ToAll := trivial
 obtain ⟨_,hk,hsu,ha⟩:=handleTopics_keeps blake3 hal nowMs (s.topics.map fst) hs hrecorded
 change Consistent (handleTopics blake3 (.peerDisconnected gone) nowMs (s.topics.map fst) s).1
  { (handleTopics blake3 (.peerDisconnected gone) nowMs (s.topics.map fst) s).2 with
   peerTopics := delete
    (handleTopics blake3 (.peerDisconnected gone) nowMs (s.topics.map fst) s).2.peerTopics gone }
 constructor
 · intro peer hm
   rw [topicsOf_delete,if_pos (Option.some.inj (ha peer hm))]
 · intro topicId peer hm
   rw [topicsOf_delete]
   split_ifs with heq
   · subst heq
     have ht:=mem_keys_of_activeView (hsu topicId gone hm)
     exact absurd hm (handleTopics_peerDisconnected blake3 gone _ hs hrecorded ht)
   · exact hk topicId peer hm

lemma handleTopic_consistent (topicId : TopicId) (event : TopicInEvent)
    (hevent : event ≠ .command .quit) (hr : ∀ peer message, event ≠ .recvMessage peer message)
    (hp : ∀ topic, get s.topics topicId = some topic → Unexpired topic event) :
    Consistent (handleTopic blake3 topicId event nowMs s).1 (handleTopic blake3 topicId event nowMs s).2 := by
 constructor
 · intro peer hm
   exact handleTopic_disconnects blake3 hs hevent (fun _ _ _ _ heq=>absurd heq (hr _ _)) hm
 · exact recorded_handleTopic blake3 hs hrecorded (fun _ _ heq=>absurd heq (hr _ _)) hp

lemma consistent_of_admissible (event : GossipProtocolInEvent) (nowMs : ℕ)
    (hok : Admissible s (event, nowMs)) :
    Consistent (handle blake3 event nowMs s).1 (handle blake3 event nowMs s).2 := by
 cases event with
 | recvMessage peer topicId msg => exact recvMessage_consistent blake3 hs hrecorded peer msg hok
 | command topicId command =>
  cases command with
  | join peers =>
   have hr : (s.requireTopic topicId).Recorded := by
    intro other peer hm
    rw [activeView_requireTopic] at hm
    rw [topicsOf_requireTopic]
    exact hrecorded other peer hm
   exact handleTopic_consistent blake3 (hs.requireTopic topicId) hr topicId (.command (.join peers)) nofun
    nofun nofun
  | broadcast payload scope =>
   exact handleTopic_consistent blake3 hs hrecorded topicId (.command (.broadcast payload scope)) nofun
    nofun nofun
  | quit => exact quit_consistent blake3 hs hrecorded topicId
 | timerExpired topicId timer =>
  exact handleTopic_consistent blake3 hs hrecorded topicId (.timerExpired timer) nofun
   nofun hok
 | peerDisconnected peer => exact peerDisconnected_consistent blake3 hs hrecorded peer
 | updatePeerData peerData =>
  have hal : (TopicInEvent.updatePeerData peerData).ToAll := trivial
  have hw : ({ s with peerData := peerData } : GossipProtocolState).WellFormed := ⟨hs.apart,hs.peers⟩
  obtain ⟨_,hk,_,ha⟩:=handleTopics_keeps blake3 hal nowMs (s.topics.map fst) hw hrecorded
  exact ⟨fun peer hm=>(nomatch ha peer hm),hk⟩

end

end

lemma expired_not_recorded (h : get s.topics topicId = some topic)
    (hn : peer ∈ topic.neighbors) (hp : peer ∈ topic.pendingNeighborRequests) :
    ¬ (handleTopic blake3 topicId (.timerExpired (some (.pendingNeighbor peer))) nowMs s).2.Recorded := by
 intro hrecorded
 obtain ⟨ha,rest,ho,hsilent⟩:=handle_pendingNeighbor_of_mem blake3 (s := { topic with random := s.random })
  hp nowMs
 have hv : peer ∈ (handleTopic blake3 topicId (.timerExpired (some (.pendingNeighbor peer))) nowMs s).2.activeView
   topicId := by
  rw [activeView_handleTopic blake3 h,if_pos rfl,handled,ha]
  exact hn
 have ht:=hrecorded topicId peer hv
 rw [topicsOf_handleTopic blake3 h,handled,ho,foldl_cons,record,if_pos rfl] at ht
 exact notMem_foldl_record hsilent (fun hm=>(mem_delete.mp hm).2 rfl) ht

lemma mapTopicOut_tells {rest : List TopicOutEvent} (hin : topicId ∈ s.topicsOf peer)
    (hon : ∀ other ∈ s.topicsOf peer, other = topicId) : .disconnectPeer peer ∈
      (mapTopicOut topicId (.emitEvent (.neighborDown peer) :: .disconnectPeer peer :: rest) s).1 := by
 have hso : (get s.peerTopics peer).isSome := by
  cases hg : get s.peerTopics peer with
  | none =>
   rw [topicsOf,hg] at hin
   exact absurd hin not_mem_nil
  | some topics => rfl
 have hl : delete (s.topicsOf peer) topicId = [] := by
  refine eq_nil_iff_forall_not_mem.mpr fun other ho=>?_
  obtain ⟨hm,hne⟩:=mem_delete.mp ho
  exact hne (hon other hm)
 have ht : .disconnectPeer peer ∈ (mapTopicEvent topicId (.disconnectPeer peer) s).1 :=
  mapTopicEvent_disconnects.mpr ⟨rfl,hso,hl⟩
 rw [mapTopicOut,bind_apply,bind_apply]
 refine mem_append_right _ ?_
 exact mem_append_left _ ht

lemma askedBack_not_consistent {respond : Bool} (h : get s.topics topicId = some topic)
    (hne : peer ∈ topic.neighbors) (hon : ∀ other ∈ s.topicsOf peer, other = topicId)
    (ha : AsksBack peer true { topic with random := s.random }) :
    ¬ Consistent (handle blake3 (.recvMessage peer topicId (.disconnect true respond)) nowMs s).1
      (handle blake3 (.recvMessage peer topicId (.disconnect true respond)) nowMs s).2 := by
 intro hc
 have ht : get (s.tracked peer topicId).topics topicId = some topic := by rw [topics_tracked,h]
 obtain ⟨rest,hp,hou⟩:=handle_disconnect_of_mem blake3 (s := { topic with random := s.random })
  hne true respond nowMs
 have hh : (handled blake3 topic (.recvMessage peer (.disconnect true respond)) nowMs s).1 =
  .emitEvent (.neighborDown peer) :: .disconnectPeer peer :: rest := hou
 have hto : ∀ other, other ∈ (s.tracked peer topicId).topicsOf peer ↔ other ∈ s.topicsOf peer ∨ other = topicId := by
  intro other
  rw [topicsOf_tracked h,if_pos rfl,mem_add]
 have htd : .disconnectPeer peer ∈
   (handle blake3 (.recvMessage peer topicId (.disconnect true respond)) nowMs s).1 := by
  rw [handle_recvMessage,handleTopic_of_some blake3 ht,handled_tracked,hh]
  refine mapTopicOut_tells ((hto topicId).mpr (.inr rfl)) fun other ho=>?_
  rcases (hto other).mp ho with hold|heq
  · exact hon other hold
  · exact heq
 have hn:=hc.disconnected peer htd
 rw [handle_recvMessage,topicsOf_handleTopic blake3 ht,handled_tracked,hh] at hn
 have hd : (TopicInEvent.recvMessage peer (.disconnect true respond)).departs = some (peer,true) := rfl
 have hsi : ¬ Silent peer (handled blake3 topic (.recvMessage peer (.disconnect true respond)) nowMs s).1 :=
  fun h=>(silent_departs_iff blake3 (s := { topic with random := s.random }) hd nowMs hne).mp h ha
 rw [hh,Silent] at hsi
 push Not at hsi
 obtain ⟨msg,hm⟩:=hsi
 have hse : .sendMessage peer msg ∈ rest := by simpa using hm
 rw [foldl_cons,foldl_cons] at hn
 have hb : topicId ∈ [] := by
  rw [← hn]
  exact mem_foldl_record_of_send hse hp.not_disconnects
 exact absurd hb not_mem_nil

lemma admissible_of_consistent (event : GossipProtocolInEvent) (nowMs : ℕ)
    (h : Consistent (handle blake3 event nowMs s).1 (handle blake3 event nowMs s).2) : Admissible s (event, nowMs) := by
 cases event with
 | timerExpired topicId timer =>
  intro topic ht peer hevent hn hp
  cases hevent
  exact expired_not_recorded blake3 ht hn hp h.recorded
 | recvMessage peer topicId msg =>
  intro topic ht neighbor respond hevent hn
  cases hevent
  by_cases ho : ∃ other ∈ s.topicsOf peer, other ≠ topicId
  · exact .inl ho
  · push Not at ho
    exact .inr fun ha=>askedBack_not_consistent blake3 ht hn ho ha h
 | command topicId command | peerDisconnected peer | updatePeerData peerData => trivial

end

end GossipProtocolState

structure ProtocolHistory where
  state : GossipProtocolState
  out : List GossipProtocolOutEvent

namespace ProtocolHistory
open GossipProtocolState

section
variable (blake3 : Bytes → MessageId)

def step (h : ProtocolHistory) (event : GossipProtocolInEvent × ℕ) : Option ProtocolHistory :=
  some ⟨(handle blake3 event.1 event.2 h.state).2, (handle blake3 event.1 event.2 h.state).1⟩

/-- A peer that was told to disconnect is in no active view and has no topic; a peer in an active view has the topic. -/
def KeepsActive (h : ProtocolHistory) : Prop :=
  (∀ peer, .disconnectPeer peer ∈ h.out →
    (∀ topicId, peer ∉ h.state.activeView topicId) ∧ h.state.topicsOf peer = []) ∧
  ∀ topicId peer, peer ∈ h.state.activeView topicId → topicId ∈ h.state.topicsOf peer

lemma keepsActive_iff (h : ProtocolHistory) : h.KeepsActive ↔ Consistent h.out h.state := by
 constructor
 · exact fun hk=>⟨fun peer hm=>(hk.1 peer hm).2,hk.2⟩
 · intro hc
   refine ⟨fun peer hm=>⟨fun topicId hv=>?_,hc.disconnected peer hm⟩,hc.recorded⟩
   have ht:=hc.recorded topicId peer hv
   rw [hc.disconnected peer hm] at ht
   exact absurd ht not_mem_nil

lemma wellFormed_step {h next : ProtocolHistory} {event : GossipProtocolInEvent × ℕ} (hw : h.state.WellFormed)
    (hst : step blake3 h event = some next) : next.state.WellFormed := by
 cases hst
 exact wellFormed_handle blake3 event.1 event.2 h.state hw

lemma keepsActive_step_iff {h next : ProtocolHistory} {event : GossipProtocolInEvent × ℕ} (hw : h.state.WellFormed)
    (hk : h.KeepsActive) (hst : step blake3 h event = some next) :
    next.KeepsActive ↔ Admissible h.state event := by
 cases hst
 rw [keepsActive_iff]
 constructor
 · exact admissible_of_consistent blake3 event.1 event.2
 · exact consistent_of_admissible blake3 hw hk.2 event.1 event.2

lemma keepsActive_create {options : GossipProtocolStateOptions} {random : Stream' ℕ} {s : GossipProtocolState}
    (h : create options random = .ok s) : KeepsActive ⟨s, []⟩ := by
 refine ⟨nofun,fun topicId peer hv=>?_⟩
 rw [activeView,(create_empty h).1] at hv
 exact absurd hv not_mem_nil

/-- Active peers are kept exactly in the histories all of whose events are admissible. -/
theorem keepsActive_iff_admissible {options : GossipProtocolStateOptions} {random : Stream' ℕ} {s : GossipProtocolState}
    (hcreate : create options random = .ok s) {events : List (GossipProtocolInEvent × ℕ)} {last : ProtocolHistory}
    (hruns : Runs (step blake3) ⟨s, []⟩ events last) :
    GuardedRuns (step blake3) (fun h event => Admissible h.state event) ⟨s, []⟩ events last ↔
      ∀ before rest h, events = before ++ rest → Runs (step blake3) ⟨s, []⟩ before h → h.KeepsActive := by
 refine hruns.guarded_iff_holds (I := fun h=>h.state.WellFormed ∧ h.KeepsActive) ?_ ?_ (fun _ hs=>hs.2) ?_
 · exact ⟨wellFormed_create hcreate,keepsActive_create hcreate⟩
 · rintro h event next ⟨hw,hk⟩ hok hn
   exact ⟨wellFormed_step blake3 hw hn,(keepsActive_step_iff blake3 hw hk hn).mpr hok⟩
 · rintro h event next ⟨hw,hk⟩ hn ha
   exact (keepsActive_step_iff blake3 hw hk hn).mp ha

end

def fresh : GossipProtocolState := ⟨idOf 1, 4096, 5, 30, fun _ => 0, some [], [], []⟩

lemma create_fresh : create ⟨idOf 1, none, none, none, none⟩ (fun _ => 0) = .ok fresh := rfl

def expiringRequest : List (GossipProtocolInEvent × ℕ) :=
  [(.command (idOf 7) (.join []), 0), (.recvMessage (idOf 3) (idOf 7) (.shuffleReply [⟨idOf 2, none⟩]), 1),
    (.recvMessage (idOf 2) (idOf 7) (.join none), 2),
    (.timerExpired (idOf 7) (some (.pendingNeighbor (idOf 2))), 501)]

def leavingNeighbor : List (GossipProtocolInEvent × ℕ) :=
  [(.command (idOf 7) (.join []), 0), (.recvMessage (idOf 2) (idOf 7) (.join none), 1),
    (.recvMessage (idOf 2) (idOf 7) (.disconnect true false), 2)]

/-- One peer is told to disconnect and stays a neighbour; the other one is told so and asked to come back. -/
theorem active_peer_is_disconnected : create ⟨idOf 1, none, none, none, none⟩ (fun _ => 0) = .ok fresh ∧
    (∃ h, Runs (step fun _ => idOf 0) ⟨fresh, []⟩ expiringRequest h ∧ .disconnectPeer (idOf 2) ∈ h.out ∧
      idOf 2 ∈ h.state.activeView (idOf 7) ∧ h.state.topicsOf (idOf 2) = []) ∧
    ∃ h, Runs (step fun _ => idOf 0) ⟨fresh, []⟩ leavingNeighbor h ∧ .disconnectPeer (idOf 2) ∈ h.out ∧
      h.state.topicsOf (idOf 2) = [idOf 7] := by
 refine ⟨create_fresh,?_,?_⟩
 · decide +kernel
 · decide +kernel

def quitting : List (GossipProtocolInEvent × ℕ) :=
  [(.command (idOf 7) (.join []), 0), (.recvMessage (idOf 2) (idOf 7) (.join none), 1), (.command (idOf 7) .quit, 2)]

theorem keepsActive_while_quitting :
    ∃ last, Runs (step fun _ => idOf 0) ⟨fresh, []⟩ quitting last ∧ .disconnectPeer (idOf 2) ∈ last.out ∧
      ∀ before rest h, quitting = before ++ rest → Runs (step fun _ => idOf 0) ⟨fresh, []⟩ before h →
        h.KeepsActive := by
 refine exists_and₂ (by decide +kernel) fun last hr _=>?_
 refine (keepsActive_iff_admissible (fun _=>idOf 0) create_fresh hr).mp (hr.guarded_of_mem ?_)
 intro event hevent h
 simp only [quitting,mem_cons,not_mem_nil,or_false] at hevent
 rcases hevent with rfl|rfl|rfl
 · trivial
 · exact nofun
 · trivial

end ProtocolHistory

end Enlace.Gossip
