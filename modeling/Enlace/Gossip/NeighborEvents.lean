import Enlace.Gossip.Membership

set_option autoImplicit false

/-! The active view of a topic is what its neighbour events make of it. -/
namespace Enlace.Gossip
open ByteString Stateful List OrderedMap

def GossipProtocolTopicEvent.follow (neighbors : List PeerId) : GossipProtocolTopicEvent → List PeerId
  | .neighborUp peer => OrderedSet.add neighbors peer
  | .neighborDown peer => OrderedSet.delete neighbors peer
  | .received _ _ _ _ => neighbors

def TopicOutEvent.follow (neighbors : List PeerId) : TopicOutEvent → List PeerId
  | .emitEvent event => event.follow neighbors
  | _ => neighbors

def GossipProtocolOutEvent.follow (topicId : TopicId) (neighbors : List PeerId) : GossipProtocolOutEvent → List PeerId
  | .emitEvent other event => if other = topicId then event.follow neighbors else neighbors
  | _ => neighbors

lemma TopicOutEvent.Plain.follow {event : TopicOutEvent} (h : event.Plain) (ns : List PeerId) :
    event.follow ns = ns := by
 match event with
 | .emitEvent (.neighborUp _) | .emitEvent (.neighborDown _) => exact h.elim
 | .emitEvent (.received _ _ _ _) => rfl
 | .sendMessage _ _ => rfl
 | .scheduleTimer _ _ => rfl
 | .disconnectPeer _ => rfl
 | .peerData _ _ => rfl

lemma Plain.foldl_follow {out : List TopicOutEvent} (h : Plain out) (ns : List PeerId) :
    out.foldl TopicOutEvent.follow ns = ns := by
 induction out with
 | nil => rfl
 | cons event out ih =>
  obtain ⟨hevent,ho⟩:=plain_cons.mp h
  rw [foldl_cons,hevent.follow,ih ho]

variable {peer : PeerId}

namespace GossipTopicState

variable {out : List TopicOutEvent}

lemma Farewell.foldl_follow (h : Farewell peer out)
    (ns : List PeerId) : out.foldl TopicOutEvent.follow ns = ns := by
 obtain ⟨msgs,rfl⟩:=h
 have hp : Plain (msgs.map (TopicOutEvent.sendMessage peer)) := by
  intro event hevent
  obtain ⟨msg,_,rfl⟩:=mem_map.mp hevent
  trivial
 rw [foldl_append,hp.foldl_follow]
 rfl

lemma Farewell.not_emits (h : Farewell peer out) {event : GossipProtocolTopicEvent} : .emitEvent event ∉ out := by
 obtain ⟨msgs,rfl⟩:=h
 simp

lemma Turn.foldl_follow {event : TopicInEvent} {ns after : List PeerId}
    (h : Turn event ns out after) (hq : event ≠ .command .quit) :
    out.foldl TopicOutEvent.follow ns = after := by
 cases h with
 | plain ho => exact ho.foldl_follow ns
 | refused _ _ hdata hgoodbye hrest _ =>
  rw [foldl_append,foldl_append,hdata.foldl_follow,hgoodbye.foldl_follow,hrest.foldl_follow]
 | admitted _ _ hdata ha =>
  rw [foldl_append,foldl_cons,hdata.foldl_follow,ha.foldl_follow]
  rfl
 | replaced _ _ _ hdata hgoodbye ha _ =>
  rw [foldl_append,foldl_append,foldl_cons,foldl_cons,hdata.foldl_follow,hgoodbye.foldl_follow,ha.foldl_follow]
  rfl
 | removed _ _ hgoodbye hrest _ =>
  rw [foldl_append,foldl_cons,hgoodbye.foldl_follow,hrest.foldl_follow]
  rfl
 | expired _ _ hrest _ =>
  rw [foldl_cons,hrest.foldl_follow]
  rfl
 | quit hevent => exact absurd hevent hq

lemma Turn.emits_of_peerDisconnected {ns after : List PeerId}
    (h : Turn (.peerDisconnected peer) ns out after) {event : GossipProtocolTopicEvent}
    (hm : .emitEvent event ∈ out) : TopicOutEvent.Plain (.emitEvent event) ∨ event = .neighborDown peer := by
 cases h with
 | plain ho => exact .inl (ho _ hm)
 | refused _ _ hdata hgoodbye hrest _ =>
  rcases mem_append.mp hm with hf|hl
  · rcases mem_append.mp hf with hf|hl
    · exact .inl (hdata _ hf)
    · exact absurd hl hgoodbye.not_emits
  · exact .inl (hrest _ hl)
 | admitted hevent _ _ _ | replaced hevent _ _ _ _ _ _ | expired hevent _ _ _ | quit hevent => cases hevent
 | removed ha _ hgoodbye hrest _ =>
  rcases mem_append.mp hm with hf|hl
  · rcases mem_cons.mp hf with heq|hl
    · cases ha
      exact .inr (TopicOutEvent.emitEvent.inj heq)
    · exact absurd hl hgoodbye.not_emits
  · exact .inl (hrest _ hl)

end GossipTopicState

namespace GossipProtocolState
open GossipTopicState

lemma foldl_follow_mapTopicEvent (topicId other : TopicId) (event : TopicOutEvent) (s : GossipProtocolState)
    (ns : List PeerId) :
    (mapTopicEvent topicId event s).1.foldl (GossipProtocolOutEvent.follow other) ns =
      if topicId = other then event.follow ns else ns := by
 cases event with
 | emitEvent event => rfl
 | sendMessage peer msg | scheduleTimer delayMs timer | peerData peer peerData => exact (ite_self ns).symm
 | disconnectPeer peer =>
  rw [mapTopicEvent,bind_apply]
  split_ifs
  · rfl
  · rfl
  · rfl
  · rfl

lemma foldl_follow_mapTopicOut (topicId other : TopicId) (out : List TopicOutEvent) (s : GossipProtocolState)
    (ns : List PeerId) : (mapTopicOut topicId out s).1.foldl (GossipProtocolOutEvent.follow other) ns =
      if topicId = other then out.foldl TopicOutEvent.follow ns else ns := by
 induction out generalizing s ns with
 | nil => exact (ite_self ns).symm
 | cons event out ih =>
  rw [mapTopicOut,bind_apply,bind_apply,pure_apply,foldl_append,foldl_follow_mapTopicEvent,ih]
  split_ifs
  · rfl
  · rfl

variable {emitted : GossipProtocolTopicEvent}

lemma mapTopicEvent_emits {topicId other : TopicId} {event : TopicOutEvent}
    {s : GossipProtocolState} (h : .emitEvent other emitted ∈ (mapTopicEvent topicId event s).1) :
    event = .emitEvent emitted := by
 cases event with
 | emitEvent event =>
  have he : other = topicId ∧ emitted = event := by
   simpa [mapTopicEvent,pure_apply] using h
  rw [he.2]
 | sendMessage peer msg => simp [mapTopicEvent,bind_apply,pure_apply] at h
 | scheduleTimer delayMs timer | peerData peer peerData => simp [mapTopicEvent,pure_apply] at h
 | disconnectPeer peer =>
  rw [mapTopicEvent,bind_apply,pure_apply] at h
  split_ifs at h
  · simp at h
  · simp at h

lemma mapTopicOut_emits {topicId other : TopicId} {out : List TopicOutEvent}
    {s : GossipProtocolState} (h : .emitEvent other emitted ∈ (mapTopicOut topicId out s).1) :
    .emitEvent emitted ∈ out := by
 induction out generalizing s with
 | nil => exact absurd h not_mem_nil
 | cons event out ih =>
  rcases mem_append.mp h with hf|hrest
  · rw [mapTopicEvent_emits hf]
    exact mem_cons_self
  · exact mem_cons_of_mem _ (ih hrest)

section
variable (blake3 : Bytes → MessageId)
variable {s : GossipProtocolState} {topicId : TopicId} {event : TopicInEvent} {nowMs : ℕ}

variable {other : TopicId}

lemma activeView_handleTopic_follow (hs : s.WellFormed) (hq : event = .command .quit → topicId ≠ other) :
    (handleTopic blake3 topicId event nowMs s).2.activeView other =
      (handleTopic blake3 topicId event nowMs s).1.foldl (GossipProtocolOutEvent.follow other)
      (s.activeView other) := by
 cases h : get s.topics topicId with
 | none =>
  rw [handleTopic_of_none blake3 h]
  rfl
 | some topic =>
  rw [activeView_handleTopic blake3 h,handleTopic_of_some blake3 h,foldl_follow_mapTopicOut]
  split_ifs with heq
  · subst heq
    rw [activeView_of_get h]
    exact ((hs.turn blake3 h event nowMs).foldl_follow fun hevent=>hq hevent rfl).symm
  · rfl

lemma activeView_handleTopics_follow (hs : s.WellFormed) (ha : event.ToAll) (other : TopicId)
    (topicIds : List TopicId) : (handleTopics blake3 event nowMs topicIds s).2.activeView other =
      (handleTopics blake3 event nowMs topicIds s).1.foldl (GossipProtocolOutEvent.follow other)
        (s.activeView other) := by
 induction topicIds generalizing s with
 | nil => rfl
 | cons topicId topicIds ih =>
  have hq : event = .command .quit → topicId ≠ other := by
   rintro rfl
   exact ha.elim
  rw [handleTopics,bind_apply,bind_apply,pure_apply,foldl_append, ← activeView_handleTopic_follow blake3 hs hq]
  exact ih (wellFormed_handleTopic blake3 topicId event nowMs s hs)

lemma foldl_follow_removeTopicMemberships (topicId other : TopicId) (s : GossipProtocolState)
    (ns : List PeerId) :
    (removeTopicMemberships topicId s).1.foldl (GossipProtocolOutEvent.follow other) ns = ns := by
 change ((withoutTopic topicId s.peerTopics).2.map GossipProtocolOutEvent.disconnectPeer).foldl _ ns = ns
 induction (withoutTopic topicId s.peerTopics).2 with
 | nil => rfl
 | cons peer peers ih => exact ih

lemma foldl_follow_handleTopic_of_ne (hne : topicId ≠ other) (ns : List PeerId) :
    (handleTopic blake3 topicId event nowMs s).1.foldl (GossipProtocolOutEvent.follow other) ns = ns := by
 cases h : get s.topics topicId with
 | none =>
  rw [handleTopic_of_none blake3 h]
  rfl
 | some topic => rw [handleTopic_of_some blake3 h,foldl_follow_mapTopicOut,if_neg hne]

lemma foldl_follow_quit_of_ne (hne : topicId ≠ other) (neighbors : List PeerId) :
    (handle blake3 (.command topicId .quit) nowMs s).1.foldl (GossipProtocolOutEvent.follow other) neighbors =
      neighbors := by
 rw [handle,bind_apply,Stateful.modify_bind,bind_apply,pure_apply,foldl_append,
  foldl_follow_removeTopicMemberships,foldl_follow_handleTopic_of_ne blake3 hne]

/-- Every change of an active view is told, but for that of a topic that is left. -/
theorem activeView_handle_follow (hs : s.WellFormed) (event : GossipProtocolInEvent) (nowMs : ℕ)
    (hq : event ≠ .command other .quit) : (handle blake3 event nowMs s).2.activeView other =
      (handle blake3 event nowMs s).1.foldl (GossipProtocolOutEvent.follow other) (s.activeView other) := by
 cases event with
 | recvMessage peer topicId msg =>
  have hv : (s.tracked peer topicId).activeView other = s.activeView other := by
   rw [activeView,topics_tracked,activeView]
  rw [← hv]
  exact activeView_handleTopic_follow blake3 (hs.tracked peer topicId) fun hevent=>by cases hevent
 | command topicId command =>
  cases command with
  | join peers =>
   rw [← activeView_requireTopic topicId other s]
   exact activeView_handleTopic_follow blake3 (hs.requireTopic topicId) fun hevent=>by cases hevent
  | broadcast payload scope => exact activeView_handleTopic_follow blake3 hs fun hevent=>by cases hevent
  | quit =>
   have hne : topicId ≠ other := fun heq=>hq (heq ▸ rfl)
   rw [foldl_follow_quit_of_ne blake3 hne]
   change activeView { (handleTopic blake3 topicId (.command .quit) nowMs s).2 with
    topics := delete (handleTopic blake3 topicId (.command .quit) nowMs s).2.topics topicId } other = _
   rw [activeView,get_delete,if_neg hne,← activeView,
    activeView_handleTopic_follow blake3 hs fun _=>hne,foldl_follow_handleTopic_of_ne blake3 hne]
 | timerExpired topicId timer =>
  exact activeView_handleTopic_follow blake3 hs fun hevent=>by cases hevent
 | peerDisconnected peer =>
  have ha : (TopicInEvent.peerDisconnected peer).ToAll := trivial
  exact activeView_handleTopics_follow blake3 hs ha other (s.topics.map Prod.fst)
 | updatePeerData peerData =>
  have hw : ({ s with peerData := peerData } : GossipProtocolState).WellFormed := ⟨hs.apart,hs.peers⟩
  have ha : (TopicInEvent.updatePeerData peerData).ToAll := trivial
  exact activeView_handleTopics_follow blake3 hw ha other (s.topics.map Prod.fst)

lemma handleTopics_emits (hs : s.WellFormed) (topicIds : List TopicId)
    (h : .emitEvent other emitted ∈ (handleTopics blake3 (.peerDisconnected peer) nowMs topicIds s).1) :
    TopicOutEvent.Plain (.emitEvent emitted) ∨ emitted = .neighborDown peer := by
 induction topicIds generalizing s with
 | nil => exact absurd h not_mem_nil
 | cons topicId topicIds ih =>
  rw [handleTopics,bind_apply,bind_apply] at h
  rcases mem_append.mp h with hf|hrest
  · cases hg : get s.topics topicId with
    | none =>
     rw [handleTopic_of_none blake3 hg] at hf
     exact absurd hf not_mem_nil
    | some topic =>
     rw [handleTopic_of_some blake3 hg] at hf
     exact (hs.turn blake3 hg _ nowMs).emits_of_peerDisconnected (mapTopicOut_emits hf)
  · exact ih (wellFormed_handleTopic blake3 topicId _ nowMs s hs) hrest

lemma handle_peerDisconnected_emits (hs : s.WellFormed)
    (h : .emitEvent other emitted ∈ (handle blake3 (.peerDisconnected peer) nowMs s).1) :
    TopicOutEvent.Plain (.emitEvent emitted) ∨ emitted = .neighborDown peer :=
 handleTopics_emits blake3 hs (s.topics.map Prod.fst) h

end

end GossipProtocolState

end Enlace.Gossip
