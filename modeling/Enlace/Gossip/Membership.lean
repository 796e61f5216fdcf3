import Enlace.Gossip.Departure

set_option autoImplicit false

/-! The topics that are recorded for a peer, and the peers that are told to disconnect. -/
namespace Enlace.Gossip
open ByteString Stateful List OrderedMap Fallible OrderedSet

def TopicInEvent.ToAll : TopicInEvent → Prop
  | .peerDisconnected _ => True
  | .updatePeerData _ => True
  | _ => False

def Settled (out : List TopicOutEvent) : Prop :=
  out.Pairwise fun event next => ∀ peer message, event = .disconnectPeer peer → next ≠ .sendMessage peer message

variable {options : GossipProtocolStateOptions} {random : Stream' ℕ} {rest : List TopicOutEvent}

lemma Plain.settled_append {out : List TopicOutEvent} (h : Plain out) (hrest : Settled rest) :
    Settled (out ++ rest) := by
 induction out with
 | nil => exact hrest
 | cons event out ih =>
  obtain ⟨hevent,ho⟩:=plain_cons.mp h
  refine pairwise_cons.mpr ⟨fun next _ peer msg heq=>?_,ih ho⟩
  rw [heq] at hevent
  exact hevent.elim

variable {out : List TopicOutEvent}

lemma Plain.settled (h : Plain out) : Settled out := by
 rw [← append_nil out]
 exact h.settled_append .nil

lemma settled_emitEvent {event : GossipProtocolTopicEvent} (h : Settled out) : Settled (.emitEvent event :: out) :=
 pairwise_cons.mpr ⟨nofun,h⟩

lemma Plain.not_disconnects {peer : PeerId} (h : Plain out) : .disconnectPeer peer ∉ out :=
 fun hm=>h _ hm

namespace GossipTopicState

variable {peer : PeerId}

lemma settled_disconnectPeer (hsilent : Silent peer out) (h : Settled out) :
    Settled (.disconnectPeer peer :: out) := by
 refine pairwise_cons.mpr ⟨fun next hn other msg heq hs=>?_,h⟩
 cases heq
 exact hsilent msg (hs ▸ hn)

lemma Farewell.settled_append (h : Farewell peer out)
    (hsilent : Silent peer rest) (hrest : Settled rest) : Settled (out ++ rest) := by
 obtain ⟨msgs,rfl⟩:=h
 have hp : Plain (msgs.map (.sendMessage peer)) := by
  intro event hevent
  obtain ⟨msg,_,rfl⟩:=mem_map.mp hevent
  trivial
 rw [append_assoc]
 exact hp.settled_append (settled_disconnectPeer hsilent hrest)

lemma Farewell.disconnects {other : PeerId} (h : Farewell peer out)
    (hm : .disconnectPeer other ∈ out) : other = peer := by
 obtain ⟨msgs,rfl⟩:=h
 rcases mem_append.mp hm with hs|hl
 · obtain ⟨msg,_,heq⟩:=mem_map.mp hs
   cases heq
 · cases mem_singleton.mp hl
   rfl

variable {event : TopicInEvent} {neighbors after : List PeerId} {out : List TopicOutEvent}

section
variable (h : Turn event neighbors out after)
include h

lemma Turn.settled (hq : event ≠ .command .quit)
    (hb : ∀ peer respond, event = .recvMessage peer (.disconnect true respond) → peer ∈ neighbors → Silent peer out) :
    Settled out := by
 cases h with
 | plain ho => exact ho.settled
 | refused _ _ hdata hgoodbye hrest hsilent =>
  rw [append_assoc]
  exact hdata.settled_append (hgoodbye.settled_append hsilent hrest.settled)
 | admitted _ _ hdata ha => exact hdata.settled_append (settled_emitEvent ha.settled)
 | replaced _ _ _ hdata hgoodbye ha hsilent =>
  rw [append_assoc]
  refine hdata.settled_append (settled_emitEvent (hgoodbye.settled_append ?_ (settled_emitEvent ha.settled)))
  intro msg hm
  rcases mem_cons.mp hm with heq|hm
  · cases heq
  · exact hsilent msg hm
 | @removed peer goodbye rest _ hpeer hgoodbye hrest hsilent =>
  refine settled_emitEvent (hgoodbye.settled_append ?_ hrest.settled)
  rcases hsilent with hsilent|⟨respond,hevent⟩
  · exact hsilent
  · exact fun msg hm=>hb peer respond hevent hpeer msg
     (mem_cons_of_mem _ (mem_append_right _ hm))
 | expired _ _ hrest hsilent => exact settled_disconnectPeer hsilent hrest.settled
 | quit hevent => exact absurd hevent hq

lemma Turn.disconnects (hm : .disconnectPeer peer ∈ out)
    (ha : peer ∈ after) : event = .timerExpired (some (.pendingNeighbor peer)) := by
 cases h with
 | plain hou => exact absurd hm hou.not_disconnects
 | @refused other data goodbye rest _ ho hdata hgoodbye hrest _ =>
  have hg : .disconnectPeer peer ∈ goodbye := by
   simpa [hdata.not_disconnects,hrest.not_disconnects] using hm
  exact absurd ha (hgoodbye.disconnects hg ▸ ho)
 | admitted _ _ hdata han =>
  simp [hdata.not_disconnects,han.not_disconnects] at hm
 | @replaced other evicted msg data goodbye answer _ ho he hdata hgoodbye han _ =>
  have hg : .disconnectPeer peer ∈ goodbye := by
   simpa [hdata.not_disconnects,han.not_disconnects] using hm
  obtain rfl:=hgoodbye.disconnects hg
  rcases mem_add.mp ha with hold|heq
  · exact absurd rfl (mem_delete.mp hold).2
  · exact absurd (heq ▸ he) ho
 | @removed other goodbye rest _ _ hgoodbye hrest _ =>
  have hg : .disconnectPeer peer ∈ goodbye := by simpa [hrest.not_disconnects] using hm
  exact absurd (hgoodbye.disconnects hg) (mem_delete.mp ha).2
 | expired hevent _ hrest _ =>
  rcases mem_cons.mp hm with heq|hm
  · cases heq
    exact hevent
  · exact absurd hm hrest.not_disconnects
 | quit _ => exact absurd ha not_mem_nil

lemma Turn.neighbors_subset (ha : peer ∈ after) : peer ∈ neighbors ∨ ∃ msg, event = .recvMessage peer msg := by
 cases h with
 | plain _ | refused _ _ _ _ _ _ => exact .inl ha
 | @admitted other msg _ _ hevent _ _ _ =>
  rcases mem_add.mp ha with hold|rfl
  · exact .inl hold
  · exact .inr ⟨msg,hevent⟩
 | @replaced other _ msg _ _ _ hevent _ _ _ _ _ _ =>
  rcases mem_add.mp ha with hold|rfl
  · exact .inl (mem_delete.mp hold).1
  · exact .inr ⟨msg,hevent⟩
 | removed _ _ _ _ _ => exact .inl (mem_delete.mp ha).1
 | expired _ _ _ _ => exact .inl ha
 | quit _ => exact absurd ha not_mem_nil

lemma Turn.about_of_disconnects
    (hr : ∀ peer message, event ≠ .recvMessage peer message) (hq : event ≠ .command .quit)
    (hm : .disconnectPeer peer ∈ out) : event.about = some peer := by
 cases h with
 | plain ho => exact absurd hm ho.not_disconnects
 | @refused other data goodbye rest ha _ hdata hgoodbye hrest _ =>
  have hg : .disconnectPeer peer ∈ goodbye := by
   simpa [hdata.not_disconnects,hrest.not_disconnects] using hm
  rw [ha,hgoodbye.disconnects hg]
 | admitted hevent _ _ _ | replaced hevent _ _ _ _ _ _ => exact absurd hevent (hr _ _)
 | @removed other goodbye rest ha _ hgoodbye hrest _ =>
  have hg : .disconnectPeer peer ∈ goodbye := by simpa [hrest.not_disconnects] using hm
  rw [ha,hgoodbye.disconnects hg]
 | @expired other rest hevent _ hrest _ =>
  rcases mem_cons.mp hm with heq|hm
  · cases heq
    rw [hevent,TopicInEvent.about]
  · exact absurd hm hrest.not_disconnects
 | quit hevent => exact absurd hevent hq

end

lemma removeNeighbor_notMem (peer : PeerId) (s : GossipTopicState) : peer ∉ (removeNeighbor peer s).2.neighbors := by
 rw [removeNeighbor,bind_apply]
 by_cases h : peer ∈ s.neighbors
 · rw [if_pos (length_removeActive_ne h false false),bind_apply,pure_apply]
   rw [(refillActiveFromPassive_steady _).1,congrArg Mesh.neighbors (removeActive_toMesh h false false)]
   exact fun hm=>(mem_delete.mp hm).2 rfl
 · rw [removeActive_of_notMem h,if_neg (fun hl=>hl rfl),get_bind]
   split_ifs
   · exact h
   · exact h

section
variable (blake3 : Bytes → MessageId)

lemma handle_peerDisconnected_notMem (peer : PeerId) (nowMs : ℕ) (s : GossipTopicState) :
    peer ∉ (handle blake3 (.peerDisconnected peer) nowMs s).2.neighbors := by
 obtain ⟨_,_,_,scheduled,hs⟩:=handle_cases blake3 (.peerDisconnected peer) nowMs s
 rw [hs]
 exact removeNeighbor_notMem peer _

variable {s : GossipTopicState}

lemma handle_pendingNeighbor_of_notMem (h : peer ∉ s.pendingNeighborRequests) (nowMs : ℕ) (other : PeerId) :
    .disconnectPeer other ∉ (handle blake3 (.timerExpired (some (.pendingNeighbor peer))) nowMs s).1 := by
 obtain ⟨rest,hrest,ho,_⟩:=handle_cases blake3 (.timerExpired (some (.pendingNeighbor peer))) nowMs s
 have he : peer ∉ (s.expireCaches nowMs).pendingNeighborRequests := h
 have hn : (handleEvent blake3 (.timerExpired (some (.pendingNeighbor peer))) nowMs (s.expireCaches nowMs)).1 = [] :=
  congrArg Prod.fst (handlePendingNeighbor_of_notMem he)
 rw [ho,hn]
 rcases hrest with rfl|rfl
 · exact not_mem_nil
 · simp [scheduleShuffle]

lemma handle_pendingNeighbor_of_mem (h : peer ∈ s.pendingNeighborRequests) (nowMs : ℕ) :
    (handle blake3 (.timerExpired (some (.pendingNeighbor peer))) nowMs s).2.neighbors = s.neighbors ∧
    ∃ rest, (handle blake3 (.timerExpired (some (.pendingNeighbor peer))) nowMs s).1 = .disconnectPeer peer :: rest ∧
      Silent peer rest := by
 obtain ⟨rest,hrest,ho,scheduled,hs⟩ := handle_cases blake3 (.timerExpired (some (.pendingNeighbor peer))) nowMs s
 have he : peer ∈ (s.expireCaches nowMs).pendingNeighborRequests := h
 obtain ⟨t,hn,hp,heq⟩:=handlePendingNeighbor_of_mem he
 have hevent : handleEvent blake3 (.timerExpired (some (.pendingNeighbor peer))) nowMs (s.expireCaches nowMs) =
  (.disconnectPeer peer :: (refillActiveFromPassive t).1,(refillActiveFromPassive t).2) := heq
 rw [ho,hs,hevent]
 refine ⟨(congrArg Mesh.neighbors (refillActiveFromPassive_steady t).1).trans hn,_,cons_append,?_⟩
 exact (refillActiveFromPassive_silent hp).append (silent_of_shuffle hrest peer)

lemma handle_disconnect_of_mem (h : peer ∈ s.neighbors) (alive respond : Bool) (nowMs : ℕ) :
    ∃ rest, Plain rest ∧ (handle blake3 (.recvMessage peer (.disconnect alive respond)) nowMs s).1 =
      .emitEvent (.neighborDown peer) :: .disconnectPeer peer :: rest := by
 have hd : (TopicInEvent.recvMessage peer (.disconnect alive respond)).departs = some (peer,alive) := rfl
 obtain ⟨shuffle,hs,ho,_⟩:=handle_departs blake3 hd nowMs h
 have hp : Plain shuffle := by
  rcases hs with rfl|rfl
  · exact plain_nil
  · exact plain_scheduleTimer _ _
 exact ⟨_,(refillActiveFromPassive_steady _).2.append hp,ho⟩

end

end GossipTopicState

namespace GossipProtocolState
open GossipTopicState

def record (topicId : TopicId) (peer : PeerId) (topics : List TopicId) : TopicOutEvent → List TopicId
  | .sendMessage other _ => if other = peer then OrderedSet.add topics topicId else topics
  | .disconnectPeer other => if other = peer then OrderedSet.delete topics topicId else topics
  | _ => topics

section
variable {topicId : TopicId} {peer : PeerId} {out : List TopicOutEvent} {topics : List TopicId}

lemma mem_record_of_ne {other : TopicId} (hne : other ≠ topicId) (event : TopicOutEvent) :
    other ∈ record topicId peer topics event ↔ other ∈ topics := by
 unfold record
 split
 · split_ifs
   · simp [hne]
   · rfl
 · split_ifs
   · simp [hne]
   · rfl
 · rfl

lemma mem_foldl_record_of_ne {other : TopicId} (hne : other ≠ topicId) :
    other ∈ out.foldl (record topicId peer) topics ↔ other ∈ topics := by
 induction out generalizing topics with
 | nil => rfl
 | cons event out ih => rw [foldl_cons,ih,mem_record_of_ne hne]

lemma mem_foldl_record (hk : .disconnectPeer peer ∉ out) (h : topicId ∈ topics) :
    topicId ∈ out.foldl (record topicId peer) topics := by
 induction out generalizing topics with
 | nil => exact h
 | cons event out ih =>
  obtain ⟨hevent,ho⟩:=not_or.mp (mem_cons.not.mp hk)
  refine ih ho ?_
  cases event with
  | sendMessage other msg =>
   rw [record]
   split_ifs
   · exact mem_add.mpr (.inl h)
   · exact h
  | disconnectPeer other =>
   have hne : other ≠ peer := fun heq=>hevent (by rw [heq])
   rw [record,if_neg hne]
   exact h
  | emitEvent event | scheduleTimer delayMs timer | peerData other peerData => exact h

lemma notMem_foldl_record (hsilent : Silent peer out) (h : topicId ∉ topics) :
    topicId ∉ out.foldl (record topicId peer) topics := by
 induction out generalizing topics with
 | nil => exact h
 | cons event out ih =>
  refine ih (fun msg hm=>hsilent msg (mem_cons_of_mem _ hm)) ?_
  cases event with
  | sendMessage other msg =>
   have hne : other ≠ peer := fun heq=>hsilent msg (by rw [heq]; exact mem_cons_self)
   rw [record,if_neg hne]
   exact h
  | disconnectPeer other =>
   rw [record]
   split_ifs
   · exact fun hm=>h (mem_delete.mp hm).1
   · exact h
  | emitEvent event | scheduleTimer delayMs timer | peerData other peerData => exact h

lemma foldl_record_nil (hsilent : Silent peer out) : out.foldl (record topicId peer) [] = [] := by
 refine eq_nil_iff_forall_not_mem.mpr fun other ho=>?_
 by_cases h : other = topicId
 · subst h
   exact notMem_foldl_record hsilent not_mem_nil ho
 · exact absurd ((mem_foldl_record_of_ne h).mp ho) not_mem_nil

lemma mem_foldl_record_of_send {msg : GossipTopicMessage} (hm : .sendMessage peer msg ∈ out)
    (hk : .disconnectPeer peer ∉ out) : topicId ∈ out.foldl (record topicId peer) topics := by
 obtain ⟨before,rest,rfl⟩:=append_of_mem hm
 rw [foldl_append,foldl_cons]
 refine mem_foldl_record (fun h=>hk (mem_append_right _ (mem_cons_of_mem _ h))) ?_
 rw [record,if_pos rfl]
 exact mem_add.mpr (.inr rfl)

end

lemma topicsOf_trackPeerTopic (peer other : PeerId) (topicId : TopicId) (s : GossipProtocolState) :
    (s.trackPeerTopic other topicId).topicsOf peer =
      if other = peer then add (s.topicsOf peer) topicId else s.topicsOf peer := by
 unfold topicsOf trackPeerTopic
 rw [get_set]
 split_ifs with h
 · rw [h]
   rfl
 · rfl

lemma untrackPeerTopic_cases (peer : PeerId) (topicId : TopicId) (s : GossipProtocolState) :
    (untrackPeerTopic peer topicId s).2.topics = s.topics ∧
    (∀ other, (untrackPeerTopic peer topicId s).2.topicsOf other =
      if peer = other then delete (s.topicsOf other) topicId else s.topicsOf other) ∧
    ((untrackPeerTopic peer topicId s).1 = true ↔
      (get s.peerTopics peer).isSome ∧ delete (s.topicsOf peer) topicId = []) := by
 rw [untrackPeerTopic,get_bind]
 cases hg : get s.peerTopics peer with
 | none =>
  refine ⟨rfl,fun other=>?_,by simp [pure_apply]⟩
  change s.topicsOf other = _
  split_ifs with h
  · subst h
    simp [topicsOf,hg,OrderedSet.delete]
  · rfl
 | some topics =>
  dsimp only
  split_ifs with hrest
  · refine ⟨rfl,fun other=>?_,?_⟩
    · change (get (set s.peerTopics peer _) other).getD [] = _
      rw [get_set]
      split_ifs with h
      · subst h
        rw [topicsOf,hg]
        rfl
      · rfl
    · rw [topicsOf,hg]
      constructor
      · intro h
        cases h
      · exact fun h=>absurd (length_eq_zero_iff.mpr h.2) hrest
  · have hn:=length_eq_zero_iff.mp (not_not.mp hrest)
    refine ⟨rfl,fun other=>?_,?_⟩
    · change (get (delete s.peerTopics peer) other).getD [] = _
      rw [get_delete]
      split_ifs with h
      · subst h
        rw [topicsOf,hg]
        exact hn.symm
      · rfl
    · rw [topicsOf,hg]
      exact ⟨fun _=>⟨rfl,hn⟩,fun _=>rfl⟩

lemma topics_mapTopicEvent (topicId : TopicId) (event : TopicOutEvent) (s : GossipProtocolState) :
    (mapTopicEvent topicId event s).2.topics = s.topics := by
 cases event with
 | disconnectPeer peer => exact (untrackPeerTopic_cases peer topicId s).1
 | sendMessage peer msg => rfl
 | emitEvent event => rfl
 | scheduleTimer delayMs timer => rfl
 | peerData peer peerData => rfl

lemma topicsOf_mapTopicEvent (topicId : TopicId) (event : TopicOutEvent) (peer : PeerId) (s : GossipProtocolState) :
    (mapTopicEvent topicId event s).2.topicsOf peer = record topicId peer (s.topicsOf peer) event := by
 cases event with
 | disconnectPeer other => exact (untrackPeerTopic_cases other topicId s).2.1 peer
 | sendMessage other msg => exact topicsOf_trackPeerTopic peer other topicId s
 | emitEvent event => rfl
 | scheduleTimer delayMs timer => rfl
 | peerData other peerData => rfl

variable {s : GossipProtocolState} {topicId : TopicId}

lemma mapTopicEvent_disconnects {event : TopicOutEvent} {peer : PeerId} :
    .disconnectPeer peer ∈ (mapTopicEvent topicId event s).1 ↔
      event = .disconnectPeer peer ∧ (get s.peerTopics peer).isSome ∧ delete (s.topicsOf peer) topicId = [] := by
 cases event with
 | disconnectPeer other =>
  rw [mapTopicEvent,bind_apply,pure_apply]
  have hu:=(untrackPeerTopic_cases other topicId s).2.2
  split_ifs with hl
  · rw [mem_singleton]
    constructor
    · intro heq
      cases heq
      exact ⟨rfl,hu.mp hl⟩
    · rintro ⟨heq,_⟩
      cases heq
      rfl
  · constructor
    · exact fun h=>absurd h not_mem_nil
    · rintro ⟨heq,h⟩
      cases heq
      exact absurd (hu.mpr h) hl
 | sendMessage other msg => simp [mapTopicEvent,bind_apply,pure_apply]
 | emitEvent event | scheduleTimer delayMs timer | peerData other peerData => simp [mapTopicEvent,pure_apply]

lemma topics_mapTopicOut (topicId : TopicId) (out : List TopicOutEvent) : Keeps topics (mapTopicOut topicId out) := by
 induction out with
 | nil => exact .pure []
 | cons event out ih =>
  exact .bind (topics_mapTopicEvent topicId event) fun _=>.bind ih fun _=>.pure _

lemma topicsOf_mapTopicOut (topicId : TopicId) (out : List TopicOutEvent) (peer : PeerId) (s : GossipProtocolState) :
    (mapTopicOut topicId out s).2.topicsOf peer = out.foldl (record topicId peer) (s.topicsOf peer) := by
 induction out generalizing s with
 | nil => rfl
 | cons event out ih =>
  rw [mapTopicOut,bind_apply,bind_apply,pure_apply,foldl_cons,← topicsOf_mapTopicEvent]
  exact ih _

lemma mapTopicOut_disconnects {peer : PeerId} (h : .disconnectPeer peer ∈ (mapTopicOut topicId out s).1) :
    ∃ before rest, out = before ++ .disconnectPeer peer :: rest ∧
      (before ++ [.disconnectPeer peer]).foldl (record topicId peer) (s.topicsOf peer) = [] := by
 induction out generalizing s with
 | nil => exact absurd h not_mem_nil
 | cons event out ih =>
  rw [mapTopicOut,bind_apply,bind_apply,pure_apply] at h
  rcases mem_append.mp h with hh|ht
  · obtain ⟨rfl,_,hl⟩:=mapTopicEvent_disconnects.mp hh
    refine ⟨[],out,rfl,?_⟩
    rw [nil_append,foldl_cons,foldl_nil,record,if_pos rfl,hl]
  · obtain ⟨before,rest,rfl,hl⟩:=ih ht
    refine ⟨event :: before,rest,rfl,?_⟩
    rw [cons_append,foldl_cons,← topicsOf_mapTopicEvent,hl]

lemma mapTopicOut_settled (ho : Settled out) {peer : PeerId}
    (h : .disconnectPeer peer ∈ (mapTopicOut topicId out s).1) :
    (mapTopicOut topicId out s).2.topicsOf peer = [] := by
 obtain ⟨before,rest,rfl,hl⟩:=mapTopicOut_disconnects h
 have hsilent : Silent peer rest := by
  intro msg hm
  have hrest:=(pairwise_append.mp ho).2.1
  exact (pairwise_cons.mp hrest).1 _ hm peer msg rfl rfl
 rw [topicsOf_mapTopicOut,append_cons,foldl_append,hl]
 exact foldl_record_nil hsilent

def NodupPeers (s : GossipProtocolState) : Prop := (s.peerTopics.map Prod.fst).Nodup

lemma nodupPeers_untrackPeerTopic (peer : PeerId) (topicId : TopicId) :
    Preserves NodupPeers (untrackPeerTopic peer topicId) := by
 refine .get_bind fun s hs=>?_
 cases get s.peerTopics peer with
 | none => exact hs
 | some topics =>
  dsimp only
  split_ifs
  · exact nodup_keys_set hs _ _
  · exact nodup_keys_filter hs _

lemma nodupPeers_mapTopicEvent (topicId : TopicId) (event : TopicOutEvent) :
    Preserves NodupPeers (mapTopicEvent topicId event) := by
 cases event with
 | disconnectPeer peer => exact .bind (nodupPeers_untrackPeerTopic peer topicId) fun _=>.pure _
 | sendMessage peer msg =>
  exact .bind (.modify fun s hs=>nodup_keys_set hs _ _) fun _=>.pure _
 | emitEvent event | scheduleTimer delayMs timer | peerData peer peerData => exact .pure _

lemma nodupPeers_mapTopicOut (topicId : TopicId) (out : List TopicOutEvent) :
    Preserves NodupPeers (mapTopicOut topicId out) := by
 induction out with
 | nil => exact .pure []
 | cons event out ih => exact .bind (nodupPeers_mapTopicEvent topicId event) fun _=>.bind ih fun _=>.pure _

def Recorded (s : GossipProtocolState) : Prop := ∀ topicId peer, peer ∈ s.activeView topicId → topicId ∈ s.topicsOf peer

structure WellFormed (s : GossipProtocolState) : Prop where
  apart : ∀ topicId topic, OrderedMap.get s.topics topicId = some topic → topic.Apart
  peers : s.NodupPeers

lemma create_empty (h : create options random = .ok s) : s.topics = [] ∧ s.peerTopics = [] := by
 obtain ⟨_,_,h⟩:=bind_eq_ok.mp h
 obtain ⟨_,_,h⟩:=bind_eq_ok.mp h
 obtain ⟨_,_,h⟩:=bind_eq_ok.mp h
 cases h
 exact ⟨rfl,rfl⟩

lemma wellFormed_create (h : create options random = .ok s) : s.WellFormed := by
 obtain ⟨ht,hp⟩:=create_empty h
 refine ⟨fun topicId topic hg=>?_,?_⟩
 · rw [ht] at hg
   cases hg
 · rw [NodupPeers,hp]
   exact nodup_nil

section
variable (blake3 : Bytes → MessageId)

def handled (topic : GossipTopicState) (event : TopicInEvent) (nowMs : ℕ) (s : GossipProtocolState) :
    List TopicOutEvent × GossipTopicState :=
  GossipTopicState.handle blake3 event nowMs { topic with random := s.random }

variable {s : GossipProtocolState} {topicId : TopicId} {topic : GossipTopicState} {event : TopicInEvent} {nowMs : ℕ}

lemma handleTopic_of_none (h : get s.topics topicId = none) : handleTopic blake3 topicId event nowMs s = ([], s) := by
 rw [handleTopic,get_bind,h]
 rfl

section
variable (h : OrderedMap.get s.topics topicId = some topic)
include h

lemma handleTopic_of_some :
    handleTopic blake3 topicId event nowMs s = mapTopicOut topicId (handled blake3 topic event nowMs s).1 { s with
          random := (handled blake3 topic event nowMs s).2.random
          topics := set s.topics topicId (handled blake3 topic event nowMs s).2 } := by
 rw [handleTopic,get_bind,h]
 rfl

lemma activeView_of_get : s.activeView topicId = topic.neighbors := by
 rw [activeView,h]

lemma get_handleTopic (other : TopicId) : get (handleTopic blake3 topicId event nowMs s).2.topics other =
      if topicId = other then some (handled blake3 topic event nowMs s).2 else get s.topics other := by
 rw [handleTopic_of_some blake3 h,topics_mapTopicOut,get_set]

lemma activeView_handleTopic (other : TopicId) : (handleTopic blake3 topicId event nowMs s).2.activeView other =
      if topicId = other then (handled blake3 topic event nowMs s).2.neighbors else s.activeView other := by
 rw [activeView,get_handleTopic blake3 h]
 split_ifs
 · rfl
 · rfl

lemma topicsOf_handleTopic (peer : PeerId) : (handleTopic blake3 topicId event nowMs s).2.topicsOf peer =
      (handled blake3 topic event nowMs s).1.foldl (record topicId peer) (s.topicsOf peer) := by
 rw [handleTopic_of_some blake3 h,topicsOf_mapTopicOut]
 rfl

end

lemma WellFormed.turn (hs : s.WellFormed) (h : get s.topics topicId = some topic) (event : TopicInEvent) (nowMs : ℕ) :
    Turn event topic.neighbors (handled blake3 topic event nowMs s).1
      (handled blake3 topic event nowMs s).2.neighbors := by
 have ha : ({ topic with random := s.random } : GossipTopicState).Apart := hs.apart topicId topic h
 exact handle_turn blake3 ha event nowMs

lemma wellFormed_handleTopic (topicId : TopicId) (event : TopicInEvent) (nowMs : ℕ) :
    Preserves WellFormed (handleTopic blake3 topicId event nowMs) := by
 intro s hs
 cases h : get s.topics topicId with
 | none =>
  rw [handleTopic_of_none blake3 h]
  exact hs
 | some topic =>
  constructor
  · intro other after ha
    rw [get_handleTopic blake3 h] at ha
    split_ifs at ha
    · cases ha
      have hap : ({ topic with random := s.random } : GossipTopicState).Apart := hs.apart topicId topic h
      exact handle_apart blake3 event nowMs _ hap
    · exact hs.apart other after ha
  · rw [handleTopic_of_some blake3 h]
    exact nodupPeers_mapTopicOut topicId _ _ hs.peers

/-- No request for a neighbour expires that is one already. -/
def Unexpired (topic : GossipTopicState) (event : TopicInEvent) : Prop :=
  ∀ peer, event = .timerExpired (some (.pendingNeighbor peer)) → peer ∈ topic.neighbors →
    peer ∉ topic.pendingNeighborRequests

lemma recorded_handleTopic (hs : s.WellFormed) (hr : s.Recorded)
    (hse : ∀ peer msg, event = .recvMessage peer msg → topicId ∈ s.topicsOf peer)
    (hp : ∀ topic, get s.topics topicId = some topic → Unexpired topic event) :
    (handleTopic blake3 topicId event nowMs s).2.Recorded := by
 cases h : get s.topics topicId with
 | none =>
  rw [handleTopic_of_none blake3 h]
  exact hr
 | some topic =>
  intro other peer hm
  rw [activeView_handleTopic blake3 h] at hm
  rw [topicsOf_handleTopic blake3 h]
  split_ifs at hm with ho
  · subst ho
    have ht:=hs.turn blake3 h event nowMs
    have hbefore : topicId ∈ s.topicsOf peer := by
     rcases ht.neighbors_subset hm with hold|⟨msg,hevent⟩
     · rw [← activeView_of_get h] at hold
       exact hr topicId peer hold
     · exact hse peer msg hevent
    refine mem_foldl_record (fun hd=>?_) hbefore
    obtain rfl:=ht.disconnects hd hm
    rcases ht.neighbors_subset hm with hold|⟨msg,hevent⟩
    · exact handle_pendingNeighbor_of_notMem blake3 (s := { topic with random := s.random })
       (hp topic h peer rfl hold) nowMs peer hd
    · cases hevent
  · exact (mem_foldl_record_of_ne (Ne.symm ho)).mpr (hr other peer hm)

/-- A neighbour that disconnects alive is not asked to come back, unless it has other topics. -/
def LetGo (topicId : TopicId) (topic : GossipTopicState) (event : TopicInEvent) (s : GossipProtocolState) : Prop :=
  ∀ peer respond, event = .recvMessage peer (.disconnect true respond) → peer ∈ topic.neighbors →
    (∃ other ∈ s.topicsOf peer, other ≠ topicId) ∨ ¬ AsksBack peer true { topic with random := s.random }

variable {peer : PeerId}

lemma handleTopic_disconnects (hs : s.WellFormed) (hq : event ≠ .command .quit)
    (hb : ∀ topic, get s.topics topicId = some topic → LetGo topicId topic event s)
    (hm : .disconnectPeer peer ∈ (handleTopic blake3 topicId event nowMs s).1) :
    (handleTopic blake3 topicId event nowMs s).2.topicsOf peer = [] := by
 cases h : get s.topics topicId with
 | none =>
  rw [handleTopic_of_none blake3 h] at hm
  exact absurd hm not_mem_nil
 | some topic =>
  have ht:=hs.turn blake3 h event nowMs
  by_cases hal : ∀ peer respond, event = .recvMessage peer (.disconnect true respond) → peer ∈ topic.neighbors →
    Silent peer (handled blake3 topic event nowMs s).1
  · rw [handleTopic_of_some blake3 h] at hm ⊢
    exact mapTopicOut_settled (ht.settled hq hal) hm
  · push Not at hal
    obtain ⟨gone,respond,rfl,hg,ha⟩:=hal
    rcases hb topic h gone respond rfl hg with ⟨other,ho,hne⟩|hno
    · -- the other topic is still recorded when the peer is told to disconnect
      rw [handleTopic_of_some blake3 h] at hm
      obtain ⟨before,rest,hou,hl⟩:=mapTopicOut_disconnects hm
      obtain ⟨refill,hp,hsh⟩:=handle_disconnect_of_mem blake3 (s := { topic with random := s.random })
       hg true respond nowMs
      have hpeer : peer = gone := by
       have hin : .disconnectPeer peer ∈
         (handled blake3 topic (.recvMessage gone (.disconnect true respond)) nowMs s).1 := by
        rw [hou]
        exact mem_append_right _ mem_cons_self
       rw [handled,hsh] at hin
       simpa [hp.not_disconnects] using hin
      have hk : other ∈ [] := by
       rw [← hl,mem_foldl_record_of_ne hne,hpeer]
       exact ho
      exact absurd hk not_mem_nil
    · exact absurd ((silent_departs_iff blake3 (s := { topic with random := s.random }) rfl nowMs hg).mpr hno) ha

variable {other : TopicId}

lemma mem_topicsOf_of_ne (hne : other ≠ topicId) (peer : PeerId) :
    other ∈ (handleTopic blake3 topicId event nowMs s).2.topicsOf peer ↔ other ∈ s.topicsOf peer := by
 cases h : get s.topics topicId with
 | none => rw [handleTopic_of_none blake3 h]
 | some topic => rw [topicsOf_handleTopic blake3 h,mem_foldl_record_of_ne hne]

lemma activeView_handleTopic_subset (hs : s.WellFormed) (ha : event.ToAll)
    (hm : peer ∈ (handleTopic blake3 topicId event nowMs s).2.activeView other) : peer ∈ s.activeView other := by
 cases h : get s.topics topicId with
 | none => rwa [handleTopic_of_none blake3 h] at hm
 | some topic =>
  rw [activeView_handleTopic blake3 h] at hm
  split_ifs at hm with ho
  · subst ho
    rw [activeView_of_get h]
    rcases (hs.turn blake3 h event nowMs).neighbors_subset hm with hold|⟨msg,rfl⟩
    · exact hold
    · exact ha.elim
  · exact hm

lemma recorded_handleTopic_of_toAll (hs : s.WellFormed) (hr : s.Recorded) (ha : event.ToAll) :
    (handleTopic blake3 topicId event nowMs s).2.Recorded := by
 refine recorded_handleTopic blake3 hs hr (fun peer msg heq=>?_) fun _ _ peer heq=>?_
 · subst heq
   exact ha.elim
 · subst heq
   exact ha.elim

lemma handleTopic_about (hs : s.WellFormed) (ha : event.ToAll)
    (hm : .disconnectPeer peer ∈ (handleTopic blake3 topicId event nowMs s).1) : event.about = some peer := by
 cases h : get s.topics topicId with
 | none =>
  rw [handleTopic_of_none blake3 h] at hm
  exact absurd hm not_mem_nil
 | some topic =>
  rw [handleTopic_of_some blake3 h] at hm
  obtain ⟨before,rest,ho,_⟩:=mapTopicOut_disconnects hm
  refine (hs.turn blake3 h event nowMs).about_of_disconnects (fun _ _ heq=>?_) (fun heq=>?_) ?_
  · subst heq
    exact ha.elim
  · subst heq
    exact ha.elim
  · rw [ho]
    exact mem_append_right _ mem_cons_self

lemma handleTopics_keeps (hal : event.ToAll) (nowMs : ℕ) (topicIds : List TopicId)
    (hs : s.WellFormed) (hr : s.Recorded) : (handleTopics blake3 event nowMs topicIds s).2.WellFormed ∧
    (handleTopics blake3 event nowMs topicIds s).2.Recorded ∧
    (∀ topicId peer, peer ∈ (handleTopics blake3 event nowMs topicIds s).2.activeView topicId →
      peer ∈ s.activeView topicId) ∧
    ∀ peer, .disconnectPeer peer ∈ (handleTopics blake3 event nowMs topicIds s).1 → event.about = some peer := by
 induction topicIds generalizing s with
 | nil => exact ⟨hs,hr,fun _ _ h=>h,nofun⟩
 | cons topicId topicIds ih =>
  have hn:=wellFormed_handleTopic blake3 topicId event nowMs s hs
  obtain ⟨hw,hrest,hsu,ha⟩:=ih hn (recorded_handleTopic_of_toAll blake3 hs hr hal)
  refine ⟨hw,hrest,fun other peer h=>?_,fun peer h=>?_⟩
  · exact activeView_handleTopic_subset blake3 hs hal (hsu other peer h)
  · rcases mem_append.mp h with hh|ht
    · exact handleTopic_about blake3 hs hal hh
    · exact ha peer ht

lemma handleTopics_peerDisconnected (gone : PeerId) (topicIds : List TopicId)
    (hs : s.WellFormed) (hr : s.Recorded) (hm : topicId ∈ topicIds) :
    gone ∉ (handleTopics blake3 (.peerDisconnected gone) nowMs topicIds s).2.activeView topicId := by
 have ha : (TopicInEvent.peerDisconnected gone).ToAll := trivial
 induction topicIds generalizing s with
 | nil => exact absurd hm not_mem_nil
 | cons first topicIds ih =>
  have hn:=wellFormed_handleTopic blake3 first (.peerDisconnected gone) nowMs s hs
  have hk : (handleTopic blake3 first (.peerDisconnected gone) nowMs s).2.Recorded :=
   recorded_handleTopic_of_toAll blake3 hs hr ha
  rw [handleTopics,bind_apply,bind_apply,pure_apply]
  rcases mem_cons.mp hm with rfl|hrest
  · intro hv
    have hv:=(handleTopics_keeps blake3 ha nowMs topicIds hn hk).2.2.1 topicId gone hv
    cases h : get s.topics topicId with
    | none =>
     rw [handleTopic_of_none blake3 h,activeView,h] at hv
     exact absurd hv not_mem_nil
    | some topic =>
     rw [activeView_handleTopic blake3 h,if_pos rfl] at hv
     exact handle_peerDisconnected_notMem blake3 gone nowMs _ hv
  · exact ih hn hk hrest

lemma mem_keys_of_activeView (h : peer ∈ s.activeView topicId) : topicId ∈ s.topics.map Prod.fst := by
 by_contra hnot
 rw [activeView,get_eq_none_iff.mpr hnot] at h
 exact absurd h not_mem_nil

lemma topicsOf_delete (gone peer : PeerId) (s : GossipProtocolState) :
    ({ s with peerTopics := delete s.peerTopics gone } : GossipProtocolState).topicsOf peer =
      if gone = peer then [] else s.topicsOf peer := by
 rw [topicsOf,get_delete]
 split_ifs
 · rfl
 · rfl

lemma eq_of_handleTopic_disconnects (hm : .disconnectPeer peer ∈ (handleTopic blake3 topicId event nowMs s).1)
    (ho : other ∈ s.topicsOf peer) : other = topicId := by
 by_contra hne
 cases h : get s.topics topicId with
 | none =>
  rw [handleTopic_of_none blake3 h] at hm
  exact absurd hm not_mem_nil
 | some topic =>
  rw [handleTopic_of_some blake3 h] at hm
  obtain ⟨before,rest,_,hl⟩:=mapTopicOut_disconnects hm
  have hk : other ∈ [] := by
   rw [← hl,mem_foldl_record_of_ne hne]
   exact ho
  exact absurd hk not_mem_nil

lemma topicsOf_removeTopicMemberships (hs : s.NodupPeers) (peer : PeerId) :
    (removeTopicMemberships topicId s).2.topicsOf peer = delete (s.topicsOf peer) topicId := by
 have hk : ((s.peerTopics.map fun entry=>(entry.1,OrderedSet.delete entry.2 topicId)).map Prod.fst).Nodup := by
  rw [map_map]
  exact hs
 change (get ((s.peerTopics.map fun entry=>(entry.1,OrderedSet.delete entry.2 topicId)).filter
  fun entry=>entry.2.length ≠ 0) peer).getD [] = _
 rw [get_filter hk (fun topics=>topics.length ≠ 0), get_map fun topics=>OrderedSet.delete topics topicId,topicsOf]
 cases get s.peerTopics peer with
 | none => rfl
 | some topics =>
  by_cases hn : delete topics topicId = []
  · simp [Option.filter,hn]
  · simp [Option.filter,hn]

lemma removeTopicMemberships_disconnects (hs : s.NodupPeers)
    (hm : .disconnectPeer peer ∈ (removeTopicMemberships topicId s).1) : delete (s.topicsOf peer) topicId = [] := by
 obtain ⟨gone,hg,heq⟩:=mem_map.mp hm
 cases heq
 obtain ⟨entry,he,rfl⟩:=mem_map.mp hg
 obtain ⟨hrest,hl⟩:=mem_filter.mp he
 obtain ⟨old,hold,rfl⟩:=mem_map.mp hrest
 rw [topicsOf,get_of_mem hs hold]
 exact length_eq_zero_iff.mp (of_decide_eq_true hl)

lemma wellFormed_handleTopics (event : TopicInEvent) (nowMs : ℕ) (topicIds : List TopicId) :
    Preserves WellFormed (handleTopics blake3 event nowMs topicIds) := by
 induction topicIds with
 | nil => exact .pure []
 | cons topicId topicIds ih => exact .bind (wellFormed_handleTopic blake3 _ _ _) fun _=>.bind ih fun _=>.pure _

lemma WellFormed.requireTopic (hs : s.WellFormed) (topicId : TopicId) : (s.requireTopic topicId).WellFormed := by
 unfold GossipProtocolState.requireTopic
 cases get s.topics topicId with
 | some topic => exact hs
 | none =>
  refine ⟨fun other topic h=>?_,hs.peers⟩
  rw [get_set] at h
  split_ifs at h
  · cases h
    exact fun _ hm=>absurd hm not_mem_nil
  · exact hs.apart other topic h

lemma activeView_requireTopic (topicId other : TopicId) (s : GossipProtocolState) :
    (s.requireTopic topicId).activeView other = s.activeView other := by
 unfold requireTopic
 cases h : get s.topics topicId with
 | some topic => rfl
 | none =>
  unfold activeView
  rw [get_set]
  split_ifs with heq
  · subst heq
    rw [h]
    rfl
  · rfl

lemma topicsOf_requireTopic (topicId : TopicId) (peer : PeerId) (s : GossipProtocolState) :
    (s.requireTopic topicId).topicsOf peer = s.topicsOf peer := by
 unfold requireTopic
 cases get s.topics topicId with
 | some topic => rfl
 | none => rfl

def tracked (peer : PeerId) (topicId : TopicId) (s : GossipProtocolState) : GossipProtocolState :=
  if (OrderedMap.get s.topics topicId).isSome then s.trackPeerTopic peer topicId else s

lemma topics_tracked (peer : PeerId) (topicId : TopicId) (s : GossipProtocolState) :
    (s.tracked peer topicId).topics = s.topics := by
 unfold tracked
 split_ifs
 · rfl
 · rfl

lemma random_tracked (peer : PeerId) (topicId : TopicId) (s : GossipProtocolState) :
    (s.tracked peer topicId).random = s.random := by
 unfold tracked
 split_ifs
 · rfl
 · rfl

lemma WellFormed.tracked (hs : s.WellFormed) (peer : PeerId) (topicId : TopicId) :
    (s.tracked peer topicId).WellFormed := by
 unfold GossipProtocolState.tracked
 split_ifs
 · exact ⟨hs.apart,nodup_keys_set hs.peers _ _⟩
 · exact hs

lemma handle_recvMessage (peer : PeerId) (topicId : TopicId) (msg : GossipTopicMessage) (nowMs : ℕ)
    (s : GossipProtocolState) : handle blake3 (.recvMessage peer topicId msg) nowMs s =
      handleTopic blake3 topicId (.recvMessage peer msg) nowMs (s.tracked peer topicId) := rfl

lemma wellFormed_handle (event : GossipProtocolInEvent) (nowMs : ℕ) :
    Preserves WellFormed (handle blake3 event nowMs) := by
 cases event with
 | recvMessage peer topicId msg =>
  exact .bind (.modify fun s hs=>hs.tracked peer topicId) fun _=>wellFormed_handleTopic blake3 _ _ _
 | command topicId command =>
  cases command with
  | join peers =>
   exact .bind (.modify fun s hs=>hs.requireTopic topicId) fun _=>wellFormed_handleTopic blake3 _ _ _
  | broadcast payload scope => exact wellFormed_handleTopic blake3 _ _ _
  | quit =>
   refine .bind (wellFormed_handleTopic blake3 _ _ _) fun _=>.bind (.modify fun s hs=>?_) fun _=>
    .bind (fun s hs=>?_) fun _=>.pure _
   · refine ⟨fun other topic h=>?_,hs.peers⟩
     rw [get_delete] at h
     split_ifs at h
     exact hs.apart other topic h
   · refine ⟨hs.apart,nodup_keys_filter ?_ _⟩
     rw [map_map]
     exact hs.peers
 | timerExpired topicId timer => exact wellFormed_handleTopic blake3 _ _ _
 | peerDisconnected peer =>
  refine .bind (.get_bind fun s hs=>wellFormed_handleTopics blake3 _ _ _ s hs) fun _=>
   .bind (.modify fun s hs=>⟨hs.apart,nodup_keys_filter hs.peers _⟩) fun _=>.pure _
 | updatePeerData peerData =>
  exact .bind (.modify fun s hs=>⟨hs.apart,hs.peers⟩) fun _=>.get_bind fun s hs=>
   wellFormed_handleTopics blake3 _ _ _ s hs

end

end GossipProtocolState

end Enlace.Gossip
