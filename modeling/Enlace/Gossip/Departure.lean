import Enlace.Gossip.Views

set_option autoImplicit false

/-! A neighbour leaves a topic, and a passive peer is asked to fill the gap. -/
namespace Enlace.Gossip
open ByteString Stateful Transition List OrderedSet

/-- The peer that leaves with the event, and whether it stays a passive one. -/
def TopicInEvent.departs : TopicInEvent → Option (PeerId × Bool)
  | .peerDisconnected peer => some (peer, false)
  | .recvMessage peer (.disconnect alive _) => some (peer, alive)
  | _ => none

namespace GossipTopicState

/-- The peer that is asked to fill a gap of the active view. -/
def sought (s : GossipTopicState) : Option PeerId :=
  if s.neighbors.length + s.pendingNeighborRequests.length ≥ s.activeViewCapacity then none
  else (firstPassiveWithoutPending s).1

variable {s : GossipTopicState} {peer : PeerId}

lemma refill_of_sought_none (h : s.sought = none) :
    ∃ random, refillActiveFromPassive s = ([], { s with random := random }) := by
 rw [sought] at h
 rw [refillActiveFromPassive,get_bind]
 by_cases hf : s.neighbors.length+s.pendingNeighborRequests.length ≥ s.activeViewCapacity
 · rw [if_pos hf]
   exact ⟨s.random,rfl⟩
 · rw [if_neg hf] at h ⊢
   obtain ⟨random,hd⟩:=draws_firstPassiveWithoutPending s
   rw [bind_apply,h,hd]
   exact ⟨random,rfl⟩

lemma refill_of_sought (h : s.sought = some peer) :
    peer ∈ s.passivePeers ∧ (refillActiveFromPassive s).2.passivePeers = s.passivePeers ∧
      ∃ priority, (refillActiveFromPassive s).1 = [.sendMessage peer (.neighbor priority s.peerData),
        .scheduleTimer pendingNeighborTimeoutMs (.pendingNeighbor peer)] := by
 rw [sought] at h
 rw [refillActiveFromPassive,get_bind]
 by_cases hf : s.neighbors.length+s.pendingNeighborRequests.length ≥ s.activeViewCapacity
 · rw [if_pos hf] at h
   cases h
 · rw [if_neg hf] at h ⊢
   obtain ⟨random,hd⟩:=draws_firstPassiveWithoutPending s
   obtain ⟨hp,hpe⟩:=mem_filter.mp (randomArrayValue_mem h)
   rw [bind_apply,h,hd]
   dsimp only
   rw [bind_apply,sendNeighbor,get_bind,if_neg (of_decide_eq_true hpe)]
   exact ⟨hp,rfl,_,rfl⟩

section
variable (blake3 : Bytes → MessageId) {event : TopicInEvent} {keep : Bool}

lemma handleEvent_departs (hevent : event.departs = some (peer, keep)) (nowMs : ℕ) (h : peer ∈ s.neighbors) :
    handleEvent blake3 event nowMs s = (.emitEvent (.neighborDown peer) :: .disconnectPeer peer ::
        (refillActiveFromPassive (removeActive peer keep false s).2).1,
        (refillActiveFromPassive (removeActive peer keep false s).2).2) := by
 have hl:=length_removeActive_ne h keep false
 have ho : (removeActive peer keep false s).1 = [.emitEvent (.neighborDown peer),.disconnectPeer peer] := by
  rw [removeActive_of_mem h]
  rfl
 cases event with
 | command | updatePeerData | timerExpired => cases hevent
 | peerDisconnected other =>
  cases hevent
  rw [handleEvent,removeNeighbor,bind_apply,ho]
  rfl
 | recvMessage other msg =>
  cases msg with
  | disconnect alive respond =>
   cases hevent
   rw [handleEvent,handleMessage,handleDisconnectMessage,bind_apply,ho]
   rfl
  | join | forwardJoin | shuffle | shuffleReply | neighbor | gossip | prune | graft | ihave => cases hevent

lemma handleEvent_departs_of_notMem (hevent : event.departs = some (peer, keep)) (nowMs : ℕ) (h : peer ∉ s.neighbors) :
    (handleEvent blake3 event nowMs s).1 ⊆ [.disconnectPeer peer] := by
 cases event with
 | command | updatePeerData | timerExpired => cases hevent
 | peerDisconnected other =>
  cases hevent
  rw [handleEvent,removeNeighbor,bind_apply,removeActive_of_notMem h,if_neg (fun hl=>hl rfl),get_bind]
  split_ifs
  · exact nil_subset _
  · exact nil_subset _
 | recvMessage other msg =>
  cases msg with
  | disconnect alive respond =>
   cases hevent
   rw [handleEvent,handleMessage,handleDisconnectMessage,bind_apply,removeActive_of_notMem h]
   exact Subset.refl _
  | join | forwardJoin | shuffle | shuffleReply | neighbor | gossip | prune | graft | ihave => cases hevent

/-- The state in which a peer has left the active view and the gap is not filled yet. -/
def left (peer : PeerId) (keep : Bool) (nowMs : ℕ) (s : GossipTopicState) : GossipTopicState :=
  (removeActive peer keep false (s.expireCaches nowMs)).2

lemma handle_departs (hevent : event.departs = some (peer, keep)) (nowMs : ℕ) (h : peer ∈ s.neighbors) :
    ∃ rest, (rest = [] ∨ rest = [scheduleShuffle]) ∧
      (handle blake3 event nowMs s).1 = .emitEvent (.neighborDown peer) :: .disconnectPeer peer ::
        (refillActiveFromPassive (s.left peer keep nowMs)).1 ++ rest ∧
      ∃ scheduled, (handle blake3 event nowMs s).2 =
        { (refillActiveFromPassive (s.left peer keep nowMs)).2 with shuffleTimerScheduled := scheduled } := by
 obtain ⟨rest,hrest,ho,scheduled,hs⟩:=handle_cases blake3 event nowMs s
 have hm : peer ∈ (s.expireCaches nowMs).neighbors := h
 rw [handleEvent_departs blake3 hevent nowMs hm] at ho hs
 exact ⟨rest,hrest,ho,scheduled,hs⟩

/-- The passive peers and the numbers to come once a full passive view has made room for one more. -/
def makeRoom (s : GossipTopicState) : List PeerId × Stream' ℕ :=
  if s.passivePeers.length ≥ s.passiveViewCapacity then
    match s.passivePeers[s.random.head % s.passivePeers.length]? with
    | some evicted => (delete s.passivePeers evicted, s.random.tail)
    | none => (s.passivePeers, s.random)
  else (s.passivePeers, s.random)

/-- The peers that may be asked when the request to the one that leaves has been dropped. -/
def candidates (peer : PeerId) (peers : List PeerId) (s : GossipTopicState) : List PeerId :=
  peers.filter fun other => !has (delete s.pendingNeighborRequests peer) other

/-- There is room without the peer, and the next number falls on it. A peer that leaves alive becomes the last of the
candidates. -/
def AsksBack (peer : PeerId) (keep : Bool) (s : GossipTopicState) : Prop :=
  (delete s.neighbors peer).length + (delete s.pendingNeighborRequests peer).length < s.activeViewCapacity ∧
    if keep = true ∧ peer ≠ s.me ∧ has s.passivePeers peer = false then
      s.makeRoom.2.head % ((s.candidates peer s.makeRoom.1).length + 1) = (s.candidates peer s.makeRoom.1).length
    else (s.candidates peer s.passivePeers)[s.random.head % (s.candidates peer s.passivePeers).length]? = some peer

instance decidableAsksBack (peer : PeerId) (keep : Bool) (s : GossipTopicState) : Decidable (s.AsksBack peer keep) :=
  inferInstanceAs (Decidable (_ ∧ _))

lemma randomArrayValue_eq {α : Type} (values : List α) (s : GossipTopicState) :
    randomArrayValue values s = (values[s.random.head % values.length]?,
      if values.length = 0 then s else { s with random := s.random.tail }) := by
 rw [randomArrayValue]
 split_ifs with hn
 · rw [length_eq_zero_iff.mp hn]
   rfl
 · rfl

lemma evictPassive_makeRoom (s : GossipTopicState) :
    (evictPassive s).2 = { s with passivePeers := s.makeRoom.1, random := s.makeRoom.2 } := by
 rw [evictPassive,get_bind,makeRoom]
 split_ifs with hf
 · rw [bind_apply,randomArrayValue_eq]
   cases hd : s.passivePeers[s.random.head % s.passivePeers.length]? with
   | none =>
    have hn : s.passivePeers.length = 0 := by
     by_contra hne
     exact Nat.not_le.mpr (Nat.mod_lt _ (Nat.pos_of_ne_zero hne)) (getElem?_eq_none_iff.mp hd)
    rw [if_pos hn]
    rfl
   | some evicted =>
    have hne : s.passivePeers.length ≠ 0 := fun hn=>by
     rw [length_eq_zero_iff.mp hn] at hd
     cases hd
    rw [if_neg hne]
    rfl
 · rfl

lemma notMem_makeRoom (h : peer ∉ s.passivePeers) : peer ∉ s.makeRoom.1 := by
 rw [makeRoom]
 split_ifs
 · split
   · exact fun hm=>h (mem_delete.mp hm).1
   · exact h
 · exact h

lemma sought_eq_some_iff (s : GossipTopicState) (peer : PeerId) : s.sought = some peer ↔
    s.neighbors.length + s.pendingNeighborRequests.length < s.activeViewCapacity ∧
      (s.passivePeers.filter fun other => !has s.pendingNeighborRequests other)[s.random.head %
        (s.passivePeers.filter fun other => !has s.pendingNeighborRequests other).length]? = some peer := by
 have hh : (fun other=>decide (other ∉ s.pendingNeighborRequests)) = fun other=>!has s.pendingNeighborRequests other :=
  funext fun _=>decide_not
 rw [sought,firstPassiveWithoutPending,get_bind,randomArrayValue_eq,hh]
 by_cases hf : s.neighbors.length+s.pendingNeighborRequests.length ≥ s.activeViewCapacity
 · rw [if_pos hf]
   exact iff_of_false nofun fun h=>Nat.not_le.mpr h.1 hf
 · rw [if_neg hf,and_iff_right (Nat.not_le.mp hf)]

lemma addPeerData_eq (info : GossipPeerInfo) (s : GossipTopicState) :
    ∃ data, (addPeerData info s).2 = { s with peerDataByPeer := data } := by
 rw [addPeerData,get_bind]
 cases info.peerData with
 | none => exact ⟨s.peerDataByPeer,rfl⟩
 | some peerData =>
  dsimp only
  split_ifs
  · exact ⟨s.peerDataByPeer,rfl⟩
  · exact ⟨_,rfl⟩

/-- A peer that becomes passive comes after the others. -/
lemma keepAsPassive_enters (hme : peer ≠ s.me) (ha : peer ∉ s.neighbors) (hp : peer ∉ s.passivePeers) :
    ∃ data alive, (keepAsPassive peer true s).2 = { s with
      passivePeers := s.makeRoom.1 ++ [peer]
      random := s.makeRoom.2
      peerDataByPeer := data
      aliveDisconnectPeers := alive } := by
 obtain ⟨data,hdata⟩:=addPeerData_eq ⟨peer,s.peerDataByPeer peer⟩ s
 have hm : peer ∉ s.makeRoom.1 := notMem_makeRoom hp
 refine ⟨data,add s.aliveDisconnectPeers peer,?_⟩
 rw [keepAsPassive,if_pos rfl,get_bind,bind_apply,addPassive,bind_apply,hdata,get_bind,
  if_neg (by simp [hme,ha,hp]),bind_apply,evictPassive_makeRoom]
 have had : add s.makeRoom.1 peer = s.makeRoom.1 ++ [peer] := if_neg hm
 rw [← had]
 rfl

lemma keepAsPassive_stays (h : keep = false ∨ peer = s.me ∨ peer ∈ s.passivePeers) : ∃ data alive,
    (keepAsPassive peer keep s).2 = { s with peerDataByPeer := data, aliveDisconnectPeers := alive } := by
 cases keep with
 | false => exact ⟨s.peerDataByPeer,s.aliveDisconnectPeers,rfl⟩
 | true =>
  obtain ⟨data,hdata⟩:=addPeerData_eq ⟨peer,s.peerDataByPeer peer⟩ s
  refine ⟨data,add s.aliveDisconnectPeers peer,?_⟩
  rw [keepAsPassive,if_pos rfl,get_bind,bind_apply,addPassive,bind_apply,hdata,get_bind,
   if_pos (by rcases h with h|h|h <;> simp_all)]
  rfl

lemma getElem?_concat_iff {α : Type} {values : List α} {value : α} (h : value ∉ values) (i : ℕ) :
    (values ++ [value])[i]? = some value ↔ i = values.length := by
 rw [getElem?_append]
 split_ifs with hi
 · exact iff_of_false (fun hv=>h (mem_of_getElem? hv)) (Nat.ne_of_lt hi)
 · rw [getElem?_singleton]
   split_ifs with hz
   · exact iff_of_true rfl (by omega)
   · exact iff_of_false nofun (by omega)

lemma sought_left_iff (nowMs : ℕ) (h : peer ∈ s.neighbors) :
    (s.left peer keep nowMs).sought = some peer ↔ s.AsksBack peer keep := by
 have hl : s.left peer keep nowMs = (keepAsPassive peer keep ((s.expireCaches nowMs).forget peer)).2 := by
  rw [left,removeActive_of_mem (s := s.expireCaches nowMs) h]
  rfl
 have ha : peer ∉ ((s.expireCaches nowMs).forget peer).neighbors := fun hm=>(mem_delete.mp hm).2 rfl
 rw [sought_eq_some_iff,AsksBack,hl]
 split_ifs with hke
 · obtain ⟨rfl,hme,hp⟩:=hke
   rw [has,decide_eq_false_iff_not] at hp
   obtain ⟨data,alive,hk⟩:=keepAsPassive_enters (s := (s.expireCaches nowMs).forget peer) hme ha hp
   rw [hk]
   refine and_congr_right fun _=>?_
   have ho : peer ∉ s.candidates peer s.makeRoom.1 := fun hm=>notMem_makeRoom hp (mem_filter.mp hm).1
   let unasked : List PeerId :=
    (s.makeRoom.1 ++ [peer]).filter fun other=>!has (delete s.pendingNeighborRequests peer) other
   have hc : unasked = s.candidates peer s.makeRoom.1 ++ [peer] := by
    simp only [unasked]
    rw [filter_append,candidates]
    simp [has]
   change unasked[s.makeRoom.2.head % unasked.length]? = some peer ↔ _
   rw [hc,getElem?_concat_iff ho,length_append]
   rfl
 · have hs : keep = false ∨ peer = s.me ∨ peer ∈ s.passivePeers := by
    by_contra hnot
    simp only [not_or,Bool.not_eq_false] at hnot
    exact hke ⟨hnot.1,hnot.2.1,decide_eq_false hnot.2.2⟩
   obtain ⟨data,alive,hk⟩:=keepAsPassive_stays (s := (s.expireCaches nowMs).forget peer) hs
   rw [hk]
   exact Iff.rfl

lemma silent_departs_iff (hevent : event.departs = some (peer, keep)) (nowMs : ℕ) (h : peer ∈ s.neighbors) :
    Silent peer (handle blake3 event nowMs s).1 ↔ ¬ s.AsksBack peer keep := by
 obtain ⟨rest,hrest,hou,_⟩:=handle_departs blake3 hevent nowMs h
 have hr:=silent_of_shuffle hrest peer
 rw [hou,← sought_left_iff nowMs h]
 rw [show Silent peer _ ↔ Silent peer ((refillActiveFromPassive (s.left peer keep nowMs)).1 ++ rest) by
  simp [Silent]]
 cases hs : (s.left peer keep nowMs).sought with
 | none =>
  obtain ⟨random,he⟩:=refill_of_sought_none hs
  rw [he]
  exact iff_of_true hr nofun
 | some next =>
  obtain ⟨_,_,priority,he⟩:=refill_of_sought hs
  rw [he]
  constructor
  · rintro hq ⟨⟩
    exact hq _ mem_cons_self
  · intro hne msg hm
    rcases mem_append.mp hm with ha|hm
    · rcases mem_cons.mp ha with heq|ht
      · cases heq
        exact hne rfl
      · cases mem_singleton.mp ht
    · exact hr msg hm

/-- A peer that leaves is sent nothing, unless there is room and the number drawn falls on it. -/
theorem leaving_unasked_iff (hevent : event.departs = some (peer, keep)) (nowMs : ℕ) (s : GossipTopicState) :
    Silent peer (handle blake3 event nowMs s).1 ↔ (peer ∈ s.neighbors → ¬ s.AsksBack peer keep) := by
 by_cases h : peer ∈ s.neighbors
 · rw [silent_departs_iff blake3 hevent nowMs h]
   exact (imp_iff_right h).symm
 · obtain ⟨rest,hrest,hou,_⟩:=handle_cases blake3 event nowMs s
   have hg : peer ∉ (s.expireCaches nowMs).neighbors := h
   rw [hou]
   refine iff_of_true (Silent.append (fun message hm=>?_) (silent_of_shuffle hrest peer)) fun hin=>absurd hin h
   cases mem_singleton.mp (handleEvent_departs_of_notMem blake3 hevent nowMs hg hm)

/-- A passive peer could be asked without more neighbours than there is room for. -/
def Room (s : GossipTopicState) : Prop :=
  s.neighbors.length + (s.pendingNeighborRequests.filter fun peer => !has s.neighbors peer).length <
    s.activeViewCapacity ∧
    ∃ peer ∈ s.passivePeers, peer ∉ s.pendingNeighborRequests

instance instDecidablePredRoom : DecidablePred Room := fun _ => inferInstanceAs (Decidable (_ ∧ _))

/-- The gap of a peer that leaves is filled where there is room, unless requests to neighbours count too. -/
theorem refill_iff_counted (hevent : event.departs = some (peer, keep)) (nowMs : ℕ) (h : peer ∈ s.neighbors) :
    ((handle blake3 event nowMs s).2.Room → ∃ next ∈ (handle blake3 event nowMs s).2.passivePeers,
        ∃ priority peerData, .sendMessage next (.neighbor priority peerData) ∈ (handle blake3 event nowMs s).1) ↔
      ((s.left peer keep nowMs).Room → (s.left peer keep nowMs).neighbors.length +
        (s.left peer keep nowMs).pendingNeighborRequests.length < (s.left peer keep nowMs).activeViewCapacity) := by
 obtain ⟨rest,hrest,ho,scheduled,hst⟩:=handle_departs blake3 hevent nowMs h
 rw [ho,hst]
 generalize s.left peer keep nowMs = t
 cases hs : t.sought with
 | none =>
  obtain ⟨random,hr⟩:=refill_of_sought_none hs
  rw [hr]
  refine imp_congr_right fun hro=>iff_of_false ?_ fun hc=>?_
  · rintro ⟨next,_,_,_,hm⟩
    simp [silent_of_shuffle hrest next _] at hm
  · rw [sought,if_neg (Nat.not_le.mpr hc)] at hs
    obtain ⟨next,hp,hpe⟩:=hro.2
    have hm : next ∈ t.passivePeers.filter fun peer=>peer ∉ t.pendingNeighborRequests :=
     mem_filter.mpr ⟨hp,decide_eq_true hpe⟩
    obtain ⟨value,_,hv⟩:=randomArrayValue_of_ne_nil (ne_nil_of_mem hm) t
    rw [firstPassiveWithoutPending,get_bind,hv] at hs
    cases hs
 | some next =>
  obtain ⟨hp,hk,priority,hr⟩:=refill_of_sought hs
  refine iff_of_true (fun _=>⟨next,?_,priority,t.peerData,?_⟩) fun _=>?_
  · rw [← hk] at hp
    exact hp
  · rw [hr]
    exact mem_append_left _ (mem_cons_of_mem _ (mem_cons_of_mem _ mem_cons_self))
  · by_contra hfull
    rw [sought,if_pos (Nat.not_lt.mp hfull)] at hs
    cases hs

end

def oneJoined : GossipTopicState :=
  (handle (fun _ => idOf 0) (.recvMessage (idOf 2) (.join none)) 0
    (create (idOf 1) 2 4096 2 (fun _ => 0) none)).2

/-- A peer that disconnects alive is asked to come back in the same step. -/
theorem alive_leaver_is_asked : ¬Silent (idOf 2)
      (handle (fun _ => idOf 0) (.recvMessage (idOf 2) (.disconnect true false)) 1 oneJoined).1 := by
 intro hq
 refine hq (.neighbor .high none) ?_
 decide +kernel

/-- The replies to two joins are still outstanding requests when one of the two peers is lost. -/
def twoJoined : List (TopicInEvent × ℕ) :=
  [(.recvMessage (idOf 2) (.join none), 0), (.recvMessage (idOf 3) (.join none), 1),
    (.recvMessage (idOf 2) (.shuffleReply [⟨idOf 4, none⟩]), 2)]

theorem gap_is_left_open : ∃ s, Runs (step fun _ => idOf 0) (create (idOf 1) 2 4096 2 (fun _ => 0) none) twoJoined s ∧
      idOf 3 ∈ s.neighbors ∧
      (handle (fun _ => idOf 0) (.peerDisconnected (idOf 3)) 3 s).2.Room ∧
      ∀ next message, .sendMessage next message ∉ (handle (fun _ => idOf 0) (.peerDisconnected (idOf 3)) 3 s).1 := by
 obtain ⟨s,hru,hm,hr,ho⟩ : ∃ s, Runs (step fun _=>idOf 0)
   (create (idOf 1) 2 4096 2 (fun _=>0) none) twoJoined s ∧ idOf 3 ∈ s.neighbors ∧
   (handle (fun _=>idOf 0) (.peerDisconnected (idOf 3)) 3 s).2.Room ∧
   (handle (fun _=>idOf 0) (.peerDisconnected (idOf 3)) 3 s).1 =
    [.emitEvent (.neighborDown (idOf 3)),.disconnectPeer (idOf 3)] := by
  decide +kernel
 refine ⟨s,hru,hm,hr,fun next message hs=>?_⟩
 rw [ho] at hs
 simp at hs

def oneJoinedTwoKnown : GossipTopicState :=
  (handle (fun _ => idOf 0)
    (.recvMessage (idOf 2) (.shuffleReply [⟨idOf 4, none⟩, ⟨idOf 5, none⟩])) 1 oneJoined).2

/-- A peer that disconnects alive is not asked where the number falls on another passive one, here after an eviction. -/
theorem alive_leaver_is_unasked : idOf 2 ∈ oneJoinedTwoKnown.neighbors ∧
    idOf 2 ∈ (handle (fun _ => idOf 0) (.recvMessage (idOf 2) (.disconnect true false)) 2
      oneJoinedTwoKnown).2.passivePeers ∧
    Silent (idOf 2) (handle (fun _ => idOf 0) (.recvMessage (idOf 2) (.disconnect true false)) 2
      oneJoinedTwoKnown).1 := by
 refine ⟨by decide +kernel,by decide +kernel,(leaving_unasked_iff _ rfl 2 oneJoinedTwoKnown).mpr ?_⟩
 decide +kernel

theorem gap_is_filled : (handle (fun _ => idOf 0) (.peerDisconnected (idOf 2)) 2 oneJoinedTwoKnown).2.Room ∧
      ∃ next ∈ (handle (fun _ => idOf 0) (.peerDisconnected (idOf 2)) 2 oneJoinedTwoKnown).2.passivePeers,
        ∃ priority peerData, .sendMessage next (.neighbor priority peerData) ∈
          (handle (fun _ => idOf 0) (.peerDisconnected (idOf 2)) 2 oneJoinedTwoKnown).1 := by
 have hr : (handle (fun _=>idOf 0) (.peerDisconnected (idOf 2)) 2 oneJoinedTwoKnown).2.Room := by
  decide +kernel
 have hm : idOf 2 ∈ oneJoinedTwoKnown.neighbors := by decide +kernel
 refine ⟨hr,(refill_iff_counted _ rfl 2 hm).mpr ?_ hr⟩
 decide +kernel

end GossipTopicState

end Enlace.Gossip
