import Enlace.Gossip.Connections
import Enlace.Gossip.Disconnect
import Enlace.Gossip.Registry

set_option autoImplicit false

/-! What happens to a `GossipActor` after `close`. -/
namespace Enlace.Gossip
open ByteString Stateful Transition List OrderedMap PeerTable List.Subset GossipProtocolState GossipActor
open ProtocolHistory

variable {m : PeersM (Option PeerId)} {other topicId : TopicId}

namespace GossipProtocolState

section
variable (blake3 : Bytes → MessageId) {s : GossipProtocolState} {nowMs : ℕ}

def Has (s : GossipProtocolState) (topicId : TopicId) : Prop := OrderedMap.get s.topics topicId ≠ none

variable {event : TopicInEvent}

lemma has_handleTopic : (handleTopic blake3 topicId event nowMs s).2.Has other ↔ s.Has other := by
 cases hg : get s.topics topicId with
 | none => rw [handleTopic_of_none blake3 hg]
 | some topic =>
  rw [Has,get_handleTopic blake3 hg,Has]
  split_ifs with heq
  · rw [← heq,hg]
    simp
  · rfl

lemma has_handleTopics (topicIds : List TopicId) (s : GossipProtocolState) :
    (handleTopics blake3 event nowMs topicIds s).2.Has other ↔ s.Has other := by
 induction topicIds generalizing s with
 | nil => rfl
 | cons topicId topicIds ih =>
  rw [handleTopics,bind_apply,bind_apply,pure_apply,ih,has_handleTopic]

lemma has_handle {event : GossipProtocolInEvent} (h : (handle blake3 event nowMs s).2.Has other) :
    (s.Has other ∨ ∃ peers, event = .command other (.join peers)) ∧ event ≠ .command other .quit := by
 cases event with
 | recvMessage peer topicId msg =>
  rw [handle_recvMessage,has_handleTopic,Has,topics_tracked] at h
  exact ⟨.inl h,by simp⟩
 | command topicId command =>
  cases command with
  | join peers =>
   have hr : (s.requireTopic topicId).Has other := (has_handleTopic blake3).mp h
   refine ⟨?_,by simp⟩
   by_cases heq : topicId = other
   · exact .inr ⟨peers,by rw [heq]⟩
   · refine .inl ?_
     rw [Has,requireTopic] at hr
     split at hr
     · exact hr
     · rw [get_set,if_neg heq] at hr
       exact hr
  | broadcast payload scope => exact ⟨.inl ((has_handleTopic blake3).mp h),by simp⟩
  | quit =>
   change get (delete _ topicId) other ≠ none at h
   rw [get_delete] at h
   split_ifs at h with heq
   · exact absurd rfl h
   · exact ⟨.inl ((has_handleTopic blake3).mp h),by simpa using heq⟩
 | timerExpired topicId timer => exact ⟨.inl ((has_handleTopic blake3).mp h),by simp⟩
 | peerDisconnected peer => exact ⟨.inl ((has_handleTopics blake3 _ s).mp h),by simp⟩
 | updatePeerData peerData => exact ⟨.inl ((has_handleTopics blake3 _ { s with peerData := peerData }).mp h),by simp⟩

lemma handleTopics_of_none (h : ∀ topicId, ¬ s.Has topicId) (topicIds : List TopicId) :
    handleTopics blake3 event nowMs topicIds s = ([], s) := by
 induction topicIds with
 | nil => rfl
 | cons topicId topicIds ih =>
  rw [handleTopics,bind_apply,bind_apply,handleTopic_of_none blake3 (not_not.mp (h topicId)),ih]
  rfl

lemma handle_peerDisconnected_of_none (h : ∀ topicId, ¬ s.Has topicId) (peer : PeerId) :
    (handle blake3 (.peerDisconnected peer) nowMs s).1 = [] := by
 have ha : handleAllTopics blake3 (.peerDisconnected peer) nowMs s = ([],s) := handleTopics_of_none blake3 h _
 rw [handle,bind_apply,ha]
 rfl

lemma handle_recvMessage_of_none (h : ∀ topicId, ¬ s.Has topicId) (peer : PeerId) (topicId : TopicId)
    (msg : GossipTopicMessage) : (handle blake3 (.recvMessage peer topicId msg) nowMs s).1 = [] := by
 have hg : get (s.tracked peer topicId).topics topicId = none := by
  rw [topics_tracked]
  exact not_not.mp (h topicId)
 rw [handle_recvMessage,handleTopic_of_none blake3 hg]

end

end GossipProtocolState

lemma PeerTable.Secured.rememberAddresses {t : PeerTable} (h : t.Secured) (addrs : List IrohEndpointAddress) :
    (addrs.foldl (fun t address => rememberAddress address.endpointId address.relayUrl t) t).Secured := by
 induction addrs generalizing t with
 | nil => exact h
 | cons address addrs ih => exact ih ⟨h.allocated,h.kept⟩

namespace GossipActor

/-- Every topic has a subscription, and no connection is lost. -/
structure Orderly (a : GossipActor) : Prop where
  registered : a.Registered
  topics : ∀ topicId, a.state.Has topicId → a.subscribers topicId ≠ []
  secured : a.toPeerTable.Secured

variable {event : GossipActorEvent}

section
variable (blake3 : Bytes → MessageId) {a b : GossipActor} {nowMs : ℕ}

lemma toPeerTable_onPeers (m : PeersM (Option PeerId)) (a : GossipActor) :
    (a.onPeers blake3 m nowMs).toPeerTable = (m a.toPeerTable).2 := by
 unfold onPeers
 split
 · rfl
 · rfl

lemma toPeerTable_closeSubscription (n : ℕ) (a : GossipActor) :
    (a.closeSubscription blake3 n nowMs).toPeerTable = a.toPeerTable := by
 unfold closeSubscription
 split_ifs
 · rfl
 · dsimp only
   split
   · rfl
   · split_ifs
     · rfl
     · rfl

/-- What a task can do to the table of the peers. -/
lemma table_perform (decodeRelayUrl : Bytes → Option String) {I : PeerTable → Prop} {fail : Option ℕ}
    (h : I a.toPeerTable)
    (hs : ∀ peer event, I (sendMessage fail peer event a.toPeerTable).2)
    (hd : ∀ peer, I (disconnectPeer peer a.toPeerTable).2) (hr : ∀ peer, I (requirePeer peer a.toPeerTable).2)
    (ha : ∀ peer relayUrl, I (rememberAddress peer relayUrl a.toPeerTable)) (task : Task) :
    I (a.perform blake3 decodeRelayUrl fail task nowMs).toPeerTable := by
 match task with
 | .closeSubscription n =>
  rw [perform,toPeerTable_closeSubscription]
  exact h
 | .peerReady peer => exact hr peer
 | .out (.sendMessage peer topicId msg) =>
  rw [perform,processOut,toPeerTable_onPeers]
  exact hs peer _
 | .out (.emitEvent topicId (.neighborUp peer)) | .out (.emitEvent topicId (.neighborDown peer))
 | .out (.emitEvent topicId (.received src id payload scope)) | .out (.scheduleTimer _ _ _) => exact h
 | .out (.disconnectPeer peer) => exact hd peer
 | .out (.peerData peer peerData) =>
  change I (a.updatePeerData decodeRelayUrl peer peerData).toPeerTable
  unfold updatePeerData
  split
  · exact h
  · exact ha peer _

namespace Orderly

lemma of_eq (h : a.Orderly) (hr : b.Registered) (hs : b.subscriptions = a.subscriptions)
    (hst : ∀ topicId, b.state.Has topicId → a.state.Has topicId) (hse : b.toPeerTable.Secured) : b.Orderly where
 registered := hr
 topics topicId hhas := by
  rw [subscribers,hs]
  exact h.topics topicId (hst topicId hhas)
 secured := hse

lemma handle (h : a.Orderly) (event : GossipProtocolInEvent)
    (hj : ∀ topicId peers, event = .command topicId (.join peers) → a.subscribers topicId ≠ []) :
    (a.handle blake3 event nowMs).Orderly where
 registered := h.registered.of_eq rfl
 topics topicId hh := by
  rcases (has_handle blake3 hh).1 with hold|⟨peers,rfl⟩
  · exact h.topics topicId hold
  · exact hj topicId peers rfl
 secured := h.secured

lemma onPeers (h : a.Orderly) (hm : (m a.toPeerTable).2.Secured) : (a.onPeers blake3 m nowMs).Orderly := by
 have hp : ({ a with toPeerTable := (m a.toPeerTable).2 } : GossipActor).Orderly :=
  ⟨h.registered.of_eq rfl,h.topics,hm⟩
 unfold GossipActor.onPeers
 split
 · exact hp
 · exact hp.handle blake3 _ fun _ _ heq=>by cases heq

lemma closeSubscription (h : a.Orderly) (n : ℕ) : (a.closeSubscription blake3 n nowMs).Orderly := by
 have hr : (a.closeSubscription blake3 n nowMs).Registered := h.registered.closeSubscription blake3 n
 rcases @closeSubscription_cases a nowMs blake3 h.registered n with
  ⟨heq,_⟩ | ⟨subs,hme,⟨heq,hrest⟩ | ⟨_,heq⟩⟩
 · rw [heq]
   exact h
 · rw [heq] at hr ⊢
   exact ⟨hr,fun topicId hh=>hrest topicId (h.topics topicId hh),h.secured⟩
 · rw [heq] at hr ⊢
   refine ⟨hr,fun topicId hh=>?_,h.secured⟩
   obtain ⟨hc,hq⟩:=has_handle blake3 hh
   rcases hc with hold|⟨peers,hevent⟩
   · obtain ⟨m,hm⟩:=exists_mem_of_ne_nil _ (h.topics topicId hold)
     have hne : topicId ≠ (a.handles n).topicId := by
      rintro rfl
      exact hq rfl
     exact ne_nil_of_mem ((hme topicId m).mpr ⟨hm,h.registered.ne_of_mem hne hm⟩)
   · cases hevent

lemma perform (decodeRelayUrl : Bytes → Option String) (h : a.Orderly) (fail : Option ℕ) (task : Task) :
    (a.perform blake3 decodeRelayUrl fail task nowMs).Orderly := by
 have hr : (a.perform blake3 decodeRelayUrl fail task nowMs).Registered :=
  h.registered.perform blake3 decodeRelayUrl fail task
 match task with
 | .closeSubscription n => exact h.closeSubscription blake3 n
 | .peerReady peer => exact ⟨hr,h.topics,(Covers.of_any (.requirePeer peer _)).secured h.secured⟩
 | .out (.sendMessage peer topicId msg) =>
  exact h.onPeers blake3 ((Covers.of_any (.sendMessage fail trivial _ _)).secured h.secured)
 | .out (.emitEvent topicId (.neighborUp peer)) | .out (.emitEvent topicId (.neighborDown peer))
 | .out (.emitEvent topicId (.received src id payload scope)) => exact ⟨hr,h.topics,h.secured⟩
 | .out (.disconnectPeer peer) => exact ⟨hr,h.topics,secured_disconnectPeer peer _ h.secured⟩
 | .out (.scheduleTimer _ _ _) => exact h
 | .out (.peerData peer peerData) =>
  change (a.updatePeerData decodeRelayUrl peer peerData).Orderly
  unfold updatePeerData
  split
  · exact h
  · exact ⟨h.registered.of_eq rfl,h.topics,h.secured.allocated,h.secured.kept⟩

section
variable (h : a.Orderly)
include h

lemma rememberAddresses (addrs : List IrohEndpointAddress) : (a.rememberAddresses addrs).Orderly :=
 ⟨h.registered.of_eq rfl,h.topics,h.secured.rememberAddresses addrs⟩

lemma joinPeers (hs : a.subscribers topicId ≠ [])
    (peers : List IrohEndpointAddress) : (a.joinPeers blake3 topicId peers nowMs).Orderly := by
 have hj : ((a.rememberAddresses peers).handle blake3
   (.command topicId (.join (peers.map (·.endpointId)))) nowMs).Orderly := by
  refine (h.rememberAddresses peers).handle blake3 _ fun _ _ heq=>?_
  cases heq
  exact hs
 exact ⟨hj.registered.of_eq rfl,hj.topics,hj.secured⟩

lemma addSubscriber (topicId : TopicId) : (a.addSubscriber topicId).Orderly where
 registered := h.registered.addSubscriber topicId
 topics other hh := by
  obtain ⟨n,hn⟩:=exists_mem_of_ne_nil _ (h.topics other hh)
  exact ne_nil_of_mem ((mem_subscribers_addSubscriber topicId other n a).mpr (.inl hn))
 secured := h.secured

lemma subscribers_ne_nil {n : ℕ} (hopen : a.IsOpen n) : a.subscribers (a.handles n).topicId ≠ [] :=
 ne_nil_of_mem (h.registered.listed n hopen)

lemma close : a.close.Orderly := by
 have hr:=h.registered.close
 unfold GossipActor.close at hr ⊢
 split_ifs at hr ⊢
 · exact h
 · exact ⟨hr,h.topics,h.secured.closePeers.secured⟩

lemma react (hs : a.react blake3 event nowMs = some b) : b.Orderly := by
 have hr:=h.registered.react blake3 hs
 cases event with
 | work fail => cases hs
 | subscribe topicId bootstrap =>
  cases hs
  have hn:=(mem_subscribers_addSubscriber topicId topicId a.nextHandle a).mpr (.inr ⟨rfl,rfl⟩)
  exact (h.addSubscriber topicId).joinPeers blake3 (ne_nil_of_mem hn) bootstrap
 | closeSubscription n =>
  obtain ⟨_,rfl⟩:=of_guard hs
  exact h.closeSubscription blake3 n
 | joined n | awaitPeer n peer =>
  obtain ⟨_,rfl⟩:=of_guard hs
  exact ⟨hr,h.topics,h.secured⟩
 | joinPeer n peer =>
  obtain ⟨hopen,rfl⟩:=of_guard hs
  have hw : (a.onHandle n (·.awaitPeer peer.endpointId)).Orderly :=
   ⟨h.registered.of_core (core_onHandle (IrohGossipSubscription.core_awaitPeer _) n a),h.topics,h.secured⟩
  exact hw.joinPeers blake3 (h.subscribers_ne_nil hopen) [peer]
 | joinPeers n peers =>
  obtain ⟨hopen,rfl⟩:=of_guard hs
  exact h.joinPeers blake3 (h.subscribers_ne_nil hopen) peers
 | broadcast n payload scope | timerExpired topicId timer | message id conn topicId msg =>
  obtain ⟨_,rfl⟩:=of_guard hs
  exact h.handle blake3 _ fun _ _ heq=>by cases heq
 | accepted peer conn fail =>
  obtain ⟨_,rfl⟩:=of_guard hs
  have ha : (a.onPeers blake3 (accepted a.closed fail peer conn) nowMs).Orderly :=
   h.onPeers blake3 (secured_accepted a.closed fail peer conn _ h.secured)
  exact ⟨hr,ha.topics,ha.secured⟩
 | acceptRejected =>
  obtain ⟨_,rfl⟩:=of_guard hs
  refine h.of_eq hr ?_ ?_ ?_
  · split_ifs
    · rfl
    · rfl
  · split_ifs
    · exact fun _ hh=>hh
    · exact fun _ hh=>hh
  · split_ifs
    · exact h.secured
    · exact h.secured
 | dialed id number conn fail =>
  obtain ⟨_,rfl⟩:=of_guard hs
  exact h.onPeers blake3 (secured_dialed a.closed fail id number conn _ h.secured)
 | dialFailed id number =>
  obtain ⟨_,rfl⟩:=of_guard hs
  exact h.onPeers blake3 ((Covers.of_any (.dialFailed id number _)).secured h.secured)
 | readFailed id conn =>
  obtain ⟨_,rfl⟩:=of_guard hs
  exact h.onPeers blake3 ((Covers.of_any (.peerDisconnected id conn _)).secured h.secured)
 | close =>
  cases hs
  exact h.close

lemma step {decodeRelayUrl : Bytes → Option String} {event : GossipActorEvent × ℕ}
    (hs : a.step blake3 decodeRelayUrl event = some b) : b.Orderly := by
 rcases step_cases hs with ⟨_,hr⟩|⟨task,todo,fail,_,_,rfl⟩
 · exact h.react blake3 hr
 · have hrest : ({ a with todo := todo } : GossipActor).Orderly := ⟨h.registered.of_eq rfl,h.topics,h.secured⟩
   exact hrest.perform blake3 decodeRelayUrl fail task

end

end Orderly

lemma orderly_create {options : GossipProtocolStateOptions} {random : Stream' ℕ} {s : GossipProtocolState}
    (h : GossipProtocolState.create options random = .ok s) : (create s).Orderly where
 registered := registered_create s
 topics topicId hhas := by
  change get s.topics topicId ≠ none at hhas
  rw [(create_empty h).1] at hhas
  exact absurd rfl hhas
 secured := ⟨nofun,nofun⟩

end

section
variable (blake3 : Bytes → MessageId) (decodeRelayUrl : Bytes → Option String)

def completes : GossipActorEvent → Bool
  | .work _ | .accepted _ _ _ | .acceptRejected | .dialed _ _ _ _ | .dialFailed _ _ | .message _ _ _ _
  | .readFailed _ _ => true
  | _ => false

def settle (a : GossipActor) (event : GossipActorEvent × ℕ) : Option GossipActor :=
  if completes event.1 then a.step blake3 decodeRelayUrl event else none

structure Closing (a : GossipActor) : Prop where
  orderly : a.Orderly
  closed : a.closed = true
  leaving : ∀ topicId n, n ∈ a.subscribers topicId → .closeSubscription n ∈ a.todo

variable {a b : GossipActor} {nowMs : ℕ}

lemma onPeers_leaves (m : PeersM (Option PeerId)) (a : GossipActor) :
    (a.onPeers blake3 m nowMs).closed = a.closed ∧ a.todo ⊆ (a.onPeers blake3 m nowMs).todo ∧
      (a.onPeers blake3 m nowMs).subscriptions = a.subscriptions := by
 unfold onPeers
 split
 · exact ⟨rfl,refl _,rfl⟩
 · exact ⟨rfl,subset_append_right _ _,rfl⟩

lemma perform_leaves (h : a.Registered) (fail : Option ℕ) (task : Task) :
    (a.perform blake3 decodeRelayUrl fail task nowMs).closed = a.closed ∧
      a.todo ⊆ (a.perform blake3 decodeRelayUrl fail task nowMs).todo ∧
      ∀ topicId n, n ∈ (a.perform blake3 decodeRelayUrl fail task nowMs).subscribers topicId →
        n ∈ a.subscribers topicId ∧ task ≠ .closeSubscription n := by
 match task with
 | .closeSubscription m =>
  have hs : ∀ topicId n, n ∈ (a.closeSubscription blake3 m nowMs).subscribers topicId →
    n ∈ a.subscribers topicId ∧ Task.closeSubscription m ≠ .closeSubscription n := by
   intro topicId n hn
   obtain ⟨hin,hne⟩:=(mem_subscribers_closeSubscription blake3 h m topicId n).mp hn
   exact ⟨hin,fun heq=>hne (Task.closeSubscription.inj heq).symm⟩
  rcases @closeSubscription_cases a nowMs blake3 h m with ⟨heq,_⟩|⟨_,_,⟨heq,_⟩|⟨_,heq⟩⟩
  · rw [heq] at hs
    rw [perform,heq]
    exact ⟨rfl,refl _,hs⟩
  · rw [heq] at hs
    rw [perform,heq]
    exact ⟨rfl,refl _,hs⟩
  · rw [heq] at hs
    rw [perform,heq]
    exact ⟨rfl,subset_append_right _ _,hs⟩
 | .peerReady peer => exact ⟨rfl,refl _,fun _ _ hn=>⟨hn,by simp⟩⟩
 | .out (.sendMessage peer topicId msg) =>
  obtain ⟨hc,ht,hsu⟩ :=
   @onPeers_leaves blake3 nowMs (sendMessage fail peer ⟨topicId,msg⟩) a
  refine ⟨hc,ht,fun other n hn=>⟨?_,by simp⟩⟩
  rw [subscribers,← hsu]
  exact hn
 | .out (.emitEvent topicId (.neighborUp peer)) | .out (.emitEvent topicId (.neighborDown peer)) =>
  exact ⟨rfl,refl _,fun _ _ hn=>⟨hn,by simp⟩⟩
 | .out (.emitEvent topicId (.received src id payload scope)) =>
  exact ⟨rfl,refl _,fun _ _ hn=>⟨hn,by simp⟩⟩
 | .out (.disconnectPeer peer) | .out (.scheduleTimer _ _ _) =>
  exact ⟨rfl,refl _,fun _ _ hn=>⟨hn,by simp⟩⟩
 | .out (.peerData peer peerData) =>
  change (a.updatePeerData decodeRelayUrl peer peerData).closed = _ ∧
   _ ⊆ (a.updatePeerData decodeRelayUrl peer peerData).todo ∧
   ∀ topicId n, n ∈ (a.updatePeerData decodeRelayUrl peer peerData).subscribers topicId → _
  unfold updatePeerData
  split
  · exact ⟨rfl,refl _,fun _ _ hn=>⟨hn,by simp⟩⟩
  · exact ⟨rfl,refl _,fun _ _ hn=>⟨hn,by simp⟩⟩

section
variable (h : a.Closing)
include h

lemma Closing.perform {fail : Option ℕ} {task : Task} {todo : List Task} (ht : a.todo = task :: todo) :
    ({ a with todo := todo }.perform blake3 decodeRelayUrl fail task nowMs).Closing := by
 have hrest : ({ a with todo := todo } : GossipActor).Orderly :=
  ⟨h.orderly.registered.of_eq rfl,h.orderly.topics,h.orderly.secured⟩
 obtain ⟨hc,hsu,hs⟩ :=
  @perform_leaves blake3 decodeRelayUrl { a with todo := todo } nowMs hrest.registered fail task
 refine ⟨hrest.perform blake3 decodeRelayUrl fail task,hc.trans h.closed,fun topicId n hn=>?_⟩
 obtain ⟨hin,hne⟩:=hs topicId n hn
 have hm:=h.leaving topicId n hin
 rw [ht] at hm
 exact hsu ((mem_cons.mp hm).resolve_left (Ne.symm hne))

lemma Closing.no_topics (hi : a.todo = []) (topicId : TopicId) : ¬ a.state.Has topicId := by
 intro hh
 obtain ⟨n,hn⟩:=exists_mem_of_ne_nil _ (h.orderly.topics topicId hh)
 have hm:=h.leaving topicId n hn
 rw [hi] at hm
 cases hm

lemma Closing.onPeers (hi : a.todo = []) (hm : Keeps connects m) (hse : (m a.toPeerTable).2.Secured) :
    (a.onPeers blake3 m nowMs).Closing ∧ (a.onPeers blake3 m nowMs).todo = [] ∧
      (a.onPeers blake3 m nowMs).connects = a.connects := by
 obtain ⟨hc,_,hs⟩:=@onPeers_leaves blake3 nowMs m a
 have he : (a.onPeers blake3 m nowMs).todo = [] := by
  unfold GossipActor.onPeers
  split
  · exact hi
  · rw [handle]
    rw [handle_peerDisconnected_of_none blake3 (h.no_topics hi),hi]
    rfl
 refine ⟨⟨h.orderly.onPeers blake3 hse,hc.trans h.closed,fun topicId n hn=>?_⟩,he,?_⟩
 · rw [subscribers,hs] at hn
   have hme:=h.leaving topicId n hn
   rw [hi] at hme
   cases hme
 · rw [toPeerTable_onPeers]
   exact hm a.toPeerTable

lemma Closing.react (hi : a.todo = []) (hc : completes event = true)
    (hst : a.react blake3 event nowMs = some b) : b.Closing ∧ b.todo = [] ∧ b.connects = a.connects := by
 have hs:=h.orderly.secured
 cases event with
 | accepted peer conn fail =>
  obtain ⟨_,rfl⟩:=of_guard hst
  have hk : Keeps connects (accepted a.closed fail peer conn) :=
   fun t=>(Changes.activateConnection a.closed fail trivial conn .inbound (t.acquire conn)).connects
  obtain ⟨ha,he,hco⟩:=@Closing.onPeers _ blake3 a nowMs h hi hk
   (secured_accepted a.closed fail peer conn _ hs)
  have ho:=ha.orderly
  exact ⟨⟨⟨ho.registered.of_eq rfl,ho.topics,ho.secured⟩,ha.closed,ha.leaving⟩,he,hco⟩
 | acceptRejected =>
  obtain ⟨_,rfl⟩:=of_guard hst
  rw [if_pos h.closed]
  exact ⟨⟨⟨h.orderly.registered.of_eq rfl,h.orderly.topics,hs⟩,h.closed,h.leaving⟩,hi,rfl⟩
 | dialed id number conn fail =>
  obtain ⟨_,rfl⟩:=of_guard hst
  exact h.onPeers blake3 hi (fun _=>(Changes.dialed a.closed fail (fun _=>trivial) conn).connects)
   (secured_dialed a.closed fail id number conn _ hs)
 | dialFailed id number =>
  obtain ⟨_,rfl⟩:=of_guard hst
  exact h.onPeers blake3 hi (fun _=>(Changes.dialFailed id number _).connects)
   ((Covers.of_any (.dialFailed id number _)).secured hs)
 | readFailed id conn =>
  obtain ⟨_,rfl⟩:=of_guard hst
  exact h.onPeers blake3 hi (fun _=>(Changes.peerDisconnected id conn _).connects)
   ((Covers.of_any (.peerDisconnected id conn _)).secured hs)
 | message id conn topicId msg =>
  obtain ⟨_,rfl⟩:=of_guard hst
  have hno : (a.state.handle blake3 (.recvMessage (a.runtimes id).peer topicId msg) nowMs).1 = [] :=
   handle_recvMessage_of_none blake3 (h.no_topics hi) _ topicId msg
  refine ⟨⟨h.orderly.handle blake3 _ nofun,h.closed,fun topicId n hn=>?_⟩,?_,rfl⟩
  · have hm:=h.leaving topicId n hn
    exact mem_append_right _ hm
  · rw [handle]
    rw [hno,hi]
    rfl
 | work fail => cases hst
 | subscribe topicId bootstrap | closeSubscription n | joined n | joinPeer n peer | joinPeers n peers
 | awaitPeer n peer | broadcast n payload scope | timerExpired topicId timer | close => cases hc

lemma Closing.settle {event : GossipActorEvent × ℕ} (hs : a.settle blake3 decodeRelayUrl event = some b) :
    b.Closing ∧ (a.todo = [] → b.todo = [] ∧ b.connects = a.connects) := by
 rw [GossipActor.settle] at hs
 split_ifs at hs with hc
 rcases step_cases hs with ⟨hi,hr⟩|⟨task,todo,fail,ht,_,rfl⟩
 · obtain ⟨hcl,hrest⟩:=h.react blake3 hi hc hr
   exact ⟨hcl,fun _=>hrest⟩
 · refine ⟨h.perform blake3 decodeRelayUrl ht,fun hi=>?_⟩
   rw [hi] at ht
   cases ht

lemma Closing.connects_eq (hi : a.todo = []) {later : List (GossipActorEvent × ℕ)}
    (hr : Runs (GossipActor.settle blake3 decodeRelayUrl) a later b) : b.connects = a.connects := by
 refine (hr.invariant (fun c=>c.Closing ∧ c.todo = [] ∧ c.connects = a.connects) ⟨h,hi,rfl⟩ ?_).2.2
 rintro c event next ⟨hcl,he,hc⟩ hs
 obtain ⟨hn,hrest⟩:=hcl.settle blake3 decodeRelayUrl hs
 exact ⟨hn,(hrest he).1,(hrest he).2.trans hc⟩

end

/-- A completion closes the connection that it brings: it was given up, or what is to be sent on it cannot be sent. -/
def Closes (a : GossipActor) (event : GossipActorEvent × ℕ) : Prop :=
  match event.1 with
  | .accepted peer _ fail => Throws fail (a.queued peer)
  | .dialed id number _ fail =>
    (a.runtimes id).state.isPending number = true → Throws fail (a.queued (a.runtimes id).peer)
  | _ => True

lemma released_perform (h : a.toPeerTable.Released) (fail : Option ℕ) (task : Task) :
    (a.perform blake3 decodeRelayUrl fail task nowMs).toPeerTable.Released := by
 refine table_perform blake3 decodeRelayUrl h (fun peer event=>?_) (fun peer=>?_) (fun peer=>?_)
  (fun peer relayUrl=>?_) task
 · exact h.of_changes (.sendMessage fail trivial event _)
 · exact h.disconnectPeer peer
 · exact h.of_changes (.requirePeer peer _)
 · exact ⟨h.allocated,h.idle,h.closed⟩

/-- After `close`, exactly these completions leave every connection closed. -/
theorem released_react (hc : a.closed = true) (h : a.toPeerTable.Released)
    (hco : completes event = true) (hs : a.react blake3 event nowMs = some b) :
    (a.Closes (event, nowMs) → b.toPeerTable.Released) ∧
    (b.obtained ⊆ b.closedConnections → a.Closes (event, nowMs)) := by
 cases event with
 | accepted peer conn fail =>
  obtain ⟨⟨_,hf⟩,rfl⟩:=of_guard hs
  rw [toPeerTable_onPeers,hc]
  exact h.accepted hf.2
 | acceptRejected =>
  obtain ⟨_,rfl⟩:=of_guard hs
  rw [if_pos hc]
  exact ⟨fun _=>h,fun _=>trivial⟩
 | dialed id number conn fail =>
  obtain ⟨⟨_,hf⟩,rfl⟩:=of_guard hs
  rw [toPeerTable_onPeers,hc]
  exact h.dialed hf.2
 | dialFailed id number =>
  obtain ⟨_,rfl⟩:=of_guard hs
  rw [toPeerTable_onPeers]
  exact ⟨fun _=>h.of_changes (.dialFailed id number _),fun _=>trivial⟩
 | readFailed id conn =>
  obtain ⟨_,rfl⟩:=of_guard hs
  rw [toPeerTable_onPeers]
  exact ⟨fun _=>h.of_changes (.peerDisconnected id conn _),fun _=>trivial⟩
 | message id conn topicId msg =>
  obtain ⟨_,rfl⟩:=of_guard hs
  exact ⟨fun _=>h,fun _=>trivial⟩
 | work fail => cases hs
 | subscribe topicId bootstrap | closeSubscription n | joined n | joinPeer n peer | joinPeers n peers
 | awaitPeer n peer | broadcast n payload scope | timerExpired topicId timer | close => cases hco

lemma released_settle {event : GossipActorEvent × ℕ} (hcl : a.Closing) (h : a.toPeerTable.Released)
    (hs : a.settle blake3 decodeRelayUrl event = some b) :
    (a.Closes event → b.toPeerTable.Released) ∧ (b.obtained ⊆ b.closedConnections → a.Closes event) := by
 rw [settle] at hs
 split_ifs at hs with hc
 rcases step_cases hs with ⟨_,hr⟩|⟨task,todo,fail,_,hw,rfl⟩
 · exact released_react blake3 hcl.closed h hc hr
 · have hrest : ({ a with todo := todo } : GossipActor).toPeerTable.Released := h
   refine ⟨fun _=>released_perform blake3 decodeRelayUrl hrest fail task,fun _=>?_⟩
   rw [Closes,hw]
   trivial

lemma Orderly.closing_close (h : a.Orderly) (hopen : a.closed = false) :
    a.close.Closing ∧ a.close.toPeerTable.Released := by
 have ho:=h.close
 rw [GossipActor.close,if_neg (by rw [hopen]; exact Bool.false_ne_true)] at ho ⊢
 refine ⟨⟨ho,rfl,fun topicId n hn=>?_⟩,h.secured.closePeers⟩
 change n ∈ (get a.subscriptions topicId).getD [] at hn
 cases hg : get a.subscriptions topicId with
 | none =>
  rw [hg] at hn
  exact absurd hn not_mem_nil
 | some subs =>
  rw [hg] at hn
  exact mem_map_of_mem (mem_flatMap.mpr ⟨_,mem_of_get hg,hn⟩)

/-- After `close` no connection is asked for. Every connection is closed exactly if no completion brings one that is
kept. -/
theorem close_is_final_iff {options : GossipProtocolStateOptions} {random : Stream' ℕ} {s : GossipProtocolState}
    (hcreate : GossipProtocolState.create options random = .ok s) {before later : List (GossipActorEvent × ℕ)}
    (hbefore : Runs (step blake3 decodeRelayUrl) (create s) before a) (hopen : a.closed = false)
    (hlater : Runs (settle blake3 decodeRelayUrl) a.close later b) :
    (b.todo = [] → ∀ rest c, Runs (settle blake3 decodeRelayUrl) b rest c → c.connects = b.connects) ∧
    (GuardedRuns (settle blake3 decodeRelayUrl) Closes a.close later b ↔
      ∀ done rest c, later = done ++ rest → Runs (settle blake3 decodeRelayUrl) a.close done c →
        c.obtained ⊆ c.closedConnections) := by
 have ho : a.Orderly := hbefore.invariant Orderly (orderly_create hcreate) fun _ _ _ h hs=>h.step blake3 hs
 obtain ⟨hcl,hre⟩:=ho.closing_close hopen
 constructor
 · intro hi rest c hrest
   have hl : b.Closing := hlater.invariant Closing hcl fun _ _ _ h hs=>(h.settle blake3 decodeRelayUrl hs).1
   exact hl.connects_eq blake3 decodeRelayUrl hi hrest
 · refine hlater.guarded_iff_holds (I := fun c=>c.Closing ∧ c.toPeerTable.Released) ⟨hcl,hre⟩ ?_ ?_ ?_
   · rintro c event next ⟨hc,hr⟩ hok hs
     exact ⟨(hc.settle blake3 decodeRelayUrl hs).1,(released_settle blake3 decodeRelayUrl hc hr hs).1 hok⟩
   · exact fun c hc=>hc.2.closed
   · exact fun c event next hc hs hcd=>(released_settle blake3 decodeRelayUrl hc.1 hc.2 hs).2 hcd

/-- No connection gets lost, and no topic outlives its subscriptions. -/
theorem actor_keeps_order {options : GossipProtocolStateOptions} {random : Stream' ℕ} {s : GossipProtocolState}
    (hcreate : GossipProtocolState.create options random = .ok s) {events : List (GossipActorEvent × ℕ)}
    (h : Runs (step blake3 decodeRelayUrl) (create s) events a) :
    (∀ connection ∈ a.obtained, a.toPeerTable.Kept connection) ∧
    (∀ topicId, a.state.Has topicId → a.subscribers topicId ≠ []) ∧
    ∀ n, a.IsOpen n ↔ ∃ topicId, n ∈ a.subscribers topicId := by
 have hor : a.Orderly := h.invariant Orderly (orderly_create hcreate) fun _ _ _ ho hst=>ho.step blake3 hst
 obtain ⟨⟨hs,hl⟩,ht,hse⟩:=hor
 exact ⟨hse.kept,ht,fun n=>⟨fun hn=>⟨_,hl n hn⟩,fun ⟨topicId,hn⟩=>(hs topicId n hn).1⟩⟩

end

def dialingPeer : List (GossipActorEvent × ℕ) :=
  [(.subscribe (idOf 7) [⟨idOf 2, "relay"⟩], 0), (.work none, 0), (.work none, 0), (.work none, 0)]

/-- The actor is closed while a dial and an accept are under way; both bring a connection. -/
def lateConnections : List (GossipActorEvent × ℕ) :=
  [(.work none, 2), (.work none, 2), (.dialed 0 0 0 none, 3), (.accepted (idOf 4) 1 none, 4)]

/-- Nothing that could close the connections is under way any more. -/
theorem late_connections_stay_open :
    ∃ a, Runs (step (fun _ => idOf 0) fun _ => none) (create ProtocolHistory.fresh) dialingPeer a ∧
      a.closed = false ∧ ∃ b, Runs (settle (fun _ => idOf 0) fun _ => none) a.close lateConnections b ∧
        b.closed = true ∧ b.todo = [] ∧ b.dials = [] ∧ b.accepting = false ∧ b.readers = [] ∧
        b.obtained = [0, 1] ∧ b.closedConnections = [] :=
 by decide +kernel

def failedConnections : List (GossipActorEvent × ℕ) :=
  [(.work none, 2), (.work none, 2), (.dialFailed 0 0, 3), (.acceptRejected, 4)]

theorem final_when_nothing_connects :
    ∃ a b, Runs (step (fun _ => idOf 0) fun _ => none) (create ProtocolHistory.fresh)
        (dialingPeer ++ [(.accepted (idOf 3) 0 none, 1)]) a ∧
      Runs (settle (fun _ => idOf 0) fun _ => none) a.close failedConnections b ∧ b.todo = [] ∧
      (∀ rest c, Runs (settle (fun _ => idOf 0) fun _ => none) b rest c → c.connects = b.connects) ∧
      b.obtained = [0] ∧ b.obtained ⊆ b.closedConnections := by
 obtain ⟨a,hbefore,hopen,b,hr,hi,ho⟩ : ∃ a, Runs (step (fun _=>idOf 0) fun _=>none) (create fresh)
   (dialingPeer ++ [(.accepted (idOf 3) 0 none,1)]) a ∧ a.closed = false ∧
    ∃ b, Runs (settle (fun _=>idOf 0) fun _=>none) a.close failedConnections b ∧ b.todo = [] ∧ b.obtained = [0] := by
  decide +kernel
 obtain ⟨hc,hcl⟩:=close_is_final_iff (fun _=>idOf 0) (fun _=>none) create_fresh
  hbefore hopen hr
 have hcs : GuardedRuns (settle (fun _=>idOf 0) fun _=>none) Closes a.close failedConnections b :=
  hr.guarded_of_mem fun event hevent c=>by
   simp only [failedConnections,mem_cons,not_mem_nil,or_false] at hevent
   rcases hevent with rfl|rfl|rfl|rfl
   · trivial
   · trivial
   · trivial
   · trivial
 exact ⟨a,b,hbefore,hr,hi,hc hi,ho,hcl.mp hcs failedConnections [] b (append_nil _).symm hr⟩

theorem accepted_connection_kept : ∃ a, Runs (step (fun _ => idOf 0) fun _ => none) (create ProtocolHistory.fresh)
        (dialingPeer ++ [(.accepted (idOf 3) 0 none, 1)]) a ∧ a.obtained = [0] ∧ a.toPeerTable.Kept 0 :=
 exists_and₂ (by decide +kernel) fun a h hobtained=>
  (actor_keeps_order _ _ create_fresh h).1 0 (hobtained ▸ mem_singleton_self 0)

end GossipActor

end Enlace.Gossip
